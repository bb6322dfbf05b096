import Listing.Json.Reader
import Listing.Proofs.LastPerKey
import Listing.Proofs.Outcome

/-!
# Values that are read

Every object in a value that is read from a text has distinct keys, at any depth and whatever keys
the text repeats. The invariant is that of one reader for the values inside another: a reader of
values around it keeps it, so all readers of values have it by induction on the levels.
-/

namespace Listing.Json

/-- A list of values is well-formed when each of them is. -/
theorem wellFormedElements_iff {elements : List Json} :
    WellFormedElements elements ↔ ∀ element ∈ elements, element.WellFormed := by
  induction elements with
  | nil => simp [WellFormedElements]
  | cons element rest ih => simp [WellFormedElements, ih]

/-- The values of entries are well-formed when each of them is. -/
theorem wellFormedFields_iff {fields : List (String × Json)} :
    WellFormedFields fields ↔ ∀ entry ∈ fields, entry.2.WellFormed := by
  induction fields with
  | nil => simp [WellFormedFields]
  | cons entry rest ih => simp [WellFormedFields, ih]

/-- The object of any well-formed values, each key once, is well-formed. -/
theorem wellFormed_object_ofList {entries : List (String × Json)}
    (h : ∀ entry ∈ entries, entry.2.WellFormed) : (object (Keyed.ofList entries)).WellFormed :=
  ⟨Keyed.nodup_keys_ofList entries,
    wellFormedFields_iff.mpr fun entry hentry => h entry (Keyed.mem_of_mem_ofList hentry)⟩

/-- All that a reader reads is well-formed. -/
def ReadsWellFormed (read : Reader Json) : Prop :=
  ∀ input value rest, read input = .ok (value, rest) → value.WellFormed

/-- A word stands for its value. -/
theorem eq_of_word {value found : Json} {letters input rest : List Char}
    (h : word value letters input = .ok (found, rest)) : found = value := by
  induction letters generalizing input with
  | nil =>
    rw [word] at h
    exact (Prod.mk.inj (Except.ok.inj h)).1.symm
  | cons letter letters ih =>
    cases input with
    | nil => contradiction
    | cons c input =>
      rw [word] at h
      split at h
      · exact ih h
      · contradiction

/-- What is read as a number is a number. -/
theorem exists_number_of_unsignedNumber {negative : Bool} {input rest : List Char} {value : Json}
    (h : unsignedNumber negative input = .ok (value, rest)) : ∃ n, value = .number n := by
  rw [unsignedNumber] at h
  obtain ⟨⟨whole, rest⟩, -, h⟩ := Outcome.bind_eq_ok_iff.mp h
  obtain ⟨⟨fraction, rest⟩, -, h⟩ := Outcome.bind_eq_ok_iff.mp h
  obtain ⟨⟨exponent, rest⟩, -, h⟩ := Outcome.bind_eq_ok_iff.mp h
  dsimp only at h
  split at h
  · contradiction
  · split at h
    · next n _ => exact ⟨n, (Prod.mk.inj (Except.ok.inj h)).1.symm⟩
    · contradiction

section

variable {element : Reader Json}

/-- The elements of an array are well-formed when all that is read inside it is. -/
theorem wellFormed_of_elementsFrom (helement : ReadsWellFormed element) {bound : Nat} {input rest : List Char}
    {values : List Json} (h : elementsFrom element bound input = .ok (values, rest)) :
    ∀ value ∈ values, value.WellFormed := by
  induction bound generalizing input rest values with
  | zero => contradiction
  | succ bound ih =>
    rw [elementsFrom] at h
    obtain ⟨⟨first, after⟩, hfirst, h⟩ := Outcome.bind_eq_ok_iff.mp h
    have hfirst : first.WellFormed := helement _ _ _ hfirst
    dsimp only at h
    split at h
    · contradiction
    · obtain ⟨rfl, -⟩ := Prod.mk.inj (Except.ok.inj h)
      exact fun value hvalue => List.mem_singleton.mp hvalue ▸ hfirst
    · split at h
      · contradiction
      · contradiction
      · obtain ⟨⟨others, last⟩, hothers, h⟩ := Outcome.bind_eq_ok_iff.mp h
        obtain ⟨rfl, -⟩ := Prod.mk.inj (Except.ok.inj h)
        exact List.forall_mem_cons.mpr ⟨hfirst, ih hothers⟩
    · contradiction

/-- The value of an entry is well-formed when all that is read inside it is. -/
theorem wellFormed_of_entry (helement : ReadsWellFormed element) {input rest : List Char} {found : String × Json}
    (h : entry element input = .ok (found, rest)) : found.2.WellFormed := by
  rw [entry] at h
  obtain ⟨⟨key, after⟩, -, h⟩ := Outcome.bind_eq_ok_iff.mp h
  dsimp only at h
  split at h
  · contradiction
  · obtain ⟨⟨value, last⟩, hvalue, h⟩ := Outcome.bind_eq_ok_iff.mp h
    obtain ⟨rfl, -⟩ := Prod.mk.inj (Except.ok.inj h)
    exact helement _ _ _ hvalue
  · contradiction

/-- The values of the entries of an object are well-formed when all that is read inside it is. -/
theorem wellFormed_of_entriesFrom (helement : ReadsWellFormed element) {bound : Nat} {input rest : List Char}
    {entries : List (String × Json)} (h : entriesFrom element bound input = .ok (entries, rest)) :
    ∀ found ∈ entries, found.2.WellFormed := by
  induction bound generalizing input rest entries with
  | zero => contradiction
  | succ bound ih =>
    rw [entriesFrom.eq_def] at h
    dsimp only at h
    split at h
    · contradiction
    · contradiction
    · next smaller _ hbound =>
      obtain rfl : bound = smaller := Nat.succ.inj hbound
      obtain ⟨⟨first, after⟩, hfirst, h⟩ := Outcome.bind_eq_ok_iff.mp h
      have hfirst : first.2.WellFormed := wellFormed_of_entry helement hfirst
      dsimp only at h
      split at h
      · contradiction
      · obtain ⟨rfl, -⟩ := Prod.mk.inj (Except.ok.inj h)
        exact fun found hfound => List.mem_singleton.mp hfound ▸ hfirst
      · split at h
        · contradiction
        · obtain ⟨⟨others, last⟩, hothers, h⟩ := Outcome.bind_eq_ok_iff.mp h
          obtain ⟨rfl, -⟩ := Prod.mk.inj (Except.ok.inj h)
          exact List.forall_mem_cons.mpr ⟨hfirst, ih hothers⟩
      · contradiction
    · contradiction

/-- An array is well-formed when all that is read inside it is. -/
theorem readsWellFormed_arrayAfter (helement : ReadsWellFormed element) : ReadsWellFormed (arrayAfter element) := by
  intro input value rest h
  rw [arrayAfter] at h
  split at h
  · contradiction
  · obtain ⟨rfl, -⟩ := Prod.mk.inj (Except.ok.inj h)
    exact trivial
  · obtain ⟨⟨values, after⟩, hvalues, h⟩ := Outcome.bind_eq_ok_iff.mp h
    obtain ⟨rfl, -⟩ := Prod.mk.inj (Except.ok.inj h)
    exact wellFormedElements_iff.mpr (wellFormed_of_elementsFrom helement hvalues)

/-- An object is well-formed when all that is read inside it is, whatever keys its text repeats. -/
theorem readsWellFormed_objectAfter (helement : ReadsWellFormed element) : ReadsWellFormed (objectAfter element) := by
  intro input value rest h
  rw [objectAfter] at h
  split at h
  · contradiction
  · obtain ⟨rfl, -⟩ := Prod.mk.inj (Except.ok.inj h)
    exact ⟨List.nodup_nil, trivial⟩
  · obtain ⟨⟨entries, after⟩, hentries, h⟩ := Outcome.bind_eq_ok_iff.mp h
    obtain ⟨rfl, -⟩ := Prod.mk.inj (Except.ok.inj h)
    exact wellFormed_object_ofList (wellFormed_of_entriesFrom helement hentries)

/-- A value is well-formed when all that is read inside it is. -/
theorem readsWellFormed_valueAround {inner : Option (Reader Json)} (hinner : ∀ element ∈ inner, ReadsWellFormed element) :
    ReadsWellFormed (valueAround inner) := by
  intro input value rest h
  rw [valueAround] at h
  split at h
  · contradiction
  · exact eq_of_word h ▸ trivial
  · exact eq_of_word h ▸ trivial
  · exact eq_of_word h ▸ trivial
  · obtain ⟨⟨text, after⟩, -, h⟩ := Outcome.bind_eq_ok_iff.mp h
    obtain ⟨rfl, -⟩ := Prod.mk.inj (Except.ok.inj h)
    exact trivial
  · obtain ⟨n, rfl⟩ := exists_number_of_unsignedNumber h
    exact trivial
  · split at h
    · exact readsWellFormed_arrayAfter (hinner _ rfl) _ _ _ h
    · contradiction
  · split at h
    · exact readsWellFormed_objectAfter (hinner _ rfl) _ _ _ h
    · contradiction
  · split at h
    · obtain ⟨n, rfl⟩ := exists_number_of_unsignedNumber h
      exact trivial
    · contradiction

end

/-- Values are well-formed however deep they may be. -/
theorem readsWellFormed_valueWithin (levels : Nat) : ReadsWellFormed (valueWithin levels) := by
  induction levels with
  | zero => exact readsWellFormed_valueAround (by simp)
  | succ levels ih => exact readsWellFormed_valueAround fun element helement => Option.some.inj helement ▸ ih

/-- Every value that is read from a text is well-formed. -/
theorem wellFormed_of_parse {text : String} {value : Json} (h : parse text = .ok value) : value.WellFormed := by
  rw [parse, Outcome.mapError_eq_ok_iff, ofChars] at h
  obtain ⟨⟨found, rest⟩, hfound, h⟩ := Outcome.bind_eq_ok_iff.mp h
  dsimp only at h
  split at h
  · exact Except.ok.inj h ▸ readsWellFormed_valueWithin _ _ _ _ hfound
  · contradiction

end Listing.Json
