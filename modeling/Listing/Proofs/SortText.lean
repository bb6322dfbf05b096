import Listing.Proofs.Pieces
import Listing.Proofs.UnusableValues
import Mathlib.Data.List.Forall2

/-!
# How sorts are written

A sort is read token by token. A token that is empty or a lone sign names no field; every other one is a key, written as
a sign and a field or as a field alone. The fields that are read in this way are the names without spaces and commas that
do not end in a blank, and they may begin with anything, also with a sign or a tab. Every list of keys for such fields is
read back from the text that has the sign and the field of each key in it, so each sort has a normal form.
-/

namespace Listing

/-- The sign of a direction. -/
def Direction.sign : Direction → Char
  | .ascending => '+'
  | .descending => '-'

/-- Signs are no blanks. -/
theorem Direction.not_isBlank_sign (direction : Direction) : Text.isBlank direction.sign = false := by
  cases direction <;> decide

/-- Signs do not separate keys. -/
theorem Direction.not_isSeparator_sign (direction : Direction) : SortKeys.isSeparator direction.sign = false := by
  cases direction <;> decide

namespace SortKey

/-- Whether a token is more than blanks and a sign. -/
def namesField (token : String) : Bool := Text.trim token ∉ ["", "-", "+"]

/-- How a key is written: the sign of its direction, then its field. -/
def text (key : SortKey) : String := String.singleton key.direction.sign ++ key.field

/-- What a token stands for, blanks at its ends aside. -/
inductive ReadFrom (token : String) : SortKey → Prop where
  /-- A sign and a field, whatever the field begins with. -/
  | signed {key : SortKey} (h : Text.trim token = key.text) : ReadFrom token key
  /-- A field without a sign. -/
  | plain {field : String} (h : Text.trim token = field)
      (hsign : ∀ direction : Direction, field.toList.head? ≠ some direction.sign) : ReadFrom token ⟨field, .ascending⟩

/-- Whether a text can be the field of a key that was read. -/
structure IsName (field : String) : Prop where
  /-- It is not empty. -/
  ne_empty : field ≠ ""
  /-- It has no space and no comma in it. -/
  no_separator : ∀ c ∈ field.toList, SortKeys.isSeparator c = false
  /-- It does not end in a blank. -/
  last : ∀ c ∈ field.toList.getLast?, Text.isBlank c = false

@[simp] theorem toList_text (key : SortKey) : key.text.toList = key.direction.sign :: key.field.toList := by
  rw [text, String.toList_append, String.toList_singleton, List.singleton_append]

/-- A token names a field when a key is read from it. -/
theorem namesField_eq_isSome (token : String) : namesField token = (ofToken? token).isSome := by
  rw [Bool.eq_iff_iff, Option.isSome_iff_ne_none, ne_eq, ofToken?_eq_none_iff]
  simp [namesField]

/-- Every token stands for a key, though perhaps for one with an empty field. -/
theorem exists_readFrom (token : String) : ∃ key, ReadFrom token key := by
  by_cases hsign : ∃ direction : Direction, (Text.trim token).toList.head? = some direction.sign
  · obtain ⟨direction, hhead⟩ := hsign
    obtain ⟨field, hfield⟩ := List.head?_eq_some_iff.mp hhead
    exact ⟨⟨String.ofList field, direction⟩, .signed (String.toList_inj.mp (by simpa using hfield))⟩
  · exact ⟨⟨Text.trim token, .ascending⟩, .plain rfl (not_exists.mp hsign)⟩

/-- What a token stands for is read from it unless its field is empty. -/
theorem ReadFrom.ofToken?_eq {token : String} {key : SortKey} (h : ReadFrom token key) :
    ofToken? token = if key.field = "" then none else some key := by
  cases h with
  | signed h =>
    obtain ⟨field, direction⟩ := key
    have hchars : Text.trimChars token.toList = direction.sign :: field.toList := by
      rw [← Text.toList_trim, h, toList_text]
    cases direction <;> simp [ofToken?, hchars, Direction.sign]
  | plain h hsign =>
    subst h
    simp only [ofToken?, Text.toList_trim] at *
    split
    · next hchars => exact absurd (congrArg List.head? hchars) (hsign .descending)
    · next hchars => exact absurd (congrArg List.head? hchars) (hsign .ascending)
    · simp [Text.trim]

/-- A key is read from a token that stands for it when its field is not empty. -/
theorem ofToken?_eq_some_iff {token : String} {key : SortKey} :
    ofToken? token = some key ↔ key.field ≠ "" ∧ ReadFrom token key := by
  constructor
  · intro h
    obtain ⟨read, hread⟩ := exists_readFrom token
    rw [hread.ofToken?_eq, Option.ite_none_left_eq_some, Option.some.injEq] at h
    obtain ⟨hne, rfl⟩ := h
    exact ⟨hne, hread⟩
  · rintro ⟨hne, hread⟩
    rw [hread.ofToken?_eq, if_neg hne]

/-- A written key has no blanks at its ends exactly when its field does not end in one. -/
theorem trimmed_text_iff {key : SortKey} (hne : key.field ≠ "") :
    Text.Trimmed key.text.toList ↔ ∀ c ∈ key.field.toList.getLast?, Text.isBlank c = false := by
  have hlast : key.text.toList.getLast? = key.field.toList.getLast? := by
    rw [toList_text, List.getLast?_cons_of_ne_nil (by simpa using hne)]
  rw [← hlast]
  constructor
  · exact Text.Trimmed.last
  · -- the sign is no blank either
    intro h
    refine ⟨fun c hc => ?_, h⟩
    rw [toList_text, List.head?_cons, Option.mem_some_iff] at hc
    exact hc ▸ key.direction.not_isBlank_sign

/-- The field of a key that is read from a token without separators is a name. -/
theorem ReadFrom.isName {token : String} {key : SortKey} (h : ReadFrom token key) (hne : key.field ≠ "")
    (htoken : ∀ c ∈ token.toList, SortKeys.isSeparator c = false) : IsName key.field := by
  have htrim : ∀ c ∈ (Text.trim token).toList, SortKeys.isSeparator c = false := by
    intro c hc
    rw [Text.toList_trim] at hc
    exact htoken c ((Text.trimChars_infix token.toList).subset hc)
  have htrimmed : Text.Trimmed (Text.trim token).toList := Text.toList_trim token ▸ Text.trimmed_trimChars token.toList
  cases h with
  | signed h =>
    rw [h] at htrim htrimmed
    refine ⟨hne, fun c hc => htrim c ?_, (trimmed_text_iff hne).mp htrimmed⟩
    rw [toList_text]
    exact List.mem_cons_of_mem _ hc
  | plain h hsign =>
    subst h
    exact ⟨hne, htrim, htrimmed.last⟩

/-- A key for a name is read back from what is written for it. -/
theorem IsName.ofToken?_text {key : SortKey} (h : IsName key.field) : ofToken? key.text = some key := by
  refine ofToken?_eq_some_iff.mpr ⟨h.ne_empty, .signed ?_⟩
  rw [← String.toList_inj, Text.toList_trim]
  exact Text.trimChars_eq_self_iff.mpr ((trimmed_text_iff h.ne_empty).mpr h.last)

/-- What is written for a key has no separators in it. -/
theorem IsName.not_isSeparator_of_mem_text {key : SortKey} (h : IsName key.field) :
    ∀ c ∈ key.text.toList, SortKeys.isSeparator c = false := by
  rw [toList_text]
  exact List.forall_mem_cons.mpr ⟨key.direction.not_isSeparator_sign, h.no_separator⟩

end SortKey

namespace SortKeys

/-- Keys written one after the other. -/
def written (separator : Char) (keys : SortKeys) : String :=
  (String.singleton separator).intercalate (keys.map SortKey.text)

/-- The keys of a text are read from those of its tokens that name a field, one from each and in their order. -/
theorem forall₂_filterMap_ofToken? (tokens : List String) :
    List.Forall₂ SortKey.ReadFrom (tokens.filter SortKey.namesField) (tokens.filterMap SortKey.ofToken?) := by
  induction tokens with
  | nil => exact .nil
  | cons token rest ih =>
    rw [List.filter_cons, List.filterMap_cons, SortKey.namesField_eq_isSome]
    cases hread : SortKey.ofToken? token with
    | none => exact ih
    | some key => exact .cons (SortKey.ofToken?_eq_some_iff.mp hread).2 ih

/-- The fields of the keys of a text are names. -/
theorem isName_of_mem_ofText {text : String} {key : SortKey} (h : key ∈ ofText text) : SortKey.IsName key.field := by
  obtain ⟨token, htoken, hread⟩ := List.mem_filterMap.mp h
  obtain ⟨hne, hread⟩ := SortKey.ofToken?_eq_some_iff.mp hread
  exact hread.isName hne (Text.not_isSeparator_of_mem_splitBy htoken)

/-- Keys for names are read back from what is written for them. -/
theorem parse?_written {keys : SortKeys} (hsome : keys ≠ []) (hnames : ∀ key ∈ keys, SortKey.IsName key.field)
    {separator : Char} (hseparator : isSeparator separator = true) : parse? (written separator keys) = some keys := by
  have hsplit : Text.splitBy isSeparator (written separator keys) = keys.map SortKey.text := by
    refine Text.splitBy_intercalate hseparator (by simpa using hsome) (List.forall_mem_map.mpr fun key hkey => ?_)
    exact (hnames key hkey).not_isSeparator_of_mem_text
  have hread : ∀ key ∈ keys, (SortKey.ofToken? ∘ SortKey.text) key = some key := by
    intro key hkey
    rw [Function.comp_apply, (hnames key hkey).ofToken?_text]
  have hkeys : ofText (written separator keys) = keys := by
    rw [ofText, hsplit, List.filterMap_map, List.filterMap_congr hread, List.filterMap_some]
  rw [parse?, hkeys, if_neg hsome]

/-- A text is a sort when it names keys. -/
theorem parse?_eq_some_iff {text : String} {keys : SortKeys} :
    parse? text = some keys ↔ keys ≠ [] ∧ ofText text = keys := by
  rw [parse?, Option.ite_none_left_eq_some, Option.some.injEq]
  exact and_congr_left fun heq => by rw [heq]

/-- Sorts have a normal form. A text is no sort exactly when each of its tokens, blanks at its ends aside, is empty or a
lone sign. Otherwise its keys are read from the remaining tokens, one from each and in their order, their fields are names,
and the same keys are read from what is written for them, with spaces as well as with commas in between. The lists of keys
that are read back in this way are exactly the lists with at least one key whose fields are names, also when these begin
with a sign. -/
theorem sort_texts_have_normal_form :
    (∀ text, parse? text = none ↔ ∀ token ∈ Text.splitBy isSeparator text, SortKey.namesField token = false) ∧
    (∀ text keys, parse? text = some keys →
      List.Forall₂ SortKey.ReadFrom ((Text.splitBy isSeparator text).filter SortKey.namesField) keys ∧
      (∀ key ∈ keys, SortKey.IsName key.field) ∧
      ∀ separator ∈ [' ', ','], parse? (written separator keys) = some keys) ∧
    ∀ keys, (keys ≠ [] ∧ ∀ key ∈ keys, SortKey.IsName key.field) ↔
      ∀ separator ∈ [' ', ','], parse? (written separator keys) = some keys := by
  have hseparators : ∀ separator ∈ [' ', ','], isSeparator separator = true := by simp [isSeparator]
  refine ⟨fun text => ?_, fun text keys hread => ?_, fun keys => ⟨?_, fun hread => ?_⟩⟩
  · simp only [parse?_eq_none_iff, SortKey.namesField, List.mem_cons, List.not_mem_nil, or_false, decide_not,
      Bool.not_eq_false', decide_eq_true_eq]
  · obtain ⟨hsome, rfl⟩ := parse?_eq_some_iff.mp hread
    have hnames : ∀ key ∈ ofText text, SortKey.IsName key.field := fun key => isName_of_mem_ofText
    exact ⟨forall₂_filterMap_ofToken? _, hnames, fun separator hseparator =>
      parse?_written hsome hnames (hseparators separator hseparator)⟩
  · rintro ⟨hsome, hnames⟩ separator hseparator
    exact parse?_written hsome hnames (hseparators separator hseparator)
  · obtain ⟨hsome, heq⟩ := parse?_eq_some_iff.mp (hread ' ' List.mem_cons_self)
    exact ⟨hsome, fun key hkey => isName_of_mem_ofText (heq ▸ hkey)⟩

/-- A field that begins with a sign and one that begins with a tab are read back with a plain one. -/
theorem sort_text_of_unusual_fields :
    let keys : SortKeys := [⟨"-rank", .descending⟩, ⟨"\tage", .ascending⟩, ⟨"name", .ascending⟩]
    parse? "--rank,+\tage - ,\tname\t" = some keys ∧ parse? "--rank +\tage +name" = some keys ∧
      parse? "--rank,+\tage,+name" = some keys := by
  intro keys
  have hread : parse? "--rank,+\tage - ,\tname\t" = some keys := by decide
  have hspaces : written ' ' keys = "--rank +\tage +name" := by decide
  have hcommas : written ',' keys = "--rank,+\tage,+name" := by decide
  obtain ⟨-, -, hback⟩ := sort_texts_have_normal_form.2.1 _ keys hread
  rw [← hspaces, ← hcommas]
  exact ⟨hread, hback ' ' (by simp), hback ',' (by simp)⟩

end SortKeys

end Listing
