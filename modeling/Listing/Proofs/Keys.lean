import Listing.Proofs.LastPerKey
import Listing.Query.Destination
import Mathlib.Logic.Function.Basic

/-!
# How keys are written

The key of a pair is that of a reserved parameter, or the name of a bracket group with a field in
brackets after it, or else the name of a field. Of these forms every key has exactly one, and it is
the one by which the pair is sent on, whatever brackets, points or dollar signs stand in the key.
-/

namespace Listing

/-- The key of a reserved parameter. -/
def Parameter.key : Parameter → String
  | page => "page"
  | limit => "limit"
  | skip => "skip"
  | sort => "sort"
  | search => "q"
  | override => "mongoQuery"
  | fields => "fields"

/-- A parameter is listed under its key and no other. -/
theorem Parameter.mem_named_iff {key : String} {parameter : Parameter} :
    (key, parameter) ∈ named ↔ key = parameter.key := by
  cases parameter <;> simp [named, Parameter.key]

/-- A key is looked up as the parameter that it is the key of. -/
theorem Parameter.lookup_named_eq_some_iff {key : String} {parameter : Parameter} :
    named.lookup key = some parameter ↔ key = parameter.key := by
  have hnodup : (Keyed.keys named).Nodup := by decide
  rw [← mem_named_iff]
  exact ⟨Keyed.mem_of_get?, Keyed.get?_of_mem hnodup⟩

namespace ListGroup

/-- The name of a bracket group. -/
def name : ListGroup → String
  | inList => "inList"
  | notInList => "notInList"
  | elementIn => "inListArrOfObj"
  | elementNotIn => "notInListArrOfObj"

/-- The key of a field in a bracket group, such as `inList[status]`. -/
def keyOf (group : ListGroup) (field : String) : String := group.name ++ "[" ++ field ++ "]"

/-- The characters of such a key. -/
theorem toList_keyOf (group : ListGroup) (field : String) :
    (group.keyOf field).toList = group.name.toList ++ '[' :: (field.toList ++ [']']) := by
  simp [keyOf]

/-- A group is listed under its name and no other. -/
theorem mem_named_iff {text : String} {group : ListGroup} : (text, group) ∈ named ↔ text = group.name := by
  cases group <;> simp [named, name]

/-- A text is looked up as the group that it is the name of. -/
theorem lookup_named_eq_some_iff {text : String} {group : ListGroup} :
    named.lookup text = some group ↔ text = group.name := by
  have hnodup : (Keyed.keys named).Nodup := by decide
  rw [← mem_named_iff]
  exact ⟨Keyed.mem_of_get?, Keyed.get?_of_mem hnodup⟩

end ListGroup

/-- A field that can stand in the brackets of a group: it is not empty and has no brackets in it. -/
structure Bracketable (field : String) : Prop where
  /-- There is something between the brackets. -/
  ne_empty : field ≠ ""
  /-- No bracket is opened. -/
  not_opened : '[' ∉ field.toList
  /-- No bracket is closed. -/
  not_closed : ']' ∉ field.toList

/-- A field that can stand in brackets is not itself a key of a bracket group. -/
theorem Bracketable.ne_keyOf {field : String} (h : Bracketable field) (group : ListGroup) (other : String) :
    field ≠ group.keyOf other := by
  intro heq
  apply h.not_opened
  rw [heq, ListGroup.toList_keyOf]
  simp

/-- A text can be cut at the first separator in it. -/
theorem Text.cutAt_append {separator : Char} {before : List Char} (h : separator ∉ before) (after : List Char) :
    cutAt separator (before ++ separator :: after) = some (before, after) := by
  induction before with
  | nil => simp [cutAt]
  | cons c rest ih =>
    obtain ⟨hc, hrest⟩ := not_or.mp (mt List.mem_cons.mpr h)
    simp [cutAt, Ne.symm hc, ih hrest]

namespace Destination

/-- What a key is for, by how it is written. -/
inductive IsOf : Destination → String → Prop where
  | parameter (parameter : Parameter) : IsOf (.parameter parameter) parameter.key
  | group (group : ListGroup) {field : String} (hfield : Bracketable field) :
      IsOf (.group group field) (group.keyOf field)
  | equality {key : String} (hparameter : ∀ parameter : Parameter, key ≠ parameter.key)
      (hgroup : ∀ (group : ListGroup) (field : String), Bracketable field → key ≠ group.keyOf field) :
      IsOf (.equality key) key

/-- A key is written for a field of a bracket group when the field can stand in brackets and does. -/
theorem isOf_group_iff {group : ListGroup} {field key : String} :
    (Destination.group group field).IsOf key ↔ Bracketable field ∧ key = group.keyOf field := by
  refine ⟨fun h => ?_, fun h => h.2 ▸ .group group h.1⟩
  cases h with
  | group _ hfield => exact ⟨hfield, rfl⟩

/-- What stands between brackets is followed by the closing one and nothing else. -/
theorem eq_of_bracketed? {rest : List Char} {field : String} (h : bracketed? rest = some field) :
    rest = field.toList ++ [']'] := by
  rw [bracketed?] at h
  split at h
  · next hfield =>
    obtain rfl := Option.some.inj h
    rw [String.toList_ofList]
    exact (List.dropLast_append_getLast? _ hfield.1).symm
  · contradiction

/-- What follows an opening bracket is read as a field when it is one with the closing bracket after it. -/
theorem bracketed?_eq_some_iff {rest : List Char} {field : String} :
    bracketed? rest = some field ↔ Bracketable field ∧ rest = field.toList ++ [']'] := by
  constructor
  · intro h
    have hrest := eq_of_bracketed? h
    rw [bracketed?] at h
    split at h
    · next hfield =>
      obtain rfl := Option.some.inj h
      obtain ⟨-, hne, hopened, hclosed⟩ := hfield
      refine ⟨⟨?_, ?_, ?_⟩, hrest⟩
      · simpa [← String.toList_inj] using hne
      · simpa using hopened
      · simpa using hclosed
    · contradiction
  · rintro ⟨⟨hne, hopened, hclosed⟩, rfl⟩
    have hchars : field.toList ≠ [] := fun h => hne (String.toList_inj.mp h)
    simp [bracketed?, hchars, hopened, hclosed]

/-- A key is of a bracket group when it is the name of the group with a field in brackets after it. -/
theorem group?_eq_some_iff {key field : String} {group : ListGroup} :
    group? key = some (group, field) ↔ Bracketable field ∧ key = group.keyOf field := by
  rw [group?, ← String.toList_inj, ListGroup.toList_keyOf]
  constructor
  · intro h
    split at h
    · contradiction
    · next name rest hcut =>
      split at h
      · next inner found hinner hfound =>
        obtain ⟨rfl, rfl⟩ := Prod.mk.inj (Option.some.inj h)
        obtain ⟨hfield, rfl⟩ := bracketed?_eq_some_iff.mp hinner
        rw [(Text.cutAt_eq_some hcut).1, ← ListGroup.lookup_named_eq_some_iff.mp hfound, String.toList_ofList]
        exact ⟨hfield, rfl⟩
      · contradiction
  · rintro ⟨hfield, hkey⟩
    have hname : '[' ∉ group.name.toList := by cases group <;> decide
    have hfound : ListGroup.named.lookup group.name = some group := ListGroup.lookup_named_eq_some_iff.mpr rfl
    simp only [hkey, Text.cutAt_append hname, bracketed?_eq_some_iff.mpr ⟨hfield, rfl⟩, String.ofList_toList, hfound]

/-- No key of a bracket group is that of a parameter. -/
theorem keyOf_ne_key (group : ListGroup) (field : String) (parameter : Parameter) :
    group.keyOf field ≠ parameter.key := by
  intro heq
  have hmem : '[' ∈ parameter.key.toList := by
    rw [← heq, ListGroup.toList_keyOf]
    simp
  cases parameter <;> exact absurd hmem (by decide)

/-- A pair goes where its key says by how it is written. -/
theorem ofKey_eq_iff {key : String} {destination : Destination} :
    ofKey key = destination ↔ destination.IsOf key := by
  have hparameter (found : Parameter) : ofKey found.key = .parameter found := by
    rw [ofKey, Parameter.lookup_named_eq_some_iff.mpr rfl]
  constructor
  · rintro rfl
    rw [ofKey]
    split
    · next found hfound => exact Parameter.lookup_named_eq_some_iff.mp hfound ▸ .parameter found
    · next hfound =>
      split
      · next group field hgroup =>
        obtain ⟨hfield, rfl⟩ := group?_eq_some_iff.mp hgroup
        exact .group group hfield
      · next hgroup =>
        refine .equality (fun parameter heq => ?_) fun group field hfield heq => ?_
        · simp [Parameter.lookup_named_eq_some_iff.mpr heq] at hfound
        · simp [group?_eq_some_iff.mpr ⟨hfield, heq⟩] at hgroup
  · intro h
    cases h with
    | parameter parameter => exact hparameter parameter
    | @group group field hfield =>
      have hnone : Parameter.named.lookup (group.keyOf field) = none :=
        Option.eq_none_iff_forall_ne_some.mpr fun parameter hfound =>
          keyOf_ne_key group field parameter (Parameter.lookup_named_eq_some_iff.mp hfound)
      have hgroup : group? (group.keyOf field) = some (group, field) := group?_eq_some_iff.mpr ⟨hfield, rfl⟩
      simp only [ofKey, hnone, hgroup]
    | equality hfound hgroup =>
      have hnone : Parameter.named.lookup key = none :=
        Option.eq_none_iff_forall_ne_some.mpr fun parameter h =>
          hfound parameter (Parameter.lookup_named_eq_some_iff.mp h)
      have hnoGroup : group? key = none :=
        Option.eq_none_iff_forall_ne_some.mpr fun found h =>
          hgroup found.1 found.2 (group?_eq_some_iff.mp h).1 (group?_eq_some_iff.mp h).2
      simp only [ofKey, hnone, hnoGroup]

/-- A pair with the key of a parameter goes to it. -/
theorem ofKey_key (parameter : Parameter) : ofKey parameter.key = .parameter parameter :=
  ofKey_eq_iff.mpr (.parameter parameter)

/-- The key that is written for a destination. -/
def key : Destination → String
  | parameter reserved => reserved.key
  | group found field => found.keyOf field
  | equality field => field

/-- A key is the one that is written for where it goes. -/
theorem eq_key_of_ofKey {key : String} {destination : Destination} (h : ofKey key = destination) :
    key = destination.key := by
  cases ofKey_eq_iff.mp h <;> rfl

/-- Different keys go to different places. -/
theorem ofKey_injective : Function.Injective ofKey := by
  intro key other h
  rw [eq_key_of_ofKey h, ← eq_key_of_ofKey rfl]

/-- Every key is written in exactly one of the forms. -/
theorem existsUnique_isOf (key : String) : ∃! destination : Destination, destination.IsOf key :=
  ⟨ofKey key, ofKey_eq_iff.mp rfl, fun _ h => (ofKey_eq_iff.mpr h).symm⟩

end Destination

end Listing
