import Listing.Filter.Holds
import Listing.Proofs.Candidates
import Listing.Proofs.CopiedParts
import Listing.Proofs.RepeatedExpansions
import Listing.Sort
import Mathlib.Data.List.Forall2

/-!
# The order of keys

Documents keep the keys of their objects in the order in which they came, and no condition and no sort depends on it.
Keys are looked up and not counted off, and two objects are compared key by key, so equal values stay equal when the
keys are put in another order, at whatever depth. The walks along a path come to values in the same places, and what is
compared at the end of a path is either a scalar, which has no keys, or compared as a whole.
-/

namespace Listing

namespace Json

/-- A well-formed value and one that is equal to it up to the order of the keys inside objects. -/
structure Alike (value other : Json) : Prop where
  /-- No key repeats in an object. -/
  wellFormed : value.WellFormed
  /-- Only the order of the keys differs. -/
  reordered : value.Reordered other

/-- A well-formed value is alike itself. -/
theorem Alike.refl {value : Json} (h : value.WellFormed) : value.Alike value := ⟨h, .refl value⟩

/-- What is equal to an array up to the order of keys is an array with such elements. -/
theorem reordered_array_iff {elements : List Json} {other : Json} :
    (array elements).Reordered other ↔ ∃ others, other = array others ∧ List.Forall₂ Reordered elements others := by
  constructor
  · intro h
    cases h with
    | refl => exact ⟨elements, rfl, List.forall₂_same.mpr fun element _ => .refl element⟩
    | array h => exact ⟨_, rfl, h⟩
  · rintro ⟨others, rfl, h⟩
    exact .array h

/-- What is equal to an object up to the order of keys is an object with the same keys and such values. -/
theorem reordered_object_iff {fields : Keyed Json} {other : Json} :
    (object fields).Reordered other ↔ ∃ others, other = object others ∧ (Keyed.keys fields).Perm (Keyed.keys others) ∧
      ∀ key, Option.Rel Reordered (Keyed.get? fields key) (Keyed.get? others key) := by
  constructor
  · intro h
    cases h with
    | refl => exact ⟨fields, rfl, .refl _, fun key => rel_refl .refl _⟩
    | object hkeys hvalues => exact ⟨_, rfl, hkeys, hvalues⟩
  · rintro ⟨others, rfl, hkeys, hvalues⟩
    exact .object hkeys hvalues

/-- Two entries may change places, and their values may be reordered. -/
theorem Reordered.swap {key next : String} (hne : key ≠ next) {value other nextValue nextOther : Json}
    (h : value.Reordered other) (hnext : nextValue.Reordered nextOther) :
    (Json.object [(key, value), (next, nextValue)]).Reordered (Json.object [(next, nextOther), (key, other)]) := by
  refine .object (List.Perm.swap _ _ _) fun asked => ?_
  rw [Keyed.get?_cons, Keyed.get?_cons, Keyed.get?_cons, Keyed.get?_cons]
  by_cases hkey : key = asked
  · subst hkey
    simp [hne.symm, h]
  · by_cases hasked : next = asked <;> simp [hkey, hasked, hnext]

variable {value other operand otherOperand : Json}

/-- The elements of well-formed values that differ in the order of keys differ in it alone. -/
theorem Alike.elements (h : value.Alike other) : List.Forall₂ Alike value.elements other.elements := by
  cases value with
  | array elements =>
    obtain ⟨others, rfl, helements⟩ := reordered_array_iff.mp h.reordered
    have hformed : ∀ element ∈ elements, element.WellFormed := wellFormedElements_iff.mp h.wellFormed
    exact ((List.forall₂_and_left _ _).mpr ⟨hformed, helements⟩).imp fun element found hboth => ⟨hboth.1, hboth.2⟩
  | object fields =>
    obtain ⟨others, rfl, -⟩ := reordered_object_iff.mp h.reordered
    exact .nil
  | _ =>
    cases h.reordered
    exact .nil

/-- So do their fields. -/
theorem Alike.field? (h : value.Alike other) (key : String) : Option.Rel Alike (value.field? key) (other.field? key) :=
  rel_imp (h.reordered.field? key) fun _ _ hvalue hinner => ⟨h.wellFormed.of_field? hvalue, hinner⟩

/-! ### Comparing two values -/

/-- An object without repeated keys is the same as another one when they have equally many keys and each value is the
same as the one under its key. -/
theorem same_object_iff {fields others : Keyed Json} (hnodup : (Keyed.keys fields).Nodup) :
    (object fields).same (object others) = true ↔
      (Keyed.keys fields).length = (Keyed.keys others).length ∧ ∀ key, ∀ value ∈ Keyed.get? fields key,
        ∃ found ∈ Keyed.get? others key, value.same found = true := by
  rw [same, Bool.and_eq_true, decide_eq_true_eq, sameFields_iff, Keyed.keys, Keyed.keys, List.length_map,
    List.length_map]
  refine and_congr_right fun _ => ⟨fun h key value hvalue => ?_, fun h entry hentry => ?_⟩
  · exact h (key, value) (Keyed.mem_of_get? hvalue)
  · exact h entry.1 entry.2 (Keyed.get?_of_mem hnodup hentry)

/-- Two values are the same as the same operands, whatever the order of keys in these. -/
def SameAs (value other : Json) : Prop :=
  ∀ operand otherOperand : Json, operand.Reordered otherOperand → value.same operand = other.same otherOperand

/-- Lists of elements are the same as operands when their elements are. -/
theorem sameElements_eq {elements others operands otherOperands : List Json}
    (helements : List.Forall₂ SameAs elements others) (hoperands : List.Forall₂ Reordered operands otherOperands) :
    sameElements elements operands = sameElements others otherOperands := by
  induction helements generalizing operands otherOperands with
  | nil => cases hoperands <;> rfl
  | cons helement _ ih =>
    cases hoperands with
    | nil => rfl
    | cons hoperand hrest => rw [sameElements, sameElements, helement _ _ hoperand, ih hrest]

/-- A field is the same as one of an operand when its value is. -/
theorem exists_same_iff {value other operand otherOperand : Option Json} (hvalue : Option.Rel SameAs value other)
    (hoperand : Option.Rel Reordered operand otherOperand) :
    (∀ inner ∈ value, ∃ found ∈ operand, inner.same found = true) ↔
      ∀ inner ∈ other, ∃ found ∈ otherOperand, inner.same found = true := by
  cases hvalue with
  | none => simp
  | some hvalue =>
    cases hoperand with
    | none => simp
    | some hoperand => simp [hvalue _ _ hoperand]

/-- Whether a value is the same as an operand does not depend on the order of keys in either of them. -/
theorem Alike.sameAs (h : value.Alike other) : value.SameAs other := by
  induction value using Json.induction generalizing other with
  | array elements ih =>
    obtain ⟨others, rfl, -⟩ := reordered_array_iff.mp h.reordered
    have helements : List.Forall₂ SameAs elements others :=
      ((List.forall₂_and_left _ _).mpr ⟨ih, h.elements⟩).imp fun element found hboth => hboth.1 hboth.2
    intro operand otherOperand hoperand
    -- operands of another kind stay of this kind, and are the same as neither
    cases operand with
    | array operands =>
      obtain ⟨otherOperands, rfl, hoperands⟩ := reordered_array_iff.mp hoperand
      exact sameElements_eq helements hoperands
    | object fields =>
      obtain ⟨otherFields, rfl, -⟩ := reordered_object_iff.mp hoperand
      rfl
    | _ =>
      cases hoperand
      rfl
  | object fields ih =>
    obtain ⟨others, rfl, hkeys, -⟩ := reordered_object_iff.mp h.reordered
    have hnodup := h.wellFormed.1
    have hvalues (key : String) : Option.Rel SameAs (Keyed.get? fields key) (Keyed.get? others key) :=
      rel_imp (h.field? key) fun inner _ hvalue hinner => ih (key, inner) (Keyed.mem_of_get? hvalue) hinner
    intro operand otherOperand hoperand
    cases operand with
    | object operands =>
      obtain ⟨otherOperands, rfl, hoperandKeys, hoperands⟩ := reordered_object_iff.mp hoperand
      rw [Bool.eq_iff_iff, same_object_iff hnodup, same_object_iff (hkeys.nodup hnodup), hkeys.length_eq,
        hoperandKeys.length_eq]
      exact and_congr_right fun _ => forall_congr' fun key => exists_same_iff (hvalues key) (hoperands key)
    | array elements =>
      obtain ⟨otherElements, rfl, -⟩ := reordered_array_iff.mp hoperand
      rfl
    | _ =>
      cases hoperand
      rfl
  | _ =>
    cases h.reordered
    intro operand otherOperand hoperand
    cases hoperand with
    | refl => rfl
    | array _ => rfl
    | object _ _ => rfl

/-- A value without what is inside of it when it is an array or an object. -/
def outline : Json → Json
  | array _ => array []
  | object _ => object []
  | value => value

/-- Values that differ in the order of keys have one outline. -/
theorem Reordered.outline_eq (h : value.Reordered other) : value.outline = other.outline := by
  cases h <;> rfl

/-- The order between a value and an operand depends on their outlines only. -/
theorem compareOperand?_outline (value operand : Json) :
    compareOperand? value.outline operand.outline = compareOperand? value operand := by
  cases value <;> cases operand <;> rfl

/-- So does the order of two values in a sort. -/
theorem sortValues_outline (value other : Json) : sortValues value.outline other.outline = sortValues value other := by
  cases value <;> cases other <;> rfl

/-- A value that is not an array or an object equals an operand when their outlines are equal. -/
theorem equalsOperand_outline (value operand : Json) :
    equalsOperand value operand =
      (value.same operand || value.isScalar && equalsOperand value.outline operand.outline) := by
  cases value <;> cases operand <;> simp [equalsOperand, outline, isScalar, same]

/-- Whether a value equals an operand does not depend on the order of keys in either of them. -/
theorem Alike.equalsOperand_eq (h : value.Alike other) (hoperand : operand.Reordered otherOperand) :
    equalsOperand value operand = equalsOperand other otherOperand := by
  have hscalar : value.isScalar = other.isScalar := by cases h.reordered <;> rfl
  rw [equalsOperand_outline, equalsOperand_outline other, h.sameAs _ _ hoperand, hscalar, h.reordered.outline_eq,
    hoperand.outline_eq]

/-- Nor does the order between them. -/
theorem Reordered.compareOperand?_eq (h : value.Reordered other) (hoperand : operand.Reordered otherOperand) :
    compareOperand? value operand = compareOperand? other otherOperand := by
  rw [← compareOperand?_outline, h.outline_eq, hoperand.outline_eq, compareOperand?_outline]

/-- Nor does the order in a sort, of values that may be missing. -/
theorem sortOptions_eq {value other found otherFound : Option Json} (h : Option.Rel Reordered value other)
    (hfound : Option.Rel Reordered found otherFound) : sortOptions value found = sortOptions other otherFound := by
  cases h with
  | none => cases hfound <;> rfl
  | some h =>
    cases hfound with
    | none => rfl
    | some hfound =>
      rw [sortOptions, sortOptions, ← sortValues_outline, h.outline_eq, hfound.outline_eq, sortValues_outline]

end Json

/-! ### Walks along a path -/

namespace Path

open Json

variable {value other : Json}

/-- A path is looked up as values that differ in the order of keys. -/
theorem reordered_lookup (h : value.Reordered other) (path : String) :
    Option.Rel Reordered (lookup value path) (lookup other path) := by
  rw [lookup, lookup]
  split
  · exact .none
  · exact h.descend _

/-- Keys lead to well-formed values only. -/
theorem wellFormed_descend (h : value.WellFormed) {keys : List String} {found : Json}
    (hfound : descend value keys = some found) : found.WellFormed := by
  induction keys generalizing value with
  | nil => exact Option.some.inj hfound ▸ h
  | cons key keys ih =>
    obtain ⟨next, hnext, hrest⟩ := Option.bind_eq_some_iff.mp hfound
    exact ih (h.of_field? hnext) hrest

/-- The values that are reached by opening arrays stand in the same places. -/
theorem alike_opened (h : value.Alike other) : List.Forall₂ Alike (opened value) (opened other) := by
  induction value using Json.induction generalizing other with
  | array elements ih =>
    obtain ⟨others, rfl, -⟩ := reordered_array_iff.mp h.reordered
    rw [opened, opened, openedAll_eq_flatMap, openedAll_eq_flatMap]
    have hopened :
        List.Forall₂ (fun element found => List.Forall₂ Alike (opened element) (opened found)) elements others :=
      ((List.forall₂_and_left _ _).mpr ⟨ih, h.elements⟩).imp fun element found hboth => hboth.1 hboth.2
    exact List.rel_flatMap hopened fun _ _ h => h
  | object fields =>
    obtain ⟨others, rfl, -⟩ := reordered_object_iff.mp h.reordered
    exact .cons h .nil
  | _ =>
    cases h.reordered
    exact .cons h .nil

/-- So do the values that keys lead to. -/
theorem alike_reach (h : value.Alike other) (keys : List String) :
    List.Forall₂ Alike (reach keys value) (reach keys other) := by
  induction keys generalizing value other with
  | nil => exact .cons h h.elements
  | cons key keys ih =>
    rw [reach, reach]
    refine List.rel_flatMap (alike_opened h) fun inner found hinner => ?_
    obtain ⟨hnext, hother⟩ | ⟨next, otherNext, hnext, hother, halike⟩ := rel_iff.mp (hinner.field? key)
    · simp only [hnext, hother]
      exact .nil
    · simp only [hnext, hother]
      exact ih halike

/-- So do the values that a condition on a path is tested against. -/
theorem alike_candidates (h : value.Alike other) (path : String) :
    List.Forall₂ Alike (candidates value path) (candidates other path) := by
  have hreach := alike_reach h ((segments path).take maxDepth)
  unfold candidates
  generalize reach ((segments path).take maxDepth) value = found at hreach
  generalize reach ((segments path).take maxDepth) other = otherFound at hreach
  cases hreach with
  | nil => exact .cons (.refl trivial) .nil
  | cons hfirst hrest => exact .cons hfirst hrest

end Path

/-! ### Filters and sorts -/

/-- A test passes for one of some values when one passes for one of the related values. -/
theorem any_eq_of_forall₂ {α : Type u} {β : Type v} {relation : α → β → Prop} {values : List α} {others : List β}
    (h : List.Forall₂ relation values others) {test : α → Bool} {otherTest : β → Bool}
    (htest : ∀ value other, relation value other → test value = otherTest other) :
    values.any test = others.any otherTest := by
  induction h with
  | nil => rfl
  | cons hfirst _ ih => rw [List.any_cons, List.any_cons, htest _ _ hfirst, ih]

/-- A test passes for all of some values when one passes for all of the related values. -/
theorem all_eq_of_forall₂ {α : Type u} {β : Type v} {relation : α → β → Prop} {values : List α} {others : List β}
    (h : List.Forall₂ relation values others) {test : α → Bool} {otherTest : β → Bool}
    (htest : ∀ value other, relation value other → test value = otherTest other) :
    values.all test = others.all otherTest := by
  induction h with
  | nil => rfl
  | cons hfirst _ ih => rw [List.all_cons, List.all_cons, htest _ _ hfirst, ih]

namespace Filter

open Json Listing.Path

/-- Two filters are equal up to the order of the keys in their operands. -/
inductive Reordered : Filter → Filter → Prop where
  | all {filters others : List Filter} (h : List.Forall₂ Reordered filters others) :
      Reordered (.all filters) (.all others)
  | any {filters others : List Filter} (h : List.Forall₂ Reordered filters others) :
      Reordered (.any filters) (.any others)
  | equals (path : String) {operand other : Json} (h : operand.Reordered other) :
      Reordered (.equals path operand) (.equals path other)
  | compare (path : String) (op : Comparison) {operand other : Json} (h : operand.Reordered other) :
      Reordered (.compare path op operand) (.compare path op other)
  | membership (path : String) (kind : Membership) {operands others : List Json}
      (h : List.Forall₂ Json.Reordered operands others) :
      Reordered (.membership path kind operands) (.membership path kind others)
  | element (path field : String) (kind : Membership) {operands others : List Json}
      (h : List.Forall₂ Json.Reordered operands others) :
      Reordered (.element path field kind operands) (.element path field kind others)
  | contains (path needle : String) : Reordered (.contains path needle) (.contains path needle)

section

variable {values others : List Json} (h : List.Forall₂ Alike values others)

include h

/-- Whether some value equals an operand does not depend on the order of keys. -/
theorem someEqual_eq {operand other : Json} (hoperand : operand.Reordered other) :
    someEqual values operand = someEqual others other :=
  any_eq_of_forall₂ h fun _ _ halike => halike.equalsOperand_eq hoperand

/-- Nor does a comparison. -/
theorem compares_eq (op : Comparison) {operand other : Json} (hoperand : operand.Reordered other) :
    compares values op operand = compares others op other := by
  cases op with
  | ne => rw [compares, compares, someEqual_eq h hoperand]
  | _ =>
    refine any_eq_of_forall₂ h fun value found halike => ?_
    rw [halike.reordered.compareOperand?_eq hoperand]

/-- Nor does a membership test. -/
theorem membershipHolds_eq (kind : Membership) {operands otherOperands : List Json}
    (hoperands : List.Forall₂ Json.Reordered operands otherOperands) :
    membershipHolds values kind operands = membershipHolds others kind otherOperands := by
  have hhit : values.any (fun value => operands.any (equalsOperand value)) =
      others.any fun value => otherOperands.any (equalsOperand value) :=
    any_eq_of_forall₂ h fun _ _ halike =>
      any_eq_of_forall₂ hoperands fun _ _ hoperand => halike.equalsOperand_eq hoperand
  cases kind with
  | isIn => exact hhit
  | notIn => rw [membershipHolds, membershipHolds, hhit]

end

/-- Whether a document satisfies a filter does not depend on the order of keys, in the document and in the operands. -/
theorem holds_eq {document otherDocument : Json} (hdocument : document.Alike otherDocument) {filter other : Filter}
    (h : filter.Reordered other) : filter.holds document = other.holds otherDocument := by
  induction filter generalizing other with
  | all filters ih =>
    cases h with
    | all hfilters =>
      rw [holds, holds, allHold_eq_all, allHold_eq_all]
      exact all_eq_of_forall₂ ((List.forall₂_and_left _ _).mpr ⟨ih, hfilters⟩) fun filter found hboth => hboth.1 hboth.2
  | any filters ih =>
    cases h with
    | any hfilters =>
      rw [holds, holds, someHolds_eq_any, someHolds_eq_any]
      exact any_eq_of_forall₂ ((List.forall₂_and_left _ _).mpr ⟨ih, hfilters⟩) fun filter found hboth => hboth.1 hboth.2
  | equals path operand =>
    cases h with
    | equals _ hoperand => exact someEqual_eq (alike_candidates hdocument path) hoperand
  | compare path op operand =>
    cases h with
    | compare _ _ hoperand => exact compares_eq (alike_candidates hdocument path) op hoperand
  | membership path kind operands =>
    cases h with
    | membership _ _ hoperands => exact membershipHolds_eq (alike_candidates hdocument path) kind hoperands
  | element path field kind operands =>
    cases h with
    | element _ _ _ hoperands =>
      rw [holds, holds]
      obtain ⟨hfound, hother⟩ | ⟨found, otherFound, hfound, hother, hreordered⟩ :=
        rel_iff.mp (reordered_lookup hdocument.reordered path)
      · rw [hfound, hother]
      · have hformed := wellFormed_descend hdocument.wellFormed (descend_of_lookup hfound)
        have halike : found.Alike otherFound := ⟨hformed, hreordered⟩
        rw [hfound, hother]
        cases found with
        | array elements =>
          obtain ⟨others, rfl, -⟩ := reordered_array_iff.mp hreordered
          exact any_eq_of_forall₂ halike.elements fun inner otherInner hinner =>
            membershipHolds_eq (alike_candidates hinner field) kind hoperands
        | object fields =>
          obtain ⟨others, rfl, -⟩ := reordered_object_iff.mp hreordered
          rfl
        | _ =>
          cases hreordered
          rfl
  | contains path needle =>
    cases h with
    | contains =>
      refine any_eq_of_forall₂ (alike_candidates hdocument path) fun value found halike => ?_
      cases halike.reordered with
      | refl => rfl
      | array _ => rfl
      | object _ _ => rfl

end Filter

/-- How a sort orders two documents does not depend on the order of keys in them. -/
theorem SortKeys.compare_eq {document other third otherThird : Json} (h : document.Reordered other)
    (hthird : third.Reordered otherThird) (keys : SortKeys) :
    keys.compare document third = keys.compare other otherThird := by
  induction keys with
  | nil => rfl
  | cons key keys ih =>
    have hkey : key.compare document third = key.compare other otherThird := by
      rw [SortKey.compare, SortKey.compare,
        Json.sortOptions_eq (Path.reordered_lookup h key.field) (Path.reordered_lookup hthird key.field)]
    rw [compare, compare, hkey, ih]

end Listing
