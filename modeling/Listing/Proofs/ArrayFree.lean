import Listing.Filter.Holds
import Listing.Proofs.Paths

/-!
# Documents without arrays

Two walks follow a path: one to look up the value to sort or to show, and one to find the values that a
condition is tested against. They differ in arrays, which only the second one opens. In a document without
arrays both come to the same value as long as the path has no more keys than are followed. On a longer
path the first walk finds nothing, and the second one stops at the last key that it follows, so the
condition is decided by the value of a shorter path.
-/

namespace Listing

namespace Json

mutual

/-- Whether there is no array in a value, at any depth. -/
def ArrayFree : Json → Prop
  | array _ => False
  | object fields => ArrayFreeFields fields
  | _ => True

/-- Whether there is no array in the value of any entry. -/
def ArrayFreeFields : List (String × Json) → Prop
  | [] => True
  | (_, value) :: rest => ArrayFree value ∧ ArrayFreeFields rest

end

/-- The fields of a value without arrays are without arrays. -/
theorem ArrayFree.of_field? {value next : Json} (h : value.ArrayFree) {key : String}
    (hfield : value.field? key = some next) : next.ArrayFree := by
  cases value with
  | object fields =>
    rw [ArrayFree] at h
    rw [field?, Json.fields] at hfield
    induction fields with
    | nil => contradiction
    | cons entry rest ih =>
      obtain ⟨hfirst, hrest⟩ := h
      rw [Keyed.get?_cons] at hfield
      split at hfield
      · exact Option.some.inj hfield ▸ hfirst
      · exact ih hrest hfield
  | _ => contradiction

/-- A value without arrays at the end of some keys makes up a document without arrays. -/
theorem ArrayFree.nest {value : Json} (h : value.ArrayFree) (keys : List String) : (Path.nest keys value).ArrayFree := by
  induction keys with
  | nil => exact h
  | cons key keys ih => exact ⟨ih, trivial⟩

end Json

namespace Path

/-- A value without arrays is not opened, and it has no elements. -/
theorem opened_of_arrayFree {value : Json} (h : value.ArrayFree) : opened value = [value] ∧ value.elements = [] := by
  cases value with
  | array => exact h.elim
  | _ => exact ⟨rfl, rfl⟩

/-- In a value without arrays keys lead to no other value than the one that they descend to. -/
theorem reach_of_arrayFree (keys : List String) {value : Json} (h : value.ArrayFree) :
    reach keys value = (descend value keys).toList := by
  induction keys generalizing value with
  | nil =>
    rw [reach, descend, (opened_of_arrayFree h).2]
    rfl
  | cons key keys ih =>
    rw [reach, (opened_of_arrayFree h).1, List.flatMap_singleton, descend]
    cases hfield : value.field? key with
    | none => rfl
    | some next => exact ih (h.of_field? hfield)

/-- A condition on a path of a document without arrays is tested against a single value. -/
theorem candidates_of_arrayFree {document : Json} (h : document.ArrayFree) (path : String) :
    candidates document path = [(descend document ((segments path).take maxDepth)).getD .null] := by
  rw [candidates, reach_of_arrayFree _ h]
  cases descend document ((segments path).take maxDepth) <;> rfl

/-- The keys that are followed of a path with more keys make up a shorter path. -/
theorem exists_segments_eq_take {path : String} (hdepth : maxDepth < (segments path).length) :
    ∃ shorter : String, shorter ≠ "" ∧ segments shorter = (segments path).take maxDepth := by
  have hlength : ((segments path).take maxDepth).length = maxDepth :=
    List.length_take_of_le (Nat.le_of_lt hdepth)
  have hkeys : (segments path).take maxDepth ≠ [] := List.ne_nil_of_length_pos (by rw [hlength]; decide)
  have hsegments : segments (".".intercalate ((segments path).take maxDepth)) = (segments path).take maxDepth :=
    segments_intercalate hkeys fun key hkey => not_mem_of_mem_segments (List.mem_of_mem_take hkey)
  refine ⟨_, fun hempty => ?_, hsegments⟩
  -- the empty path has one key
  rw [hempty] at hsegments
  have hone : (segments "").length = maxDepth := (congrArg List.length hsegments).trans hlength
  exact absurd hone (by decide)

end Path

namespace Filter

open Listing.Path

/-- An equality on a path of a document without arrays is decided by the value that the path is looked up
with, or by the null value when there is none, if the path has no more keys than are followed. On a longer
path, which is looked up in vain, it is decided by the value at the shorter path of the keys that are
followed. -/
theorem holds_equals_of_arrayFree {document : Json} (h : document.ArrayFree) {path : String} (hpath : path ≠ "")
    (operand : Json) :
    ((segments path).length ≤ maxDepth →
      (equals path operand).holds document = ((lookup document path).getD .null).equalsOperand operand) ∧
    (maxDepth < (segments path).length →
      lookup document path = none ∧
      ∃ shorter : String, segments shorter = (segments path).take maxDepth ∧
        (equals path operand).holds document = ((lookup document shorter).getD .null).equalsOperand operand) := by
  have hholds : (equals path operand).holds document =
      ((descend document ((segments path).take maxDepth)).getD .null).equalsOperand operand := by
    rw [holds, someEqual, candidates_of_arrayFree h, List.any_cons, List.any_nil, Bool.or_false]
  constructor
  · intro hdepth
    rw [hholds, lookup_eq_descend hpath hdepth, List.take_of_length_le hdepth]
  · intro hdepth
    obtain ⟨shorter, hshorter, hsegments⟩ := exists_segments_eq_take hdepth
    have hfollowed : (segments shorter).length ≤ maxDepth := hsegments ▸ List.length_take_le _ _
    refine ⟨lookup_eq_none hdepth document, shorter, hsegments, ?_⟩
    rw [hholds, lookup_eq_descend hshorter hfollowed, hsegments]

/-- The city of an address is found by both walks, and so is its missing street. -/
theorem equalities_on_address :
    let document : Json := .single "address" (.single "city" (.text "London"))
    (equals "address.city" (.text "London")).holds document = true ∧
      (equals "address.street" .null).holds document = true := by
  intro document
  have hfree : document.ArrayFree := ⟨⟨trivial, trivial⟩, trivial⟩
  have hcity := (holds_equals_of_arrayFree hfree (by decide : "address.city" ≠ "") (.text "London")).1 (by decide)
  have hstreet := (holds_equals_of_arrayFree hfree (by decide : "address.street" ≠ "") .null).1 (by decide)
  exact ⟨hcity.trans (by decide), hstreet.trans (by decide)⟩

/-- Behind as many keys as are followed, a further key of a path is not missed: the condition holds because of
the value in front of it, while nothing is found by looking the path up. -/
theorem equality_decided_by_shorter_path :
    let document := nest (List.replicate maxDepth "k") (.text "deep")
    let path := ".".intercalate (List.replicate (maxDepth + 1) "k")
    document.ArrayFree ∧ path ≠ "" ∧ lookup document path = none ∧
      (equals path (.text "deep")).holds document = true ∧ Json.null.equalsOperand (.text "deep") = false := by
  intro document path
  have htext : (Json.text "deep").ArrayFree := trivial
  have hfree : document.ArrayFree := htext.nest _
  have hsegments : segments path = List.replicate (maxDepth + 1) "k" := by
    refine segments_intercalate (List.cons_ne_nil _ _) fun key hkey => ?_
    rw [List.eq_of_mem_replicate hkey]
    decide
  have hdepth : maxDepth < (segments path).length := by
    rw [hsegments]
    decide
  have htake : (segments path).take maxDepth = List.replicate maxDepth "k" := by
    rw [hsegments]
    decide
  have hholds : (equals path (.text "deep")).holds document = true := by
    rw [holds, someEqual, candidates_of_arrayFree hfree, htake, descend_nest]
    decide
  exact ⟨hfree, by decide, lookup_eq_none hdepth document, hholds, by decide⟩

end Filter

end Listing
