import Listing.Proofs.Paths

/-!
# The values that a path leads to

The walk that finds the candidates of a path takes keys off the path and opens the arrays before each of them. In
an array it goes on from each element, and in any other value from a field of it. Where no array stands on the way
it comes to the value that the path is looked up as.
-/

namespace Listing.Path

/-- Opening all elements is opening each in turn. -/
theorem openedAll_eq_flatMap (elements : List Json) : openedAll elements = elements.flatMap opened := by
  induction elements with
  | nil => rfl
  | cons element rest ih => rw [openedAll, ih, List.flatMap_cons]

/-- In an array a key leads on from each element. -/
theorem reach_array (key : String) (keys : List String) (elements : List Json) :
    reach (key :: keys) (.array elements) = elements.flatMap (reach (key :: keys)) := by
  rw [reach, opened, openedAll_eq_flatMap, List.flatMap_assoc]
  rfl

/-- In a value that is not opened a key leads on from its field. -/
theorem reach_of_opened {value : Json} (h : opened value = [value]) (key : String) (keys : List String) :
    reach (key :: keys) value = ((value.field? key).map (reach keys)).getD [] := by
  rw [reach, h, List.flatMap_singleton]
  cases value.field? key <;> rfl

/-- A key of a value that has a field under it leads on from this field. -/
theorem reach_of_field? {value next : Json} {key : String} (h : value.field? key = some next) (keys : List String) :
    reach (key :: keys) value = reach keys next := by
  have hopened : opened value = [value] := by
    rw [Json.eq_object_of_field? h]
    rfl
  rw [reach_of_opened hopened, h, Option.map_some, Option.getD_some]

/-- Keys that descend to a value lead to it and to its elements. -/
theorem reach_of_descend {keys : List String} {value found : Json} (h : descend value keys = some found) :
    reach keys value = found :: found.elements := by
  induction keys generalizing value with
  | nil =>
    obtain rfl := Option.some.inj h
    rfl
  | cons key keys ih =>
    obtain ⟨next, hfield, hnext⟩ := Option.bind_eq_some_iff.mp h
    rw [reach_of_field? hfield, ih hnext]

/-- A value that a path is looked up as is tested by the conditions on the path, with its elements. -/
theorem candidates_of_lookup {document value : Json} {path : String} (h : lookup document path = some value) :
    candidates document path = value :: value.elements := by
  have hdepth : (segments path).length ≤ maxDepth := by
    refine Nat.le_of_not_lt fun hlt => ?_
    rw [lookup_eq_none hlt] at h
    contradiction
  rw [candidates, List.take_of_length_le hdepth, reach_of_descend (descend_of_lookup h)]

/-- A test that the null value fails is passed by a candidate exactly when a value that is reached passes it. -/
theorem any_candidates {test : Json → Bool} (hnull : test .null = false) (document : Json) (path : String) :
    (candidates document path).any test = (reach ((segments path).take maxDepth) document).any test := by
  unfold candidates
  split
  · next hnone => simp [hnone, hnull]
  · rfl

end Listing.Path
