import Listing.Path
import Listing.Proofs.Pieces
import Mathlib.Data.List.Basic
import Mathlib.Logic.Function.Basic

/-!
# How paths are written

A path is written as its keys with points between them. No key has a point in it, and keys without
points are read back from the path that is made of them, so a path is the same as its keys. A value can
be put at the end of any keys, where it is found again.
-/

namespace Listing

/-- A value that has a field is an object. -/
theorem Json.eq_object_of_field? {value inner : Json} {key : String} (h : value.field? key = some inner) :
    value = .object value.fields := by
  cases value with
  | object fields => rfl
  | _ => contradiction

namespace Path

/-- The characters of the keys of a path are the pieces between its points. -/
theorem map_toList_segments (path : String) : (segments path).map String.toList = path.toList.splitOn '.' := by
  rw [segments, Text.split, Text.splitBy, List.map_map]
  exact (List.map_congr_left fun piece _ => String.toList_ofList).trans (List.map_id _)

/-- A path has keys. -/
theorem segments_ne_nil (path : String) : segments path ≠ [] := Text.split_ne_nil '.' path

/-- No key of a path has a point in it. -/
theorem not_mem_of_mem_segments {path key : String} (h : key ∈ segments path) : '.' ∉ key.toList :=
  Text.not_mem_of_mem_split h

/-- A path is made of its keys. -/
theorem intercalate_segments (path : String) : ".".intercalate (segments path) = path := by
  rw [← String.toList_inj, String.toList_intercalate, map_toList_segments]
  exact List.intercalate_splitOn '.'

/-- Keys without points in them are those of the path that is made of them. -/
theorem segments_intercalate {keys : List String} (hkeys : keys ≠ []) (hpoints : ∀ key ∈ keys, '.' ∉ key.toList) :
    segments (".".intercalate keys) = keys :=
  Text.split_intercalate '.' hkeys hpoints

/-- A key without points is a path of its own. -/
theorem segments_of_not_mem {key : String} (h : '.' ∉ key.toList) : segments key = [key] := Text.split_of_not_mem h

/-- Two keys without points are those of the path with a point between them. -/
theorem segments_append_point {key inner : String} (hkey : '.' ∉ key.toList) (hinner : '.' ∉ inner.toList) :
    segments (key ++ "." ++ inner) = [key, inner] := by
  have hpoint : "." = String.singleton '.' := rfl
  rw [segments, hpoint, Text.split_append, Text.split_of_not_mem hkey, Text.split_of_not_mem hinner,
    List.singleton_append]

/-- Different paths have different keys. -/
theorem segments_injective : Function.Injective segments := by
  intro path other h
  rw [← intercalate_segments path, h, intercalate_segments]

/-- A path with at most as many keys as are followed is looked up by descending along them. -/
theorem lookup_eq_descend {path : String} (hpath : path ≠ "") (hdepth : (segments path).length ≤ maxDepth)
    (document : Json) : lookup document path = descend document (segments path) := by
  rw [lookup, if_neg (by rw [not_or, Nat.not_lt]; exact ⟨hpath, hdepth⟩)]

/-- A path with more keys than are followed names nothing. -/
theorem lookup_eq_none {path : String} (hdepth : maxDepth < (segments path).length) (document : Json) :
    lookup document path = none := by
  rw [lookup, if_pos (.inr hdepth)]

/-- Nothing is found along a path that is not followed. -/
theorem lookup_eq_none_of_not_followed {path : String} (h : ¬ (path ≠ "" ∧ (segments path).length ≤ maxDepth))
    (document : Json) : lookup document path = none := by
  rw [ne_eq, ← Nat.not_lt, ← not_or, not_not] at h
  rw [lookup, if_pos h]

/-- A key without points is looked up as a field of the document. -/
theorem lookup_of_not_mem {key : String} (hkey : key ≠ "") (h : '.' ∉ key.toList) (document : Json) :
    lookup document key = document.field? key := by
  rw [lookup_eq_descend hkey (by simp [segments_of_not_mem h, maxDepth]), segments_of_not_mem h, descend]
  cases document.field? key <;> rfl

/-- Keys lead on from an object only. -/
theorem eq_object_of_descend_cons {value found : Json} {key : String} {keys : List String}
    (h : descend value (key :: keys) = some found) : value = .object value.fields := by
  obtain ⟨inner, hfield, -⟩ := Option.bind_eq_some_iff.mp h
  exact Json.eq_object_of_field? hfield

/-- What a path is looked up as is found by descending along its keys. -/
theorem descend_of_lookup {document value : Json} {path : String} (h : lookup document path = some value) :
    descend document (segments path) = some value := by
  rw [lookup] at h
  split at h
  · contradiction
  · exact h

/-- A document with a value at the end of some keys and nothing else. -/
def nest (keys : List String) (value : Json) : Json := keys.foldr Json.single value

/-- The first key of a nested value leads to the rest. -/
theorem descend_nest_cons (key : String) (keys : List String) (value : Json) (rest : List String) :
    descend (nest (key :: keys) value) (key :: rest) = descend (nest keys value) rest := by
  have hfield : (nest (key :: keys) value).field? key = some (nest keys value) := by
    rw [nest, List.foldr_cons, Json.single, Json.field?, Json.fields, Keyed.get?_cons, if_pos rfl]
    rfl
  rw [descend, hfield, Option.bind_some]

/-- A nested value is found at the end of its keys. -/
theorem descend_nest (keys : List String) (value : Json) : descend (nest keys value) keys = some value := by
  induction keys with
  | nil => rfl
  | cons key keys ih => rw [descend_nest_cons, ih]

end Path

end Listing
