import Listing.Proofs.LastPerKey
import Listing.Proofs.Paths
import Listing.Sort

/-!
# What a sort document says

A sort is handed to a store as a document with the number of a direction under each field, and such a store
orders documents along the entries as the sort does along its keys. The document has one entry for each field,
in the place of the first key for the field but with the direction of the last one. The sort itself goes by the
first key, which decides before any later key for the same field is asked. So the two orders are the same
exactly when the first and the last key have the same direction, for every field that a document can have.
-/

namespace Listing

open Listing.Path

namespace SortKey

/-- A key ties documents whose values at its path tie, whatever its direction. -/
theorem compare_eq_eq_iff {key : SortKey} {a b : Json} :
    key.compare a b = .eq ↔ Json.sortOptions (lookup a key.field) (lookup b key.field) = .eq := by
  rw [SortKey.compare]
  cases key.direction with
  | ascending => rfl
  | descending => exact Ordering.swap_eq_eq

end SortKey

namespace SortKeys

/-- How a number of a sort document orders two values that may be missing: 1 puts smaller values first and -1
greater ones. -/
def compareByNumber (number : Json) (a b : Option Json) : Ordering :=
  match number with
  | .number (.natural ⟨1, _⟩) => Json.sortOptions a b
  | .number (.negative ⟨0, _⟩) => (Json.sortOptions a b).swap
  | _ => .eq

/-- How a sort document orders two documents: by the first of its entries that tells them apart. -/
def compareAlong : List (String × Json) → Json → Json → Ordering
  | [], _, _ => .eq
  | (field, number) :: rest, a, b =>
    (compareByNumber number (lookup a field) (lookup b field)).then (compareAlong rest a b)

/-- The entries for some keys order documents as the keys do. -/
theorem compareAlong_entries (keys : SortKeys) (a b : Json) :
    compareAlong (keys.map fun key => (key.field, directionNumber key.direction)) a b = compare keys a b := by
  induction keys with
  | nil => rfl
  | cons key keys ih =>
    have hfirst : compareByNumber (directionNumber key.direction) (lookup a key.field) (lookup b key.field) =
        key.compare a b := by
      rw [SortKey.compare]
      cases key.direction <;> rfl
    rw [List.map_cons, compareAlong, hfirst, ih, compare]

/-- The keys in front are asked first. -/
theorem compare_append (keys more : SortKeys) (a b : Json) :
    compare (keys ++ more) a b = (compare keys a b).then (compare more a b) := by
  induction keys with
  | nil => rfl
  | cons key keys ih => rw [List.cons_append, compare, ih, compare, Ordering.then_assoc]

/-- Documents tie when no key tells them apart. -/
theorem compare_eq_eq_iff {keys : SortKeys} {a b : Json} :
    compare keys a b = .eq ↔ ∀ key ∈ keys, key.compare a b = .eq := by
  induction keys with
  | nil => exact ⟨fun _ _ h => absurd h List.not_mem_nil, fun _ => rfl⟩
  | cons key keys ih => rw [compare, Ordering.then_eq_eq, ih, List.forall_mem_cons]

/-- The directions of the keys, each under its field. -/
def directions (keys : SortKeys) : List (String × Direction) := keys.map fun key => (key.field, key.direction)

/-- The fields are those of the keys. -/
theorem keys_directions (keys : SortKeys) : Keyed.keys (directions keys) = keys.map SortKey.field :=
  List.map_map

/-- The directions of the keys in front come first. -/
theorem directions_append (keys more : SortKeys) : directions (keys ++ more) = directions keys ++ directions more :=
  List.map_append

/-- A sort goes by the first key for every field: later ones are asked only about documents that it ties. -/
theorem compare_eq_compare_eraseDups (keys : SortKeys) {direction : String → Direction} {a b : Json}
    (hfirst : ∀ field first, Keyed.get? (directions keys) field = some first →
      (SortKey.mk field first).compare a b = (SortKey.mk field (direction field)).compare a b) :
    compare keys a b =
      compare ((keys.map SortKey.field).eraseDups.map fun field => ⟨field, direction field⟩) a b := by
  induction keys using List.reverseRecOn with
  | nil => rfl
  | append_singleton keys key ih =>
    have hget (field : String) : Keyed.get? (directions (keys ++ [key])) field =
        (Keyed.get? (directions keys) field).or (if key.field = field then some key.direction else none) := by
      rw [directions_append, Keyed.get?, List.lookup_append]
      exact congrArg _ (Keyed.get?_cons key.field key.direction [] field)
    have hkeys := ih fun field first h => hfirst field first (by rw [hget, h, Option.some_or])
    rw [compare_append, List.map_append, List.map_singleton, Keyed.eraseDups_append_singleton]
    by_cases hmem : key.field ∈ keys.map SortKey.field
    · rw [if_pos hmem, ← hkeys]
      cases hcompare : compare keys a b with
      | eq =>
        -- documents that the keys so far tie are tied by a further key for one of their fields
        obtain ⟨other, hother, hfield⟩ := List.mem_map.mp hmem
        have htie := SortKey.compare_eq_eq_iff.mp (compare_eq_eq_iff.mp hcompare other hother)
        rw [hfield] at htie
        exact compare_eq_eq_iff.mpr (List.forall_mem_singleton.mpr (SortKey.compare_eq_eq_iff.mpr htie))
      | _ => rfl
    · have hnone : Keyed.get? (directions keys) key.field = none :=
        Keyed.get?_eq_none_iff.mpr (by rwa [keys_directions])
      have hkey := hfirst key.field key.direction (by rw [hget, hnone, if_pos rfl, Option.none_or])
      rw [if_neg hmem, List.map_append, compare_append, ← hkeys]
      exact congrArg _ (congrArg₂ _ hkey rfl)

/-- The direction of the last key for a field. -/
def lastDirection (keys : SortKeys) (field : String) : Direction :=
  (Keyed.last? (directions keys) field).getD .ascending

/-- A sort document has an entry for every field in the place of its first key, with its last direction. -/
theorem fields_document (keys : SortKeys) :
    (document keys).fields =
      (keys.map SortKey.field).eraseDups.map fun field => (field, directionNumber (lastDirection keys field)) := by
  have hentries : keys.map (fun key => (key.field, directionNumber key.direction)) =
      (directions keys).map fun entry => (entry.1, directionNumber entry.2) := by
    rw [directions, List.map_map]
    rfl
  have hkeys : Keyed.keys (keys.map fun key => (key.field, directionNumber key.direction)) =
      keys.map SortKey.field := List.map_map
  rw [← hkeys]
  refine Keyed.ofList_eq_map fun field hfield => ?_
  obtain ⟨direction, hlast⟩ := Keyed.exists_last?_of_mem ((hkeys.trans (keys_directions keys).symm) ▸ hfield)
  rw [hentries, Keyed.last?_map (directions keys) fun _ => directionNumber, lastDirection, hlast]
  rfl

/-- Such a document orders as the keys would in the places of the first keys, with the last directions. -/
theorem compareAlong_document (keys : SortKeys) (a b : Json) :
    compareAlong (document keys).fields a b =
      compare ((keys.map SortKey.field).eraseDups.map fun field => ⟨field, lastDirection keys field⟩) a b := by
  rw [fields_document, ← compareAlong_entries, List.map_map]
  rfl

/-- The keys, each with the direction of the last one for its field. -/
def withLastDirections (keys : SortKeys) : SortKeys :=
  keys.map fun key => ⟨key.field, lastDirection keys key.field⟩

/-- Then the first direction of a field is its last one. -/
theorem get?_directions_withLastDirections (keys : SortKeys) (field : String) :
    Keyed.get? (directions (withLastDirections keys)) field = Keyed.last? (directions keys) field := by
  have hmap : directions (withLastDirections keys) =
      (directions keys).map fun entry => (entry.1, lastDirection keys entry.1) := by
    rw [directions, withLastDirections, List.map_map, directions, List.map_map]
    rfl
  rw [hmap, Keyed.get?_map (directions keys) fun field _ => lastDirection keys field]
  cases hlast : Keyed.last? (directions keys) field with
  | none => rw [Keyed.get?_eq_none_iff.mpr (Keyed.last?_eq_none_iff.mp hlast), Option.map_none]
  | some last =>
    obtain ⟨first, hfirst⟩ := Option.ne_none_iff_exists'.mp fun hnone =>
      Keyed.get?_eq_none_iff.mp hnone (List.mem_map_of_mem (Keyed.mem_of_last? hlast))
    rw [hfirst, Option.map_some, lastDirection, hlast, Option.getD_some]

/-- A sort document orders as its keys do with the last directions of their fields. -/
theorem compareAlong_document_eq_withLastDirections (keys : SortKeys) (a b : Json) :
    compareAlong (document keys).fields a b = compare (withLastDirections keys) a b := by
  have hfields : (withLastDirections keys).map SortKey.field = keys.map SortKey.field := by
    rw [withLastDirections, List.map_map]
    rfl
  rw [compareAlong_document, compare_eq_compare_eraseDups (withLastDirections keys), hfields]
  intro field first hget
  rw [get?_directions_withLastDirections] at hget
  rw [lastDirection, hget, Option.getD_some]

/-- Where the documents tie for all other fields, they are ordered by the first key for a field that tells them
apart. -/
theorem compare_eq_of_only {keys : SortKeys} {field : String} {direction : Direction} {a b : Json}
    (hget : Keyed.get? (directions keys) field = some direction)
    (hapart : Json.sortOptions (lookup a field) (lookup b field) ≠ .eq)
    (htie : ∀ other ≠ field, Json.sortOptions (lookup a other) (lookup b other) = .eq) :
    compare keys a b = (SortKey.mk field direction).compare a b := by
  induction keys with
  | nil => contradiction
  | cons key keys ih =>
    have hdirections : Keyed.get? (directions (key :: keys)) field =
        if key.field = field then some key.direction else Keyed.get? (directions keys) field :=
      Keyed.get?_cons key.field key.direction (directions keys) field
    rw [hdirections] at hget
    rw [compare]
    by_cases heq : key.field = field
    · rw [if_pos heq] at hget
      obtain ⟨keyField, keyDirection⟩ := key
      obtain rfl : keyField = field := heq
      obtain rfl : keyDirection = direction := Option.some.inj hget
      cases hcompare : (SortKey.mk keyField keyDirection).compare a b with
      | eq => exact absurd (SortKey.compare_eq_eq_iff.mp hcompare) hapart
      | _ => rfl
    · rw [if_neg heq] at hget
      rw [SortKey.compare_eq_eq_iff.mpr (htie key.field heq)]
      exact ih hget

end SortKeys

namespace Path

/-- Nested values without fields are told apart at the end of their own keys only. -/
theorem sortOptions_descend_nest {u v : Json} (hu : u.fields = []) (hv : v.fields = []) {keys others : List String}
    (h : others ≠ keys) : Json.sortOptions (descend (nest keys u) others) (descend (nest keys v) others) = .eq := by
  induction keys generalizing others with
  | nil =>
    obtain ⟨other, rest, rfl⟩ := List.exists_cons_of_ne_nil h
    have hnone {value : Json} (hvalue : value.fields = []) : descend value (other :: rest) = none := by
      rw [descend, Json.field?, hvalue]
      rfl
    rw [nest, nest, List.foldr_nil, List.foldr_nil, hnone hu, hnone hv]
    rfl
  | cons key keys ih =>
    cases others with
    | nil => rfl
    | cons other rest =>
      by_cases heq : other = key
      · subst heq
        rw [descend_nest_cons, descend_nest_cons]
        exact ih fun hrest => h (congrArg _ hrest)
      · have hfield (value : Json) : (nest (key :: keys) value).field? other = none :=
          (Keyed.get?_cons key (nest keys value) [] other).trans (if_neg (Ne.symm heq))
        rw [descend, descend, hfield, hfield]
        rfl

/-- At every path that can lead to something there are documents that tie everywhere else. -/
theorem exists_apart_only {field : String} (hfield : field ≠ "") (hdepth : (segments field).length ≤ maxDepth) :
    ∃ a b, Json.sortOptions (lookup a field) (lookup b field) = .lt ∧
      ∀ other ≠ field, Json.sortOptions (lookup a other) (lookup b other) = .eq := by
  refine ⟨nest (segments field) .null, nest (segments field) (.bool true), ?_, fun other hother => ?_⟩
  · rw [lookup_eq_descend hfield hdepth, lookup_eq_descend hfield hdepth, descend_nest, descend_nest]
    rfl
  · rw [lookup, lookup]
    split
    · rfl
    · exact sortOptions_descend_nest rfl rfl fun heq => hother (segments_injective heq)

end Path

namespace SortKeys

/-- A sort orders as its document does when no field that documents can have is given a first direction that
differs from the last one. -/
theorem compareAlong_document_eq_compare {keys : SortKeys}
    (h : ∀ field, field ≠ "" → (segments field).length ≤ maxDepth →
      Keyed.get? (directions keys) field = Keyed.last? (directions keys) field) (a b : Json) :
    compareAlong (document keys).fields a b = compare keys a b := by
  rw [compareAlong_document]
  refine (compare_eq_compare_eraseDups keys fun field first hget => ?_).symm
  by_cases hfollowed : field ≠ "" ∧ (segments field).length ≤ maxDepth
  · have hlast : lastDirection keys field = first := by
      rw [lastDirection, ← h field hfollowed.1 hfollowed.2, hget, Option.getD_some]
    rw [hlast]
  · -- no document has anything at such a path
    have hnone := lookup_eq_none_of_not_followed hfollowed
    have htie (direction : Direction) : (SortKey.mk field direction).compare a b = .eq :=
      SortKey.compare_eq_eq_iff.mpr (by rw [hnone, hnone]; rfl)
    rw [htie, htie]

/-- Where a sort orders as its document does, documents that tie except at a path show that the first direction of
its field is the last one. -/
theorem get?_directions_eq_last? {keys : SortKeys}
    (h : ∀ a b, compareAlong (document keys).fields a b = compare keys a b) {field : String} (hfield : field ≠ "")
    (hdepth : (segments field).length ≤ maxDepth) :
    Keyed.get? (directions keys) field = Keyed.last? (directions keys) field := by
  cases hget : Keyed.get? (directions keys) field with
  | none => exact (Keyed.last?_eq_none_iff.mpr (Keyed.get?_eq_none_iff.mp hget)).symm
  | some first =>
    obtain ⟨last, hlast⟩ := Keyed.exists_last?_of_mem (List.mem_map_of_mem (Keyed.mem_of_get? hget))
    obtain ⟨a, b, hless, htie⟩ := exists_apart_only hfield hdepth
    have hapart : Json.sortOptions (lookup a field) (lookup b field) ≠ .eq := by
      rw [hless]
      exact Ordering.noConfusion
    have hcompare : (SortKey.mk field first).compare a b = (SortKey.mk field last).compare a b := by
      rw [← compare_eq_of_only hget hapart htie, ← h, compareAlong_document_eq_withLastDirections]
      exact compare_eq_of_only ((get?_directions_withLastDirections keys field).trans hlast) hapart htie
    rw [hlast]
    rw [SortKey.compare, SortKey.compare, hless] at hcompare
    cases first <;> cases last
    case ascending.descending | descending.ascending => contradiction
    all_goals rfl

/-- A sort document orders documents as its sort does with the last direction of every field. So it orders them as
the sort itself does exactly when the first direction is the last one for every field that a document can have,
and in particular when no field repeats. -/
theorem sort_document_orders_by_last_directions (keys : SortKeys) :
    (∀ a b, compareAlong (document keys).fields a b = compare (withLastDirections keys) a b) ∧
    ((∀ a b, compareAlong (document keys).fields a b = compare keys a b) ↔
      ∀ field, field ≠ "" → (segments field).length ≤ maxDepth →
        Keyed.get? (directions keys) field = Keyed.last? (directions keys) field) ∧
    ((keys.map SortKey.field).Nodup → ∀ a b, compareAlong (document keys).fields a b = compare keys a b) := by
  refine ⟨compareAlong_document_eq_withLastDirections keys, ?_, fun hnodup => ?_⟩
  · constructor
    · exact fun h field => get?_directions_eq_last? h
    · exact compareAlong_document_eq_compare
  · exact compareAlong_document_eq_compare fun field _ _ =>
      (Keyed.last?_eq_get? ((keys_directions keys).symm ▸ hnodup) field).symm

/-- The document of a sort by name and age orders every two documents as the sort does. -/
theorem sort_document_of_name_and_age :
    ∃ keys, parse? "name -age" = some keys ∧ ∀ a b, compareAlong (document keys).fields a b = compare keys a b :=
  ⟨[⟨"name", .ascending⟩, ⟨"age", .descending⟩], by decide,
    (sort_document_orders_by_last_directions _).2.2 (by decide)⟩

/-- The document of a sort by name that repeats the name in the other direction orders names the other way round. -/
theorem sort_document_reverses_repeated_field :
    let keys : SortKeys := [⟨"name", .ascending⟩, ⟨"name", .descending⟩]
    let ann : Json := .single "name" (.text "Ann")
    let bob : Json := .single "name" (.text "Bob")
    parse? "name -name" = some keys ∧ (document keys).fields = [("name", directionNumber .descending)] ∧
      compare keys ann bob = .lt ∧ compareAlong (document keys).fields ann bob = .gt := by
  intro keys ann bob
  exact ⟨by decide, rfl, by decide, by decide⟩

end SortKeys

end Listing
