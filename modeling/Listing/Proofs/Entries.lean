import Listing.Proofs.Keys
import Listing.Query

/-!
# The entries of a request

A pair of a request that filters is an entry on a field in one of five categories: the plain equalities
and the four bracket groups. Its key says which category and which field, so different keys never go to
the same field of one category, and the entries of a category are the last values of its fields.
-/

namespace Listing

/-- The categories of entries that filter. -/
inductive Category where
  /-- Plain equalities. -/
  | equality
  /-- The entries of a bracket group. -/
  | list (group : ListGroup)
  deriving DecidableEq, Repr

namespace Category

/-- Where an entry on a field goes. -/
def destination : Category → String → Destination
  | equality, field => .equality field
  | list group, field => .group group field

/-- The field and the value of a pair that is an entry of the category. -/
def entryOf? (category : Category) (pair : Pair) : Option (String × String) :=
  match (Destination.ofKey pair.1).field? with
  | some field => if Destination.ofKey pair.1 = category.destination field then some (field, pair.2) else none
  | none => none

/-- The fields of the entries of a request in order, each with its last value. -/
def entries (category : Category) (pairs : List Pair) : Keyed String :=
  Keyed.sortedOfList (pairs.filterMap category.entryOf?)

/-- The filter that an entry stands for. -/
def filterOf : Category → String × String → Except Failure Filter
  | equality, entry => .ok (.equals entry.1 (.text entry.2))
  | list .inList, entry => .ok (.membership entry.1 .isIn (commaOperands entry.2))
  | list .notInList, entry => .ok (.membership entry.1 .notIn (commaOperands entry.2))
  | list .elementIn, entry => Filter.elementCondition .isIn entry
  | list .elementNotIn, entry => Filter.elementCondition .notIn entry

variable {category : Category} {pairs : List Pair} {field : String}

/-- An entry has a field of its own in one category only. -/
theorem destination_inj {other : Category} {field' : String}
    (h : category.destination field = other.destination field') : category = other ∧ field = field' := by
  cases category <;> cases other <;> simp_all [destination]

/-- An entry goes to its field. -/
theorem field?_destination (category : Category) (field : String) :
    (category.destination field).field? = some field := by
  cases category <;> rfl

/-- A pair is an entry when its key goes to a field in the category. -/
theorem entryOf?_eq_some_iff {pair : Pair} {value : String} :
    category.entryOf? pair = some (field, value) ↔
      Destination.ofKey pair.1 = category.destination field ∧ pair.2 = value := by
  rw [entryOf?]
  constructor
  · intro h
    split at h
    · next found hfound =>
      split at h
      · next hkey =>
        obtain ⟨rfl, rfl⟩ := Prod.mk.inj (Option.some.inj h)
        exact ⟨hkey, rfl⟩
      · contradiction
    · contradiction
  · rintro ⟨hkey, rfl⟩
    rw [hkey, field?_destination]
    exact if_pos rfl

/-- Distinct keys of one category have distinct fields. -/
theorem nodup_keys_entryOf? (hdistinct : (pairs.map Prod.fst).Nodup) :
    (Keyed.keys (pairs.filterMap category.entryOf?)).Nodup := by
  rw [Keyed.keys, List.Nodup, List.pairwise_map]
  rw [List.Nodup, List.pairwise_map] at hdistinct
  refine hdistinct.filterMap category.entryOf? ?_
  rintro pair other hne ⟨field, value⟩ hentry ⟨field', value'⟩ hother rfl
  obtain ⟨hkey, -⟩ := entryOf?_eq_some_iff.mp hentry
  obtain ⟨hkey', -⟩ := entryOf?_eq_some_iff.mp hother
  exact hne (Destination.ofKey_injective (hkey.trans hkey'.symm))

/-- Entries with distinct keys are all kept. -/
theorem mem_entries (hdistinct : (pairs.map Prod.fst).Nodup) {value : String} :
    (field, value) ∈ category.entries pairs ↔
      ∃ pair ∈ pairs, Destination.ofKey pair.1 = category.destination field ∧ pair.2 = value := by
  rw [entries, Keyed.mem_sortedOfList (nodup_keys_entryOf? hdistinct), List.mem_filterMap]
  exact exists_congr fun pair => and_congr_right fun _ => entryOf?_eq_some_iff

/-- The entries of plain equalities are those of the query. -/
theorem entries_equality (pairs : List Pair) : entries equality pairs = Query.equalityOf pairs := by
  rw [entries, Query.equalityOf]
  congr 2
  funext pair
  rw [entryOf?]
  cases Destination.ofKey pair.1 <;> simp [Destination.field?, destination]

/-- The entries of a bracket group are those of the query. -/
theorem entries_list (group : ListGroup) (pairs : List Pair) :
    entries (list group) pairs = Query.groupOf pairs group := by
  rw [entries, Query.groupOf]
  congr 2
  funext pair
  rw [entryOf?]
  cases Destination.ofKey pair.1 <;> simp [Destination.field?, destination]

/-- The fields of the entries are those of the pairs that go there. -/
theorem mem_keys_entries :
    field ∈ Keyed.keys (category.entries pairs) ↔
      ∃ pair ∈ pairs, Destination.ofKey pair.1 = category.destination field := by
  rw [entries, Keyed.mem_keys_sortedOfList, Keyed.keys, List.mem_map]
  constructor
  · rintro ⟨⟨field, value⟩, hentry, rfl⟩
    obtain ⟨pair, hpair, hentry⟩ := List.mem_filterMap.mp hentry
    exact ⟨pair, hpair, (entryOf?_eq_some_iff.mp hentry).1⟩
  · rintro ⟨pair, hpair, hkey⟩
    exact ⟨(field, pair.2), List.mem_filterMap.mpr ⟨pair, hpair, entryOf?_eq_some_iff.mpr ⟨hkey, rfl⟩⟩, rfl⟩

/-- A pair that is no entry of a category leaves its entries as they are. -/
theorem entries_insert_of_none {before after : List Pair} {pair : Pair} (h : category.entryOf? pair = none) :
    category.entries (before ++ pair :: after) = category.entries (before ++ after) := by
  unfold entries
  rw [List.filterMap_append, List.filterMap_append, List.filterMap_cons_none h]

/-- A pair with a new field is put among the entries of its category. -/
theorem entries_insert {before after : List Pair} {key : String} (hkey : Destination.ofKey key = category.destination field)
    (hnew : field ∉ Keyed.keys (category.entries (before ++ after))) (value : String) :
    category.entries (before ++ (key, value) :: after) =
      Keyed.insertSorted (category.entries (before ++ after)) field value := by
  have hentry : category.entryOf? (key, value) = some (field, value) := entryOf?_eq_some_iff.mpr ⟨hkey, rfl⟩
  have hafter : field ∉ Keyed.keys (after.filterMap category.entryOf?) := by
    intro hmem
    apply hnew
    unfold entries
    rw [Keyed.mem_keys_sortedOfList, List.filterMap_append, Keyed.keys_append]
    exact List.mem_append_right _ hmem
  unfold entries
  rw [List.filterMap_append, List.filterMap_append, List.filterMap_cons_some hentry, Keyed.sortedOfList_insert hafter]

end Category

end Listing
