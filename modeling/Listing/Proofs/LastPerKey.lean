import Listing.Keyed
import Mathlib.Data.List.Forall2
import Mathlib.Data.List.Induction
import Mathlib.Data.List.Nodup
import Mathlib.Data.List.Perm.Basic

/-!
# The last value of every key

Inserting entries one after the other keeps one entry for each key, in the order in which the keys
first arrived, with the value that arrived last. The invariant over the entries inserted so far has
two halves, `keys_ofList` for the places and `get?_ofList` for the values, and together they
determine the keyed list.
-/

namespace Listing.Keyed

variable {α : Type u} {β : Type v}

/-- The keys of two sequences of entries are put together. -/
theorem keys_append (entries more : List (String × α)) : keys (entries ++ more) = keys entries ++ keys more :=
  List.map_append

/-- A key has no value exactly when no entry is under it. -/
theorem get?_eq_none_iff {entries : Keyed α} {key : String} : get? entries key = none ↔ key ∉ keys entries := by
  rw [get?, List.lookup_eq_none_iff, keys, List.mem_map]
  constructor
  · intro h hkey
    obtain ⟨entry, hentry, rfl⟩ := hkey
    exact bne_iff_ne.mp (h entry hentry) rfl
  · intro h entry hentry
    exact bne_iff_ne.mpr fun heq => h ⟨entry, hentry, heq.symm⟩

/-- The value under a key is that of an entry. -/
theorem mem_of_get? {entries : Keyed α} {key : String} {value : α} (h : get? entries key = some value) :
    (key, value) ∈ entries := by
  obtain ⟨before, after, hentries, -⟩ := List.lookup_eq_some_iff.mp h
  exact hentries ▸ List.mem_append_right _ List.mem_cons_self

/-- The value under a key, after every value is changed along with its key. -/
theorem get?_map (entries : Keyed α) (f : String → α → β) (key : String) :
    get? (entries.map fun entry => (entry.1, f entry.1 entry.2)) key = (get? entries key).map (f key) := by
  induction entries with
  | nil => rfl
  | cons entry rest ih =>
    obtain ⟨k, v⟩ := entry
    rw [List.map_cons, get?_cons, get?_cons, ih]
    by_cases h : k = key
    · rw [if_pos h, if_pos h, h, Option.map_some]
    · rw [if_neg h, if_neg h]

/-- The value of the last entry under a key. -/
def last? (entries : List (String × α)) (key : String) : Option α := get? entries.reverse key

/-- Later entries come first when the last value of a key is looked for. -/
theorem last?_append (entries more : List (String × α)) (key : String) :
    last? (entries ++ more) key = (last? more key).or (last? entries key) := by
  rw [last?, List.reverse_append]
  exact List.lookup_append

/-- A single entry is the last one under its own key only. -/
theorem last?_singleton (k : String) (value : α) (key : String) :
    last? [(k, value)] key = if k = key then some value else none := by
  rw [last?, List.reverse_singleton, get?_cons, get?_nil]

/-- The first entry is the last one under its key when no later one is. -/
theorem last?_cons (k : String) (value : α) (rest : List (String × α)) (key : String) :
    last? ((k, value) :: rest) key = (last? rest key).or (if k = key then some value else none) := by
  rw [← last?_singleton, ← last?_append]
  rfl

/-- The last value of a key, after every value is changed along with its key. -/
theorem last?_map (entries : List (String × α)) (f : String → α → β) (key : String) :
    last? (entries.map fun entry => (entry.1, f entry.1 entry.2)) key = (last? entries key).map (f key) := by
  rw [last?, ← List.map_reverse, get?_map]
  rfl

/-- A key has no last value exactly when no entry is under it. -/
theorem last?_eq_none_iff {entries : List (String × α)} {key : String} :
    last? entries key = none ↔ key ∉ keys entries := by
  rw [last?, get?_eq_none_iff, keys, keys, List.map_reverse, List.mem_reverse]

/-- Every key of a list of entries has a last value. -/
theorem exists_last?_of_mem {entries : List (String × α)} {key : String} (h : key ∈ keys entries) :
    ∃ value, last? entries key = some value :=
  Option.ne_none_iff_exists'.mp fun hnone => last?_eq_none_iff.mp hnone h

/-- The last value of a key is that of the last of its own entries. -/
theorem last?_eq_getLast?_filter (entries : List (String × α)) (key : String) :
    last? entries key = ((entries.filter fun entry => entry.1 = key).getLast?).map Prod.snd := by
  induction entries using List.reverseRecOn with
  | nil => rfl
  | append_singleton entries entry ih =>
    rw [last?_append, last?_singleton, ih, List.filter_append]
    by_cases h : entry.1 = key <;> simp [h]

/-- An entry in front of no other with its key is the last one under it, and leaves the other keys as they are. -/
theorem last?_insert {before after : List (String × α)} {k : String} (h : k ∉ keys after) (value : α) (key : String) :
    last? (before ++ (k, value) :: after) key = if k = key then some value else last? (before ++ after) key := by
  rw [last?_append, last?_append, last?_cons]
  by_cases hk : k = key
  · subst hk
    simp [last?_eq_none_iff.mpr h]
  · simp [hk]

/-- The last value of a key is that of an entry under it. -/
theorem mem_of_last? {entries : List (String × α)} {key : String} {value : α} (h : last? entries key = some value) :
    (key, value) ∈ entries :=
  List.mem_reverse.mp (mem_of_get? h)

/-- An entry is found under its key when no key repeats. -/
theorem get?_of_mem {entries : Keyed α} (hnodup : (keys entries).Nodup) {key : String} {value : α}
    (hmem : (key, value) ∈ entries) : get? entries key = some value := by
  induction entries with
  | nil => exact absurd hmem List.not_mem_nil
  | cons entry rest ih =>
    obtain ⟨k, v⟩ := entry
    obtain ⟨hfirst, hrest⟩ := List.nodup_cons.mp hnodup
    rw [get?_cons]
    rcases List.mem_cons.mp hmem with heq | hmem
    · obtain ⟨rfl, rfl⟩ := Prod.mk.inj heq
      rw [if_pos rfl]
    · have hne : k ≠ key := by
        intro heq
        subst heq
        exact hfirst (List.mem_map.mpr ⟨_, hmem, rfl⟩)
      rw [if_neg hne, ih hrest hmem]

/-- Where no key repeats, the entries are those that are found. -/
theorem get?_eq_some_iff {entries : Keyed α} (hnodup : (keys entries).Nodup) {key : String} {value : α} :
    get? entries key = some value ↔ (key, value) ∈ entries :=
  ⟨mem_of_get?, get?_of_mem hnodup⟩

/-- Where no key repeats, the first entry under a key is the last one. -/
theorem last?_eq_get? {entries : Keyed α} (hnodup : (keys entries).Nodup) (key : String) :
    last? entries key = get? entries key := by
  cases hlast : last? entries key with
  | none =>
    exact (get?_eq_none_iff.mpr (last?_eq_none_iff.mp hlast)).symm
  | some value => exact (get?_of_mem hnodup (mem_of_last? hlast)).symm

/-- Keyed lists without repeated keys are equal when they have the same keys in the same order and
the same value under each. -/
theorem eq_of_keys_of_get? {entries others : Keyed α} (hnodup : (keys entries).Nodup)
    (hkeys : keys entries = keys others) (hget : ∀ key, get? entries key = get? others key) :
    entries = others := by
  induction entries generalizing others with
  | nil => exact (List.map_eq_nil_iff.mp hkeys.symm).symm
  | cons entry rest ih =>
    obtain ⟨k, v⟩ := entry
    obtain _ | ⟨⟨k', v'⟩, rest'⟩ := others
    · exact absurd hkeys (List.cons_ne_nil _ _)
    obtain ⟨rfl, hrest⟩ := List.cons.inj hkeys
    obtain ⟨hfirst, hnodup⟩ := List.nodup_cons.mp hnodup
    have hvalue : v = v' := by simpa [get?_cons] using hget k
    subst hvalue
    congr 1
    refine ih hnodup hrest fun key => ?_
    by_cases heq : k = key
    · -- neither rest has an entry under the first key
      subst heq
      have hfirst' : k ∉ keys rest' := fun h => hfirst ((congrArg (k ∈ ·) hrest).mpr h)
      rw [get?_eq_none_iff.mpr hfirst, get?_eq_none_iff.mpr hfirst']
    · simpa only [get?_cons, if_neg heq] using hget key

/-- Inserting a further entry is the step from the entries so far to all of them. -/
theorem ofList_append_singleton (entries : List (String × α)) (key : String) (value : α) :
    ofList (entries ++ [(key, value)]) = insert (ofList entries) key value := by
  rw [ofList, insertAll, List.foldl_append]
  rfl

/-- An entry with a new key is put at the end. -/
theorem insert_of_not_mem_keys {entries : Keyed α} {key : String} (h : key ∉ keys entries) (value : α) :
    insert entries key value = entries ++ [(key, value)] := by
  induction entries with
  | nil => rfl
  | cons entry rest ih =>
    have hne : entry.1 ≠ key := fun heq => h (heq ▸ List.mem_cons_self)
    have hrest : key ∉ keys rest := fun hmem => h (List.mem_cons_of_mem _ hmem)
    rw [insert, if_neg hne, ih hrest, List.cons_append]

/-- Entries whose keys are distinct are all kept as they stand. -/
theorem ofList_eq_self {entries : List (String × α)} (hnodup : (keys entries).Nodup) : ofList entries = entries := by
  induction entries using List.reverseRecOn with
  | nil => rfl
  | append_singleton entries entry ih =>
    rw [keys_append, List.nodup_append] at hnodup
    have hnew : entry.1 ∉ keys entries := fun hmem => hnodup.2.2 entry.1 hmem entry.1 List.mem_cons_self rfl
    rw [ofList_append_singleton, ih hnodup.1, insert_of_not_mem_keys hnew]

/-- A further key is new or repeats an earlier one. -/
theorem eraseDups_append_singleton (keys : List String) (key : String) :
    (keys ++ [key]).eraseDups = if key ∈ keys then keys.eraseDups else keys.eraseDups ++ [key] := by
  rw [List.eraseDups_append, List.removeAll]
  by_cases hmem : key ∈ keys
  · rw [if_pos hmem, List.filter_cons_of_neg (by simpa using hmem)]
    exact List.append_nil _
  · rw [if_neg hmem, List.filter_cons_of_pos (by simpa using hmem)]
    rfl

/-- The keys of a keyed list are those of its entries, each at its first place. -/
theorem keys_ofList (entries : List (String × α)) : keys (ofList entries) = (keys entries).eraseDups := by
  induction entries using List.reverseRecOn with
  | nil => rfl
  | append_singleton entries entry ih =>
    obtain ⟨key, value⟩ := entry
    have hkeys : keys (entries ++ [(key, value)]) = keys entries ++ [key] := keys_append _ _
    rw [ofList_append_singleton, keys_insert, ih, hkeys, eraseDups_append_singleton]
    simp only [List.mem_eraseDups]

/-- No key repeats among the first places of keys. -/
theorem nodup_eraseDups (keys : List String) : keys.eraseDups.Nodup := by
  have hkeys : Keyed.keys (keys.map fun key => (key, ())) = keys := by simp [Keyed.keys, Function.comp_def]
  have hnodup := nodup_keys_ofList (keys.map fun key => (key, ()))
  rwa [keys_ofList, hkeys] at hnodup

/-- The value under a key of a keyed list is that of its last entry. -/
theorem get?_ofList (entries : List (String × α)) (key : String) :
    get? (ofList entries) key = last? entries key := by
  induction entries using List.reverseRecOn with
  | nil => rfl
  | append_singleton entries entry ih =>
    obtain ⟨k, value⟩ := entry
    rw [ofList_append_singleton, get?_insert, last?_append, last?_singleton, ih]
    by_cases h : k = key <;> simp [h]

/-- The entries of a keyed list are among those that it was made from. -/
theorem mem_of_mem_ofList {entries : List (String × α)} {entry : String × α}
    (h : entry ∈ ofList entries) : entry ∈ entries := by
  obtain ⟨key, value⟩ := entry
  have hget : get? (ofList entries) key = some value := get?_of_mem (nodup_keys_ofList entries) h
  rw [get?_ofList] at hget
  exact mem_of_last? hget

/-- The values of a keyed list are the last values of its keys, in the order of the keys' first
places. -/
theorem values_ofList (entries : List (String × α)) :
    List.Forall₂ (fun key value => last? entries key = some value) (keys entries).eraseDups
      (ofList entries).values := by
  rw [← keys_ofList, keys, values, List.forall₂_map_left_iff, List.forall₂_map_right_iff,
    List.forall₂_same]
  intro entry hentry
  rw [← get?_ofList]
  exact get?_of_mem (nodup_keys_ofList entries) hentry

/-- A keyed list is read off the keys, each at its first place with its last value. -/
theorem ofList_eq_map {entries : List (String × α)} {value : String → α}
    (hlast : ∀ key ∈ keys entries, last? entries key = some (value key)) :
    ofList entries = (keys entries).eraseDups.map fun key => (key, value key) := by
  have hvalue : ∀ entry ∈ ofList entries, (entry.1, value entry.1) = entry := by
    intro entry hentry
    have hget := get?_of_mem (nodup_keys_ofList entries) hentry
    rw [get?_ofList, hlast entry.1 (List.mem_map_of_mem (mem_of_mem_ofList hentry))] at hget
    exact Prod.ext rfl (Option.some.inj hget)
  calc ofList entries = (ofList entries).map fun entry => (entry.1, value entry.1) :=
        ((List.map_congr_left hvalue).trans (List.map_id _)).symm
    _ = (keys (ofList entries)).map fun key => (key, value key) := by
        rw [keys, List.map_map]
        rfl
    _ = (keys entries).eraseDups.map fun key => (key, value key) := by rw [keys_ofList]

/-- Entries with the same keys and the same last values make the same keyed list. -/
theorem ofList_congr {entries others : List (String × α)} (hkeys : keys entries = keys others)
    (hlast : ∀ key, last? entries key = last? others key) : ofList entries = ofList others := by
  refine eq_of_keys_of_get? (nodup_keys_ofList entries) ?_ fun key => ?_
  · rw [keys_ofList, keys_ofList, hkeys]
  · rw [get?_ofList, get?_ofList, hlast]

/-- Where the keys are in order, none repeats. -/
theorem Ordered.nodup {entries : Keyed α} (h : Ordered entries) : (keys entries).Nodup := by
  refine List.Pairwise.imp ?_ h
  intro key other hlt heq
  exact String.lt_irrefl other (heq ▸ hlt)

/-- Lists in the order of their keys are equal when they have the same entries. -/
theorem Ordered.eq_of_mem_iff {entries others : Keyed α} (hentries : Ordered entries) (hothers : Ordered others)
    (hmem : ∀ entry, entry ∈ entries ↔ entry ∈ others) : entries = others := by
  have hnodup {list : Keyed α} (hlist : Ordered list) : list.Nodup := List.Nodup.of_map _ hlist.nodup
  have hperm : entries.Perm others := (List.perm_ext_iff_of_nodup (hnodup hentries) (hnodup hothers)).mpr hmem
  have hpairwise {list : Keyed α} (hlist : Ordered list) : list.Pairwise fun entry other => entry.1 < other.1 :=
    List.pairwise_map.mp hlist
  refine List.Perm.eq_of_pairwise ?_ (hpairwise hentries) (hpairwise hothers) hperm
  intro entry other _ _ hlt hgt
  exact absurd hgt (String.lt_asymm hlt)

/-- Lists in the order of their keys are equal when the same values are found in them. -/
theorem Ordered.eq_of_get?_eq {entries others : Keyed α} (hentries : Ordered entries) (hothers : Ordered others)
    (hget : ∀ key, get? entries key = get? others key) : entries = others := by
  apply hentries.eq_of_mem_iff hothers
  intro entry
  rw [← get?_eq_some_iff hentries.nodup, hget, get?_eq_some_iff hothers.nodup]

/-- An entry with a new key is put between others in an ordered list. -/
theorem exists_insertSorted_eq {entries : Keyed α} {key : String} (h : key ∉ keys entries) (value : α) :
    ∃ before after, entries = before ++ after ∧ insertSorted entries key value = before ++ (key, value) :: after := by
  induction entries with
  | nil => exact ⟨[], [], rfl, rfl⟩
  | cons entry rest ih =>
    have hne : entry.1 ≠ key := fun heq => h (heq ▸ List.mem_cons_self)
    by_cases hlt : key < entry.1
    · refine ⟨[], entry :: rest, rfl, ?_⟩
      rw [insertSorted, if_pos hlt]
      rfl
    · obtain ⟨before, after, hrest, hinsert⟩ := ih fun hmem => h (List.mem_cons_of_mem _ hmem)
      refine ⟨entry :: before, after, congrArg (entry :: ·) hrest, ?_⟩
      rw [insertSorted, if_neg hlt, if_neg hne, hinsert]
      rfl

/-- Sorting entries by key keeps exactly their keys. -/
theorem mem_keys_sortedOfList {entries : List (String × α)} {key : String} :
    key ∈ keys (sortedOfList entries) ↔ key ∈ keys entries := by
  -- the entries read so far are part of the induction
  suffices ∀ kept : Keyed α,
      key ∈ keys (entries.foldl (fun kept entry => insertSorted kept entry.1 entry.2) kept) ↔
        key ∈ keys kept ∨ key ∈ keys entries by
    simpa [sortedOfList, keys] using this []
  induction entries with
  | nil => simp [keys]
  | cons entry rest ih =>
    intro kept
    rw [List.foldl_cons, ih, mem_keys_insertSorted, keys, keys, keys, List.map_cons, List.mem_cons, or_assoc,
      or_left_comm]

/-- Sorted entries have their keys in order. -/
theorem ordered_sortedOfList (entries : List (String × α)) : Ordered (sortedOfList entries) := by
  -- the entries read so far are part of the induction
  suffices ∀ kept : Keyed α, Ordered kept →
      Ordered (entries.foldl (fun kept entry => insertSorted kept entry.1 entry.2) kept) from this [] List.Pairwise.nil
  induction entries with
  | nil => exact fun _ h => h
  | cons entry rest ih => exact fun kept h => ih _ (ordered_insertSorted h _ _)

/-- The value under a key among sorted entries is that of its last entry. -/
theorem get?_sortedOfList (entries : List (String × α)) (key : String) :
    get? (sortedOfList entries) key = last? entries key := by
  induction entries using List.reverseRecOn with
  | nil => rfl
  | append_singleton entries entry ih =>
    obtain ⟨k, value⟩ := entry
    have hsorted : sortedOfList (entries ++ [(k, value)]) = insertSorted (sortedOfList entries) k value := by
      rw [sortedOfList, List.foldl_append]
      rfl
    rw [hsorted, get?_insertSorted, last?_append, last?_singleton, ih]
    by_cases h : k = key <;> simp [h]

/-- Of sorted entries the one with a key that no later one has is put in its place. -/
theorem sortedOfList_insert {before after : List (String × α)} {key : String} (h : key ∉ keys after) (value : α) :
    sortedOfList (before ++ (key, value) :: after) = insertSorted (sortedOfList (before ++ after)) key value := by
  apply (ordered_sortedOfList _).eq_of_get?_eq (ordered_insertSorted (ordered_sortedOfList _) _ _)
  intro k
  rw [get?_sortedOfList, last?_insert h, get?_insertSorted, get?_sortedOfList]

/-- Sorting entries with distinct keys keeps all of them. -/
theorem mem_sortedOfList {entries : List (String × α)} (hnodup : (keys entries).Nodup) {key : String} {value : α} :
    (key, value) ∈ sortedOfList entries ↔ (key, value) ∈ entries := by
  constructor
  · intro h
    have hget := get?_of_mem (ordered_sortedOfList entries).nodup h
    rw [get?_sortedOfList] at hget
    exact mem_of_last? hget
  · intro h
    have hlast : last? entries key = some value := by
      rw [last?_eq_get? hnodup, get?_of_mem hnodup h]
    rw [← get?_sortedOfList] at hlast
    exact mem_of_get? hlast

end Listing.Keyed
