/-!
# Entries in insertion order

A keyed list holds its entries in the order in which their keys first arrived. Writing a key again
changes the value and keeps the place, so objects, filter clauses and collections are all read off
in the order in which they were made.

A group of parameters is kept in the order of its keys instead, by `insertSorted`.
-/

namespace Listing

/-- Entries, each under a string key. -/
abbrev Keyed (α : Type u) := List (String × α)

namespace Keyed

variable {α : Type u} {β : Type v}

/-- The keys in order. -/
def keys (entries : Keyed α) : List String := entries.map Prod.fst

/-- The values in order. -/
def values (entries : Keyed α) : List α := entries.map Prod.snd

/-- The value of the first entry under a key. -/
def get? (entries : Keyed α) (key : String) : Option α := List.lookup key entries

/-- Put a value under a key: in the place of the key's entry if there is one, else at the end. -/
def insert (entries : Keyed α) (key : String) (value : α) : Keyed α :=
  match entries with
  | [] => [(key, value)]
  | (k, v) :: rest => if k = key then (k, value) :: rest else (k, v) :: insert rest key value

/-- Insert entries one after the other. -/
def insertAll (entries : Keyed α) (more : List (String × α)) : Keyed α :=
  more.foldl (fun kept entry => insert kept entry.1 entry.2) entries

/-- The keyed list of a sequence of entries: every key at its first place with its last value. -/
def ofList (entries : List (String × α)) : Keyed α := insertAll [] entries

/-- Put a value under a key in a list ordered by key. -/
def insertSorted (entries : Keyed α) (key : String) (value : α) : Keyed α :=
  match entries with
  | [] => [(key, value)]
  | (k, v) :: rest =>
    if key < k then (key, value) :: (k, v) :: rest
    else if k = key then (k, value) :: rest
    else (k, v) :: insertSorted rest key value

/-- The entries in the order of their keys, every key with its last value. -/
def sortedOfList (entries : List (String × α)) : Keyed α :=
  entries.foldl (fun kept entry => insertSorted kept entry.1 entry.2) []

/-- Whether every key comes before those of the later entries, so that no key repeats. -/
def Ordered (entries : Keyed α) : Prop := (keys entries).Pairwise (· < ·)

@[simp] theorem get?_nil (key : String) : get? ([] : Keyed α) key = none := rfl

theorem get?_cons (k : String) (v : α) (rest : Keyed α) (key : String) :
    get? ((k, v) :: rest) key = if k = key then some v else get? rest key := by
  by_cases h : k = key
  · subst h; simp [get?]
  · simp [get?, List.lookup_cons, h, beq_false_of_ne (Ne.symm h)]

/-- An inserted value is found under its key, and every other key is left alone. -/
theorem get?_insert (entries : Keyed α) (key : String) (value : α) (k : String) :
    get? (insert entries key value) k = if key = k then some value else get? entries k := by
  induction entries with
  | nil => simp [insert, get?_cons]
  | cons entry rest ih =>
    obtain ⟨k', v⟩ := entry
    by_cases h : k' = key
    · subst h; by_cases hk : k' = k <;> simp [insert, get?_cons, hk]
    · by_cases hk : k' = k
      · subst hk; simp [insert, get?_cons, h, Ne.symm h]
      · simp [insert, get?_cons, h, hk, ih]

/-- An inserted value is found under its key in an ordered list too. -/
theorem get?_insertSorted (entries : Keyed α) (key : String) (value : α) (k : String) :
    get? (insertSorted entries key value) k = if key = k then some value else get? entries k := by
  induction entries with
  | nil => simp [insertSorted, get?_cons]
  | cons entry rest ih =>
    obtain ⟨k', v⟩ := entry
    by_cases hlt : key < k'
    · simp [insertSorted, hlt, get?_cons]
    · by_cases h : k' = key
      · subst h; by_cases hk : k' = k <;> simp [insertSorted, get?_cons, hk]
      · by_cases hk : k' = k
        · subst hk; simp [insertSorted, hlt, get?_cons, h, Ne.symm h]
        · simp [insertSorted, hlt, get?_cons, h, hk, ih]

/-- Inserting in order adds the key and no other. -/
theorem mem_keys_insertSorted (entries : Keyed α) (key : String) (value : α) (k : String) :
    k ∈ keys (insertSorted entries key value) ↔ k = key ∨ k ∈ keys entries := by
  induction entries with
  | nil => simp [insertSorted, keys]
  | cons entry rest ih =>
    obtain ⟨k', v⟩ := entry
    simp only [keys, List.mem_map] at ih
    by_cases hlt : key < k'
    · simp [insertSorted, hlt, keys]
    · by_cases h : k' = key
      · subst h
        simp [insertSorted, keys]
      · simp only [insertSorted, if_neg hlt, if_neg h, keys, List.map_cons, List.mem_cons, List.mem_map, ih]
        exact or_left_comm

/-- Inserting in order keeps the order. -/
theorem ordered_insertSorted {entries : Keyed α} (h : Ordered entries) (key : String) (value : α) :
    Ordered (insertSorted entries key value) := by
  induction entries with
  | nil => exact List.pairwise_singleton _ _
  | cons entry rest ih =>
    obtain ⟨k, v⟩ := entry
    obtain ⟨hfirst, hrest⟩ := List.pairwise_cons.mp h
    by_cases hlt : key < k
    · rw [insertSorted, if_pos hlt]
      refine List.pairwise_cons.mpr ⟨fun other hother => ?_, h⟩
      rcases List.mem_cons.mp hother with rfl | hother
      · exact hlt
      · exact String.lt_trans hlt (hfirst other hother)
    · by_cases heq : k = key
      · subst heq
        rw [insertSorted, if_neg hlt, if_pos rfl]
        exact List.pairwise_cons.mpr ⟨hfirst, hrest⟩
      · rw [insertSorted, if_neg hlt, if_neg heq]
        refine List.pairwise_cons.mpr ⟨fun other hother => ?_, ih hrest⟩
        rcases (mem_keys_insertSorted rest key value other).mp hother with rfl | hother
        · exact Std.lt_of_le_of_ne (String.not_lt.mp hlt) heq
        · exact hfirst other hother

/-- Inserting adds a key at the end unless it is already there. -/
theorem keys_insert (entries : Keyed α) (key : String) (value : α) :
    keys (insert entries key value) =
      if key ∈ keys entries then keys entries else keys entries ++ [key] := by
  induction entries with
  | nil => simp [insert, keys]
  | cons entry rest ih =>
    obtain ⟨k, v⟩ := entry
    by_cases h : k = key
    · subst h; simp [insert, keys]
    · simp only [keys] at ih
      by_cases hmem : key ∈ rest.map Prod.fst <;> simp_all [insert, keys, Ne.symm h]

/-- Inserting keeps the keys distinct. -/
theorem nodup_keys_insert {entries : Keyed α} (h : (keys entries).Nodup) (key : String) (value : α) :
    (keys (insert entries key value)).Nodup := by
  rw [keys_insert]
  split
  · exact h
  · next hmem => exact List.nodup_append.mpr ⟨h, by simp, by grind⟩

/-- A keyed list made from a sequence of entries has distinct keys. -/
theorem nodup_keys_ofList (entries : List (String × α)) : (keys (ofList entries)).Nodup := by
  suffices ∀ kept : Keyed α, (keys kept).Nodup → (keys (insertAll kept entries)).Nodup from
    this [] (by simp [keys])
  induction entries with
  | nil => exact fun _ h => h
  | cons entry rest ih => exact fun kept h => ih _ (nodup_keys_insert h _ _)

end Keyed

end Listing
