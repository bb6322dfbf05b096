import Listing.Proofs.LastPerKey
import Listing.Proofs.Paths
import Listing.Store
import Mathlib.Logic.Function.Iterate

/-!
# How documents are presented

A stored document is given out in two steps. A projection copies the requested paths next to the identifier,
and what it copies at the identifier or inside it is there already. An expansion changes the value of a field
in its place, as often as the field is named, and no other field. So the identifier of a presented document
does not depend on the projection, and only named fields depend on the expansions.
-/

namespace Listing

/-- Putting a value where it already is changes nothing. -/
theorem Keyed.insert_of_get? {α : Type u} {entries : Keyed α} {key : String} {value : α}
    (h : get? entries key = some value) : insert entries key value = entries := by
  induction entries with
  | nil => contradiction
  | cons entry rest ih =>
    obtain ⟨k, v⟩ := entry
    rw [get?_cons] at h
    by_cases heq : k = key
    · rw [if_pos heq] at h
      rw [insert, if_pos heq, Option.some.inj h]
    · rw [if_neg heq] at h
      rw [insert, if_neg heq, ih h]

namespace Projection

/-- Putting a value at the end of keys that lead to it changes nothing. -/
theorem insertAt_of_descend {document value : Json} {keys : List String} (h : Path.descend document keys = some value) :
    insertAt document.fields keys value = document.fields := by
  induction keys generalizing document with
  | nil => rfl
  | cons key keys ih =>
    rw [Path.descend, Option.bind_eq_some_iff] at h
    obtain ⟨inner, hinner, hrest⟩ := h
    cases keys with
    | nil =>
      obtain rfl : inner = value := Option.some.inj hrest
      exact Keyed.insert_of_get? hinner
    | cons next keys =>
      have hget : Keyed.get? document.fields key = some inner := hinner
      rw [insertAt, hget, Option.map_some, Option.getD_some, ih hrest, ← Path.eq_object_of_descend_cons hrest]
      exact Keyed.insert_of_get? hinner

/-- Only the first key of a path is written among the entries. -/
theorem get?_insertAt_of_ne (fields : Keyed Json) {key other : String} (h : key ≠ other) (keys : List String)
    (value : Json) : Keyed.get? (insertAt fields (key :: keys) value) other = Keyed.get? fields other := by
  cases keys <;> rw [insertAt, Keyed.get?_insert, if_neg h]

/-- Writing a requested path keeps an identifier that is the one of the document. -/
theorem get?_id_collect {document : Json} {fields : Keyed Json} (h : Keyed.get? fields idKey = document.field? idKey)
    (path : String) : Keyed.get? (collect document fields path) idKey = document.field? idKey := by
  rw [collect]
  cases hlookup : Path.lookup document path with
  | none => exact h
  | some value =>
    have hdescend : Path.descend document (Path.segments path) = some value := Path.descend_of_lookup hlookup
    obtain ⟨key, keys, hkeys⟩ := List.exists_cons_of_ne_nil (Path.segments_ne_nil path)
    rw [hkeys] at hdescend
    rw [hkeys]
    by_cases heq : key = idKey
    · -- the entries lead to the value themselves, since they have the identifier of the document
      subst heq
      have hfields : Path.descend (.object fields) (idKey :: keys) = some value := by
        rw [← hdescend, Path.descend, Path.descend, ← h]
        rfl
      rw [← h]
      exact congrArg (Keyed.get? · idKey) (insertAt_of_descend hfields)
    · rw [← h]
      exact get?_insertAt_of_ne fields heq keys value

/-- Writing requested paths one after the other keeps such an identifier. -/
theorem get?_id_foldl_collect {document : Json} {fields : Keyed Json}
    (h : Keyed.get? fields idKey = document.field? idKey) (paths : List String) :
    Keyed.get? (paths.foldl (collect document) fields) idKey = document.field? idKey := by
  induction paths generalizing fields with
  | nil => exact h
  | cons path paths ih => exact ih (get?_id_collect h path)

/-- A projected document has the identifier of the document. -/
theorem field?_id_apply (paths : List String) (document : Json) :
    (apply paths document).field? idKey = document.field? idKey := by
  rw [apply]
  split
  · rfl
  · refine get?_id_foldl_collect ?_ paths
    cases document.field? idKey <;> rfl

end Projection

namespace Expansion

variable {relations : Keyed String} {documents : Keyed (List Json)}

/-- What one expansion makes of the value of a field. -/
def expandOnce (relations : Keyed String) (documents : Keyed (List Json)) (field : String) (value : Json) : Json :=
  match Keyed.get? relations field with
  | some target => expandValue ((Keyed.get? documents target).getD []) value
  | none => value

/-- Expanding a field changes its value and no other. -/
theorem get?_expandField (fields : Keyed Json) (name field : String) :
    Keyed.get? (expandField relations documents fields name) field =
      if name = field then (Keyed.get? fields field).map (expandOnce relations documents field)
      else Keyed.get? fields field := by
  rw [expandField]
  by_cases heq : name = field
  · subst heq
    rw [if_pos rfl]
    unfold expandOnce
    cases Keyed.get? relations name with
    | none => exact (congrFun Option.map_id _).symm
    | some target =>
      cases hvalue : Keyed.get? fields name with
      | none => exact hvalue
      | some value => rw [Keyed.get?_insert, if_pos rfl, Option.map_some]
  · rw [if_neg heq]
    split
    · rw [Keyed.get?_insert, if_neg heq]
    · rfl

/-- Expanding a field keeps the keys. -/
theorem keys_expandField (fields : Keyed Json) (name : String) :
    Keyed.keys (expandField relations documents fields name) = Keyed.keys fields := by
  rw [expandField]
  split
  · next hvalue =>
    have hmem : name ∈ Keyed.keys fields := List.mem_map_of_mem (Keyed.mem_of_get? hvalue)
    rw [Keyed.keys_insert, if_pos hmem]
  · rfl

/-- Expanding keeps the keys of a document. -/
theorem keys_expand (names : List String) (document : Json) :
    Keyed.keys (expand relations documents names document).fields = Keyed.keys document.fields := by
  cases document with
  | object fields =>
    rw [expand, Json.fields, Json.fields]
    induction names generalizing fields with
    | nil => rfl
    | cons name names ih => rw [List.foldl_cons, ih, keys_expandField]
  | _ => rfl

/-- A field of a document is expanded as often as it is named. -/
theorem field?_expand (names : List String) (document : Json) (field : String) :
    (expand relations documents names document).field? field =
      (document.field? field).map (expandOnce relations documents field)^[names.count field] := by
  cases document with
  | object fields =>
    rw [expand, Json.field?, Json.field?, Json.fields, Json.fields]
    induction names generalizing fields with
    | nil => exact (congrFun Option.map_id _).symm
    | cons name names ih =>
      rw [List.foldl_cons, ih, get?_expandField, List.count_cons]
      by_cases heq : name = field
      · rw [if_pos heq, if_pos (beq_iff_eq.mpr heq), Option.map_map, Function.iterate_succ]
      · rw [if_neg heq, if_neg (mt beq_iff_eq.mp heq), Nat.add_zero]
  | _ => rfl

/-- A field that is not named is left as it is. -/
theorem field?_expand_of_not_mem {names : List String} {field : String} (h : field ∉ names) (document : Json) :
    (expand relations documents names document).field? field = document.field? field := by
  rw [field?_expand, List.count_eq_zero_of_not_mem h, Function.iterate_zero, Option.map_id]
  rfl

end Expansion

end Listing
