import Listing.Proofs.CopiedParts

/-!
# What a projection shows

A projection copies the identifier of a document and what the requested paths lead to, so everything that is known
of copying holds of it: it shows what was requested and is a part of the document, and the order of the paths is
seen in the order of the keys only. Since what has been written is a part of the document at every step, a path
finds objects on its way wherever it finds anything. The replacement of another value by an object, which writing
at a path provides for, is never made.
-/

namespace Listing

open Listing.Path

namespace Projection

/-! ### Writing without giving up anything -/

/-- The entries of what stands under a key on the way of a path, none if nothing does. What is not an object has
no entries to go on with. -/
def entriesOnTheWay? : Option Json → Option (Keyed Json)
  | none => some []
  | some (.object fields) => some fields
  | some _ => none

/-- Put a value at the end of a path as `insertAt` does, but do not put an object in the place of another value. -/
def insertAt? (fields : Keyed Json) (path : List String) (value : Json) : Option (Keyed Json) :=
  match path with
  | [] => some fields
  | [key] => some (Keyed.insert fields key value)
  | key :: next :: keys => do
    let entries ← entriesOnTheWay? (Keyed.get? fields key)
    let inner ← insertAt? entries (next :: keys) value
    return Keyed.insert fields key (.object inner)

/-- Put the value at a path of a document into the entries of an object as `collect` does, but do not put an object
in the place of another value. -/
def collect? (document : Json) (fields : Keyed Json) (path : String) : Option (Keyed Json) :=
  match lookup document path with
  | some value => insertAt? fields (segments path) value
  | none => some fields

/-- Where an object leads on to another one, a part of it has entries of a part of that one to go on with. -/
theorem exists_entriesOnTheWay? {fields whole inner : Keyed Json} {key : String}
    (hpart : (Json.object fields).PartOf (.object whole)) (hinner : Keyed.get? whole key = some (.object inner)) :
    ∃ entries, entriesOnTheWay? (Keyed.get? fields key) = some entries ∧
      ((Keyed.get? fields key).map Json.fields).getD [] = entries ∧ (Json.object entries).PartOf (.object inner) := by
  cases hget : Keyed.get? fields key with
  | none => exact ⟨[], rfl, rfl, .object fun _ hkey => absurd hkey List.not_mem_nil⟩
  | some written =>
    obtain ⟨found, hfound, hwritten⟩ := hpart.exists_get? hget
    obtain rfl := Option.some.inj (hfound.symm.trans hinner)
    cases hwritten with
    | refl => exact ⟨inner, rfl, rfl, .refl _⟩
    | object h => exact ⟨_, rfl, rfl, .object h⟩

/-- In a part of an object nothing has to give place to what is at the end of some keys of the object. -/
theorem insertAt?_of_partOf {fields whole : Keyed Json} {keys : List String} {value : Json}
    (hpart : (Json.object fields).PartOf (.object whole)) (hdescend : descend (.object whole) keys = some value) :
    insertAt? fields keys value = some (insertAt fields keys value) := by
  induction keys generalizing fields whole with
  | nil => rfl
  | cons key keys ih =>
    cases keys with
    | nil => rfl
    | cons next keys =>
      obtain ⟨inner, hinner, hrest⟩ := Option.bind_eq_some_iff.mp hdescend
      rw [eq_object_of_descend_cons hrest] at hinner hrest
      obtain ⟨entries, hway, hentries, hinside⟩ := exists_entriesOnTheWay? hpart hinner
      rw [insertAt?, hway, Option.bind_eq_bind, Option.bind_some, ih hinside hrest, insertAt, hentries]
      rfl

/-- Where an object has what several keys lead to, nothing has to give place to what a further path leads to, and after
it the object has what several keys lead to again. -/
theorem exists_collect?_copyAll (document : Json) (requests : List (List String)) (path : String) :
    ∃ more, collect? document (copyAll document requests) path = some (copyAll document more) ∧
      collect document (copyAll document requests) path = copyAll document more := by
  rw [collect?, collect]
  cases hlookup : lookup document path with
  | none => exact ⟨requests, rfl, rfl⟩
  | some value =>
    have hdescend := descend_of_lookup hlookup
    have hobject : document = .object document.fields := by
      obtain ⟨key, keys, hkeys⟩ := List.exists_cons_of_ne_nil (segments_ne_nil path)
      exact eq_object_of_descend_cons (hkeys ▸ hdescend)
    have hmore : copyAll document (requests ++ [segments path]) =
        insertAt (copyAll document requests) (segments path) value := by
      rw [copyAll_append_singleton, copy, hdescend]
    refine ⟨requests ++ [segments path], ?_, hmore.symm⟩
    rw [hmore]
    exact insertAt?_of_partOf (partOf_copyAll document requests) (hobject ▸ hdescend)

/-- So nothing has to give place to what several paths lead to. -/
theorem foldlM_collect?_copyAll (document : Json) (requests : List (List String)) (paths : List String) :
    paths.foldlM (collect? document) (copyAll document requests) =
      some (paths.foldl (collect document) (copyAll document requests)) := by
  induction paths generalizing requests with
  | nil => rfl
  | cons path paths ih =>
    obtain ⟨more, hstep, hcollect⟩ := exists_collect?_copyAll document requests path
    rw [List.foldlM_cons, hstep, List.foldl_cons, hcollect]
    exact ih more

/-! ### Projections -/

/-- The identifier and the requested fields of a document as `apply` gives them, but without putting an object in the
place of another value. -/
def applyKeeping? (paths : List String) (document : Json) : Option Json :=
  if paths = [] then some document
  else
    let id : Keyed Json :=
      match document.field? idKey with
      | some id => [(idKey, id)]
      | none => []
    (paths.foldlM (collect? document) id).map .object

/-- What a projection to some paths copies: the identifier, and what the paths lead to that are followed at all. -/
def requested (paths : List String) : List (List String) :=
  [idKey] :: (paths.filter fun path => path ≠ "" ∧ (segments path).length ≤ maxDepth).map segments

/-- The identifier is requested, and so is what the paths name that are followed. -/
theorem mem_requested {paths : List String} {keys : List String} :
    keys ∈ requested paths ↔
      keys = [idKey] ∨ ∃ path ∈ paths, (path ≠ "" ∧ (segments path).length ≤ maxDepth) ∧ segments path = keys := by
  simp [requested, and_assoc]

/-- A projection copies the identifier first, and then what each path leads to. -/
theorem apply_eq_foldl {paths : List String} (hpaths : paths ≠ []) (document : Json) :
    apply paths document = .object (paths.foldl (collect document) (copyAll document [[idKey]])) := by
  cases hid : document.field? idKey <;> simp [apply, hpaths, hid, copyAll, copy, descend, insertAt, Keyed.insert]

/-- A projection copies what is requested. -/
theorem apply_eq_copyAll {paths : List String} (hpaths : paths ≠ []) (document : Json) :
    apply paths document = .object (copyAll document (requested paths)) := by
  have hcollect : collect document = fun fields path =>
      if path ≠ "" ∧ (segments path).length ≤ maxDepth then copy document fields (segments path) else fields := by
    funext fields path
    by_cases hfollowed : path ≠ "" ∧ (segments path).length ≤ maxDepth
    · have hlookup := lookup_eq_descend hfollowed.1 hfollowed.2 document
      cases hdescend : descend document (segments path) <;> simp [collect, copy, hlookup, hdescend, hfollowed]
    · simp [collect, lookup_eq_none_of_not_followed hfollowed, hfollowed]
  rw [apply_eq_foldl hpaths, hcollect]
  simp [requested, copyAll, List.foldl_map, List.foldl_filter]

/-- A projection that never puts an object in the place of another value gives the same. -/
theorem applyKeeping?_eq_apply (paths : List String) (document : Json) :
    applyKeeping? paths document = some (apply paths document) := by
  by_cases hpaths : paths = []
  · rw [applyKeeping?, if_pos hpaths, apply, if_pos hpaths]
  · have hfold := foldlM_collect?_copyAll document [[idKey]] paths
    rw [apply_eq_foldl hpaths]
    cases hid : document.field? idKey <;>
      simp_all [applyKeeping?, copyAll, copy, descend, insertAt, Keyed.insert]

/-- Projections to the same paths are equal up to the order of keys, in whatever order the paths and the keys of the
document are. -/
theorem reordered_apply {paths others : List String} (h : ∀ path, path ∈ others ↔ path ∈ paths) {document other : Json}
    (hdocument : document.Reordered other) : (apply others document).Reordered (apply paths other) := by
  by_cases hpaths : paths = []
  · have hothers : others = [] := List.eq_nil_iff_forall_not_mem.mpr fun path hpath => by simp [h, hpaths] at hpath
    rw [apply, if_pos hothers, apply, if_pos hpaths]
    exact hdocument
  · have hothers : others ≠ [] := by
      obtain ⟨path, hpath⟩ := List.exists_mem_of_ne_nil paths hpaths
      exact List.ne_nil_of_mem ((h path).mpr hpath)
    rw [apply_eq_copyAll hothers, apply_eq_copyAll hpaths]
    exact reordered_copyAll hdocument fun keys => by simp only [mem_requested, h]

section

variable {paths : List String} (hpaths : paths ≠ []) (document : Json)

include hpaths

/-- A requested path is looked up in a projection with the same result as in the document. -/
theorem lookup_apply {path : String} (h : path ∈ paths) : lookup (apply paths document) path = lookup document path := by
  by_cases hfollowed : path ≠ "" ∧ (segments path).length ≤ maxDepth
  · have hmem : segments path ∈ requested paths := mem_requested.mpr (.inr ⟨path, h, hfollowed, rfl⟩)
    rw [lookup_eq_descend hfollowed.1 hfollowed.2, lookup_eq_descend hfollowed.1 hfollowed.2, apply_eq_copyAll hpaths]
    obtain ⟨key, keys, hkeys⟩ := List.exists_cons_of_ne_nil (segments_ne_nil path)
    rw [hkeys] at hmem ⊢
    exact descend_copyAll hmem
  · rw [lookup_eq_none_of_not_followed hfollowed, lookup_eq_none_of_not_followed hfollowed]

/-- A projection of a projection to the same paths is the same. -/
theorem apply_apply : apply paths (apply paths document) = apply paths document := by
  have hsame : ∀ keys ∈ requested paths, descend (apply paths document) keys = descend document keys := by
    intro keys hkeys
    rw [apply_eq_copyAll hpaths]
    cases keys with
    | nil => simp [requested, segments_ne_nil] at hkeys
    | cons key keys => exact descend_copyAll hkeys
  rw [apply_eq_copyAll hpaths (apply paths document), copyAll_congr hsame, ← apply_eq_copyAll hpaths]

/-- A value without fields in a projection is the identifier or what a requested path leads to, or is inside of one
of these. -/
theorem exists_prefix_of_apply {keys : List String} {leaf : Json} (hkeys : keys ≠ [])
    (hdescend : descend (apply paths document) keys = some leaf) (hleaf : leaf.fields = []) :
    [idKey] <+: keys ∨ ∃ path ∈ paths, (lookup document path).isSome ∧ segments path <+: keys := by
  rw [apply_eq_copyAll hpaths] at hdescend
  obtain ⟨request, hrequest, hsome, hprefix⟩ := exists_prefix_of_copyAll hkeys hdescend hleaf
  obtain rfl | ⟨path, hpath, hfollowed, rfl⟩ := mem_requested.mp hrequest
  · exact .inl hprefix
  · exact .inr ⟨path, hpath, lookup_eq_descend hfollowed.1 hfollowed.2 document ▸ hsome, hprefix⟩

end

/-- A projection is exactly the requested part of a document. Every requested path is looked up in it with the same
result as in the document, and it has the identifier of the document. It is a part of the document, and whatever has no
fields in it is the identifier or what a requested path leads to, or is inside of one of these. Another
order or repetition of the paths changes at most the order of keys, projecting again changes nothing, and an object is
never put in the place of another value. -/
theorem apply_is_requested_part (fields : Keyed Json) {paths : List String} (hpaths : paths ≠ []) :
    let document := Json.object fields
    let shown := apply paths document
    (∀ path ∈ paths, lookup shown path = lookup document path) ∧
    shown.field? idKey = document.field? idKey ∧
    shown.PartOf document ∧
    (∀ keys leaf, keys ≠ [] → descend shown keys = some leaf → leaf.fields = [] →
      [idKey] <+: keys ∨ ∃ path ∈ paths, (lookup document path).isSome ∧ segments path <+: keys) ∧
    (∀ others, (∀ path, path ∈ others ↔ path ∈ paths) → (apply others document).Reordered shown) ∧
    apply paths shown = shown ∧
    applyKeeping? paths document = some shown := by
  intro document shown
  refine ⟨fun path hpath => lookup_apply hpaths document hpath, field?_id_apply paths document, ?_,
    fun keys leaf hkeys hdescend hleaf => exists_prefix_of_apply hpaths document hkeys hdescend hleaf,
    fun others hothers => reordered_apply hothers (.refl document), apply_apply hpaths document,
    applyKeeping?_eq_apply paths document⟩
  have hcopied : shown = .object (copyAll document (requested paths)) := apply_eq_copyAll hpaths document
  rw [hcopied]
  exact partOf_copyAll document (requested paths)

/-- An address of which the city is requested before the whole and again after it, along with a street that is
missing, keeps its post code, and asking for the city once and last changes at most the order of keys. -/
theorem apply_of_overlapping_address :
    let document : Json := .object [(idKey, .text "p"),
      ("address", .object [("city", .text "London"), ("code", .text "N1")]), ("note", .null)]
    let paths := ["address.city", "address", "address.street", "address.city"]
    lookup (apply paths document) "address.street" = none ∧
      (apply ["address.street", "address", "address.city"] document).Reordered (apply paths document) ∧
      applyKeeping? paths document = some (.object [(idKey, .text "p"),
        ("address", .object [("city", .text "London"), ("code", .text "N1")])]) := by
  intro document paths
  obtain ⟨hlookup, -, -, -, hreordered, -, hkeeping⟩ := apply_is_requested_part document.fields (by decide : paths ≠ [])
  refine ⟨(hlookup "address.street" (by decide)).trans rfl, hreordered _ fun path => ?_, hkeeping.trans rfl⟩
  simp only [paths, List.mem_cons, List.not_mem_nil, or_false]
  grind

end Projection

end Listing
