import Listing.Proofs.Expansions
import Listing.Proofs.ReadValues
import Mathlib.Order.WellFounded

/-!
# Expanding a field again

A field that is named twice is expanded twice, and the second time its value is not the reference that it was but the
document that took its place. A document never names itself, since the identifier in it is a smaller value. So naming a
field again changes whatever the first time has resolved: the document gives way to one that has it as its identifier,
if there is any, and otherwise to null.
-/

namespace Listing

namespace Json

mutual

/-- How many objects stand inside one another in the fields of a value. -/
def depth : Json → Nat
  | object fields => depthOfFields fields + 1
  | _ => 0

/-- The greatest depth of the values of entries. -/
def depthOfFields : List (String × Json) → Nat
  | [] => 0
  | (_, value) :: rest => max value.depth (depthOfFields rest)

end

/-- The depth of entries bounds that of each of their values. -/
theorem depthOfFields_le_iff {fields : List (String × Json)} {bound : Nat} :
    depthOfFields fields ≤ bound ↔ ∀ entry ∈ fields, entry.2.depth ≤ bound := by
  induction fields with
  | nil => simp [depthOfFields]
  | cons entry rest ih => rw [depthOfFields, Nat.max_le, ih, List.forall_mem_cons]

/-- The value of a field is less deep than the object that it is in. -/
theorem depth_lt_of_field? {value inner : Json} {key : String} (h : value.field? key = some inner) :
    inner.depth < value.depth := by
  rw [eq_object_of_field? h, depth, Nat.lt_succ_iff]
  exact depthOfFields_le_iff.mp (Nat.le_refl _) (key, inner) (Keyed.mem_of_get? h)

/-- The fields of a well-formed value are well-formed. -/
theorem WellFormed.of_field? {value inner : Json} (h : value.WellFormed) {key : String}
    (hfield : value.field? key = some inner) : inner.WellFormed := by
  rw [eq_object_of_field? hfield] at h
  exact wellFormedFields_iff.mp h.2 (key, inner) (Keyed.mem_of_get? hfield)

/-- Entries agree with another object when each of them has an equal value there. -/
theorem sameFields_iff {fields : List (String × Json)} {others : Keyed Json} :
    sameFields fields others = true ↔
      ∀ entry ∈ fields, ∃ other, Keyed.get? others entry.1 = some other ∧ entry.2.same other = true := by
  induction fields with
  | nil => simp [sameFields]
  | cons entry rest ih =>
    obtain ⟨key, value⟩ := entry
    rw [sameFields, Bool.and_eq_true, ih, List.forall_mem_cons]
    cases Keyed.get? others key <;> simp

/-- Where no key repeats, an object that equals another one has the same keys. -/
theorem keys_perm_of_same {fields others : Keyed Json} (hnodup : (Keyed.keys fields).Nodup)
    (h : (object fields).same (object others) = true) : (Keyed.keys fields).Perm (Keyed.keys others) := by
  rw [same, Bool.and_eq_true, decide_eq_true_eq, sameFields_iff] at h
  have hsubset : Keyed.keys fields ⊆ Keyed.keys others := by
    refine List.forall_mem_map.mpr fun entry hentry => ?_
    obtain ⟨other, hother, -⟩ := h.2 entry hentry
    exact List.mem_map.mpr ⟨(entry.1, other), Keyed.mem_of_get? hother, rfl⟩
  apply (List.subperm_of_subset hnodup hsubset).perm_of_length_le
  simp [Keyed.keys, h.1]

/-- A value is no deeper than one that is equal to it. -/
theorem depth_le_of_same {value other : Json} (hformed : value.WellFormed) (h : value.same other = true) :
    other.depth ≤ value.depth := by
  induction value using Json.induction generalizing other with
  | object fields ih =>
    cases other with
    | object others =>
      have hkeys := keys_perm_of_same hformed.1 h
      rw [same, Bool.and_eq_true, sameFields_iff] at h
      rw [depth, depth, Nat.add_le_add_iff_right, depthOfFields_le_iff]
      intro entry hentry
      -- an entry of the other object is the equal one of an entry under its key
      obtain ⟨found, hfound, hkey⟩ := List.mem_map.mp (hkeys.mem_iff.mpr (List.mem_map_of_mem hentry))
      obtain ⟨equal, hequal, hsame⟩ := h.2 found hfound
      rw [hkey, Keyed.get?_of_mem (hkeys.nodup hformed.1) hentry] at hequal
      obtain rfl := Option.some.inj hequal
      calc entry.2.depth
          ≤ found.2.depth := ih found hfound (wellFormedFields_iff.mp hformed.2 found hfound) hsame
        _ ≤ depthOfFields fields := depthOfFields_le_iff.mp (Nat.le_refl _) found hfound
    | _ => simp [depth]
  | _ => cases other <;> simp_all [same, depth]

end Json

namespace Expansion

variable {relations : Keyed String} {documents : Keyed (List Json)} {targets : List Json}

/-- The values of a field that may be identifiers: the elements of a list, and any other value but null itself. -/
def references : Json → List Json
  | .array ids => ids
  | .null => []
  | id => [id]

/-- A document that an identifier is resolved to is an object with an equal identifier in it. -/
theorem exists_id_of_resolve {id document : Json} (h : resolve targets id = some document) :
    document ∈ targets ∧ ∃ found, document.field? idKey = some found ∧ found.same id = true := by
  obtain ⟨before, after, rfl, hid, -⟩ := resolve_eq_some_iff.mp h
  exact ⟨by simp, hasId_eq_true_iff.mp hid⟩

/-- A document that an identifier is resolved to is deeper than the identifier. -/
theorem depth_lt_of_resolve (hformed : ∀ document ∈ targets, document.WellFormed) {id document : Json}
    (h : resolve targets id = some document) : id.depth < document.depth := by
  obtain ⟨hmem, found, hfound, hsame⟩ := exists_id_of_resolve h
  calc id.depth
      ≤ found.depth := Json.depth_le_of_same ((hformed document hmem).of_field? hfound) hsame
    _ < document.depth := Json.depth_lt_of_field? hfound

/-- The references of an expanded value are the documents that the references of the value are resolved to. -/
theorem references_expandValue (value : Json) :
    references (expandValue targets value) = (references value).filterMap (resolve targets) := by
  have hsingle (id : Json) : references ((resolve targets id).getD .null) = [id].filterMap (resolve targets) := by
    cases hresolve : resolve targets id with
    | none => simp [references, hresolve]
    | some document =>
      obtain ⟨-, found, hfound, -⟩ := exists_id_of_resolve hresolve
      have hreferences : references document = [document] := by
        rw [Json.eq_object_of_field? hfound]
        rfl
      simp [hreferences, hresolve]
  cases value with
  | array ids => rfl
  | null => rfl
  | _ => exact hsingle _

/-- The references of a value that is expanded several times are resolved as often. -/
theorem references_iterate_expandValue (times : Nat) (value : Json) :
    references ((expandValue targets)^[times] value) = (List.filterMap (resolve targets))^[times] (references value) :=
  Function.Semiconj.iterate_right (f := references) references_expandValue times value

/-- Whatever is resolved several times is deeper each time. -/
theorem le_depth_of_mem_iterate_resolve (hformed : ∀ document ∈ targets, document.WellFormed) {ids : List Json}
    {bound : Nat} (hbound : ∀ id ∈ ids, bound ≤ id.depth) (times : Nat) :
    ∀ found ∈ (List.filterMap (resolve targets))^[times] ids, bound + times ≤ found.depth := by
  induction times with
  | zero => exact hbound
  | succ times ih =>
    intro found hfound
    rw [Function.iterate_succ_apply'] at hfound
    obtain ⟨id, hid, hresolve⟩ := List.mem_filterMap.mp hfound
    have hless := depth_lt_of_resolve hformed hresolve
    have hdepth := ih id hid
    omega

/-- No list of references comes back when it is resolved again and again, unless it is empty. -/
theorem eq_nil_of_iterate_resolve_eq (hformed : ∀ document ∈ targets, document.WellFormed) {ids : List Json}
    {times : Nat} (h : (List.filterMap (resolve targets))^[times + 1] ids = ids) : ids = [] := by
  by_contra hne
  -- the least deep of the references would not be among deeper ones
  obtain ⟨least, hleast, hmin⟩ := (measure Json.depth).wf.has_min {id | id ∈ ids} (List.exists_mem_of_ne_nil ids hne)
  have hbound : ∀ id ∈ ids, least.depth ≤ id.depth := fun id hid => Nat.not_lt.mp (hmin id hid)
  have hdeeper := le_depth_of_mem_iterate_resolve hformed hbound (times + 1) least (h.symm ▸ hleast)
  omega

/-- What is left of a value in which nothing is resolved: a list without elements, or null. -/
def emptied : Json → Json
  | .array _ => .array []
  | _ => .null

/-- A value without references is empty. -/
theorem emptied_of_references_eq_nil {value : Json} (h : references value = []) : emptied value = value := by
  cases value with
  | array ids => rw [emptied, show ids = [] from h]
  | null => rfl
  | _ => contradiction

/-- Expanding keeps lists apart from other values. -/
theorem emptied_expandValue (value : Json) : emptied (expandValue targets value) = emptied value := by
  have hsingle (id : Json) : emptied ((resolve targets id).getD .null) = .null := by
    cases hresolve : resolve targets id with
    | none => rfl
    | some document =>
      obtain ⟨-, found, hfound, -⟩ := exists_id_of_resolve hresolve
      rw [Option.getD_some, Json.eq_object_of_field? hfound]
      rfl
  cases value with
  | array ids => rfl
  | null => rfl
  | _ => exact hsingle _

/-- So does expanding several times. -/
theorem emptied_iterate_expandValue (times : Nat) (value : Json) :
    emptied ((expandValue targets)^[times] value) = emptied value := by
  induction times with
  | zero => rfl
  | succ times ih => rw [Function.iterate_succ_apply', emptied_expandValue, ih]

/-- A value whose references are all lost in several expansions is empty after them. -/
theorem iterate_expandValue_eq_emptied {times : Nat} {value : Json}
    (h : (List.filterMap (resolve targets))^[times] (references value) = []) :
    (expandValue targets)^[times] value = emptied value := by
  rw [← references_iterate_expandValue] at h
  rw [← emptied_of_references_eq_nil h, emptied_iterate_expandValue]

/-- Where no reference is resolved, none is resolved later either. -/
theorem iterate_resolve_eq_nil {ids : List Json} (h : ids.filterMap (resolve targets) = []) (times : Nat) :
    (List.filterMap (resolve targets))^[times + 1] ids = [] := by
  rw [Function.iterate_succ_apply, h]
  exact Function.iterate_fixed rfl times

/-- Expanding a value a second time or more often changes what the first time has made of it, unless nothing in it was
resolved. -/
theorem iterate_expandValue_eq_iff (hformed : ∀ document ∈ targets, document.WellFormed) (times : Nat) (value : Json) :
    (expandValue targets)^[times + 2] value = expandValue targets value ↔
      ∀ id ∈ references value, resolve targets id = none := by
  rw [← List.filterMap_eq_nil_iff]
  constructor
  · intro h
    have hreferences := congrArg references h
    rw [references_iterate_expandValue, references_expandValue, Function.iterate_succ_apply] at hreferences
    exact eq_nil_of_iterate_resolve_eq hformed hreferences
  · intro h
    rw [iterate_expandValue_eq_emptied (iterate_resolve_eq_nil h (times + 1))]
    exact (iterate_expandValue_eq_emptied (iterate_resolve_eq_nil h 0)).symm

/-- Where no document of a collection is an identifier in it, a value that is expanded twice or more often is empty. -/
theorem iterate_expandValue_of_plain (hplain : ∀ document ∈ targets, resolve targets document = none) (times : Nat)
    (value : Json) : (expandValue targets)^[times + 2] value = emptied value := by
  apply iterate_expandValue_eq_emptied
  rw [Function.iterate_succ_apply]
  apply iterate_resolve_eq_nil
  rw [List.filterMap_eq_nil_iff]
  intro document hdocument
  obtain ⟨id, -, hresolve⟩ := List.mem_filterMap.mp hdocument
  exact hplain document (exists_id_of_resolve hresolve).1

/-- Expanding a well-formed document along different names gives the same document when it gives the same fields. -/
theorem expand_eq_expand_iff {document : Json} (h : document.WellFormed) (names others : List String) :
    expand relations documents names document = expand relations documents others document ↔
      ∀ field, (expand relations documents names document).field? field =
        (expand relations documents others document).field? field := by
  constructor
  · intro heq field
    rw [heq]
  · intro hfields
    cases document with
    | object fields =>
      have hkeys (names : List String) : Keyed.keys (names.foldl (expandField relations documents) fields) =
          Keyed.keys fields := keys_expand names (.object fields)
      refine congrArg Json.object (Keyed.eq_of_keys_of_get? ?_ ((hkeys names).trans (hkeys others).symm) hfields)
      rw [hkeys]
      exact h.1
    | _ => rfl

/-- Among the first occurrences of names each of them is there once. -/
theorem count_eraseDups (names : List String) (name : String) :
    names.eraseDups.count name = min 1 (names.count name) := by
  by_cases hmem : name ∈ names
  · have hpos := List.count_pos_iff.mpr hmem
    rw [List.count_eq_one_of_mem (Keyed.nodup_eraseDups names) (List.mem_eraseDups.mpr hmem)]
    omega
  · rw [List.count_eq_zero_of_not_mem hmem, List.count_eq_zero_of_not_mem (mt List.mem_eraseDups.mp hmem)]
    rfl

/-- Expanding a field again changes what was resolved. Expanding a document along names, some of them given several
times, gives what the first occurrences of the names give exactly when no field that is named again holds an identifier
of a document. Where the documents of the target collection are no identifiers themselves, nothing is left of a field
that is named again: a list has no elements, and any other value is null. -/
theorem expanding_again_changes_what_was_resolved (store : Store) (relations : Keyed String)
    (hstored : ∀ name, ∀ document ∈ store.collection name, document.WellFormed) {document : Json}
    (hdocument : document.WellFormed) (names : List String) :
    let expanded := expand relations store.documents names document
    (expanded = expand relations store.documents names.eraseDups document ↔
      ∀ field target value, 1 < names.count field → Keyed.get? relations field = some target →
        document.field? field = some value →
        ∀ id ∈ references value, ∀ found, ¬ Names (store.collection target) id found) ∧
    ∀ field target value, 1 < names.count field → Keyed.get? relations field = some target →
      document.field? field = some value →
      (∀ stored ∈ store.collection target, ∀ found, ¬ Names (store.collection target) stored found) →
      expanded.field? field = some (emptied value) := by
  intro expanded
  have hfield {field target : String} {value : Json} (hrelation : Keyed.get? relations field = some target)
      (hvalue : document.field? field = some value) (names : List String) :
      (expand relations store.documents names document).field? field =
        some ((expandValue (store.collection target))^[names.count field] value) := by
    rw [field?_expand_of_related hrelation, hvalue]
    rfl
  simp only [← resolve_eq_none_iff]
  refine ⟨⟨fun heq field target value hcount hrelation hvalue => ?_, fun h => ?_⟩,
    fun field target value hcount hrelation hvalue hplain => ?_⟩
  · obtain ⟨times, htimes⟩ := Nat.exists_eq_add_of_le' hcount
    have hvalues := congrArg (Json.field? · field) heq
    simp only [expanded, hfield hrelation hvalue, count_eraseDups, htimes] at hvalues
    exact (iterate_expandValue_eq_iff (hstored target) times value).mp (Option.some.inj hvalues)
  · refine (expand_eq_expand_iff hdocument names names.eraseDups).mpr fun field => ?_
    cases hrelation : Keyed.get? relations field with
    | none => rw [field?_expand_of_not_related hrelation, field?_expand_of_not_related hrelation]
    | some target =>
      cases hvalue : document.field? field with
      | none => rw [field?_expand, field?_expand, hvalue, Option.map_none, Option.map_none]
      | some value =>
        rw [hfield hrelation hvalue, hfield hrelation hvalue, count_eraseDups]
        by_cases hcount : 1 < names.count field
        · obtain ⟨times, htimes⟩ := Nat.exists_eq_add_of_le' hcount
          rw [htimes, Nat.min_eq_left (by omega)]
          exact congrArg _
            ((iterate_expandValue_eq_iff (hstored target) times value).mpr (h field target value hcount hrelation hvalue))
        · rw [Nat.min_eq_right (Nat.not_lt.mp hcount)]
  · obtain ⟨times, htimes⟩ := Nat.exists_eq_add_of_le' hcount
    rw [hfield hrelation hvalue, htimes]
    exact congrArg _ (iterate_expandValue_of_plain hplain times value)

/-- A missing editor can be named twice, and an author that is there cannot. -/
theorem expand_author_and_missing_editor_again :
    let ann : Json := .object [(idKey, .text "a"), ("name", .text "Ann")]
    let store : Store := { ids := fun _ => "", documents := [("authors", [ann])] }
    let relations : Keyed String := [("author", "authors"), ("editor", "authors")]
    let note : Json := .object [("author", .text "a"), ("editor", .text "b")]
    expand relations store.documents ["editor", "author", "editor"] note =
        expand relations store.documents ["editor", "author"] note ∧
      (expand relations store.documents ["author", "editor", "author"] note).field? "author" = some .null := by
  intro ann store relations note
  have hstored : ∀ name, ∀ document ∈ store.collection name, document.WellFormed := by
    intro name document hdocument
    rw [Store.collection, Keyed.get?_cons] at hdocument
    split at hdocument
    · obtain rfl := List.mem_singleton.mp hdocument
      exact ⟨by decide, trivial, trivial, trivial⟩
    · exact absurd hdocument List.not_mem_nil
  have hnote : note.WellFormed := ⟨by decide, trivial, trivial, trivial⟩
  obtain ⟨heditor, -⟩ := expanding_again_changes_what_was_resolved store relations hstored hnote
    ["editor", "author", "editor"]
  obtain ⟨-, hauthor⟩ := expanding_again_changes_what_was_resolved store relations hstored hnote
    ["author", "editor", "author"]
  constructor
  · refine heditor.mpr fun field target value hcount hrelation hvalue id hid => ?_
    by_cases hfield : field = "editor"
    · subst hfield
      obtain rfl := Option.some.inj hvalue
      obtain rfl := Option.some.inj hrelation
      obtain rfl := List.mem_singleton.mp hid
      exact resolve_eq_none_iff.mp rfl
    · -- any other field is named at most once
      simp [List.count_cons, Ne.symm hfield] at hcount
      split at hcount <;> omega
  · refine hauthor "author" "authors" (.text "a") (by decide) rfl rfl fun stored hmem => ?_
    obtain rfl := List.mem_singleton.mp hmem
    exact resolve_eq_none_iff.mp rfl

/-- The author of a note is shown when the field is named once, and is null when it is named twice. -/
theorem author_named_twice_is_lost :
    let ann : Json := .object [(idKey, .text "a"), ("name", .text "Ann")]
    let documents : Keyed (List Json) := [("authors", [ann])]
    let note : Json := .object [(idKey, .text "n"), ("author", .text "a")]
    let expanded (names : List String) := expand [("author", "authors")] documents names note
    expanded ["author", "author"].eraseDups = .object [(idKey, .text "n"), ("author", ann)] ∧
      expanded ["author", "author"] = .object [(idKey, .text "n"), ("author", .null)] ∧
      expanded ["author", "author"] ≠ expanded ["author", "author"].eraseDups := by
  intro ann documents note expanded
  have honce : expanded ["author", "author"].eraseDups = .object [(idKey, .text "n"), ("author", ann)] := rfl
  have htwice : expanded ["author", "author"] = .object [(idKey, .text "n"), ("author", .null)] := rfl
  refine ⟨honce, htwice, ?_⟩
  rw [honce, htwice]
  simp [ann]

end Expansion

end Listing
