import Listing.Proofs.PresentedDocuments

/-!
# What takes the place of references

An identifier names the first document of a collection that has it, so the one that was inserted first. Expanding a
field puts the named documents, as they are stored, in the place of the identifiers. It reads its own field and the
stored documents, and it writes its own field, so the order in which fields are expanded is of no importance.
-/

namespace Listing

/-- Values that are put in the places of two keys can be put there in either order, if one of them is there already. -/
theorem Keyed.insert_comm {α : Type u} {entries : Keyed α} {key other : String} (hne : key ≠ other)
    (hkey : key ∈ keys entries) (value otherValue : α) :
    insert (insert entries key value) other otherValue = insert (insert entries other otherValue) key value := by
  induction entries with
  | nil => simp [keys] at hkey
  | cons entry rest ih =>
    obtain ⟨k, v⟩ := entry
    by_cases hfirst : k = key
    · subst hfirst
      simp [insert, hne]
    · have hrest : key ∈ keys rest := by simpa [keys, Ne.symm hfirst] using hkey
      by_cases hsecond : k = other
      · subst hsecond
        simp [insert, hfirst]
      · simp [insert, hfirst, hsecond, ih hrest]

namespace Expansion

variable {relations : Keyed String} {documents : Keyed (List Json)} {targets : List Json}

/-- An identifier names the first document that has it, up to the order of keys inside objects. -/
def Names (targets : List Json) (id document : Json) : Prop :=
  ∃ before after, targets = before ++ document :: after ∧ hasId id document = true ∧
    ∀ other ∈ before, hasId id other = false

/-- Some identifiers name these documents in their order, those that name none being left out. -/
inductive NamesAll (targets : List Json) : List Json → List Json → Prop where
  | nil : NamesAll targets [] []
  | found {id document : Json} {ids found : List Json} (hid : Names targets id document)
      (hids : NamesAll targets ids found) : NamesAll targets (id :: ids) (document :: found)
  | missing {id : Json} {ids found : List Json} (hid : ∀ document, ¬ Names targets id document)
      (hids : NamesAll targets ids found) : NamesAll targets (id :: ids) found

/-- What a value becomes when it is expanded: null stays, a list becomes the documents that its elements name, and any
other value becomes the document that it names, or null when it names none. -/
inductive Becomes (targets : List Json) : Json → Json → Prop where
  | null : Becomes targets .null .null
  | list {ids found : List Json} (h : NamesAll targets ids found) : Becomes targets (.array ids) (.array found)
  | found {id document : Json} (hnull : id ≠ .null) (hlist : ∀ ids, id ≠ .array ids) (h : Names targets id document) :
      Becomes targets id document
  | missing {id : Json} (hnull : id ≠ .null) (hlist : ∀ ids, id ≠ .array ids)
      (h : ∀ document, ¬ Names targets id document) : Becomes targets id .null

/-- A document has an identifier when it has one that is the same value. -/
theorem hasId_eq_true_iff {id document : Json} :
    hasId id document = true ↔ ∃ found, document.field? idKey = some found ∧ found.same id = true := by
  rw [hasId, Option.any_eq_true]

/-- An identifier is resolved to the document that it names. -/
theorem resolve_eq_some_iff {id document : Json} : resolve targets id = some document ↔ Names targets id document := by
  simp only [resolve, List.find?_eq_some_iff_append, Names, Bool.not_eq_true']
  constructor
  · rintro ⟨hid, before, after, htargets, hbefore⟩
    exact ⟨before, after, htargets, hid, hbefore⟩
  · rintro ⟨before, after, htargets, hid, hbefore⟩
    exact ⟨hid, before, after, htargets, hbefore⟩

/-- An identifier is not resolved when it names no document. -/
theorem resolve_eq_none_iff {id : Json} : resolve targets id = none ↔ ∀ document, ¬ Names targets id document := by
  simp only [Option.eq_none_iff_forall_ne_some, ne_eq, resolve_eq_some_iff]

/-- Of some identifiers those that name a document are resolved. -/
theorem namesAll_iff {ids found : List Json} : NamesAll targets ids found ↔ found = ids.filterMap (resolve targets) := by
  constructor
  · intro h
    induction h with
    | nil => rfl
    | found hid _ ih => rw [List.filterMap_cons_some (resolve_eq_some_iff.mpr hid), ih]
    | missing hid _ ih => rw [List.filterMap_cons_none (resolve_eq_none_iff.mpr hid), ih]
  · rintro rfl
    induction ids with
    | nil => exact .nil
    | cons id ids ih =>
      cases hid : resolve targets id with
      | none =>
        rw [List.filterMap_cons_none hid]
        exact .missing (resolve_eq_none_iff.mp hid) ih
      | some document =>
        rw [List.filterMap_cons_some hid]
        exact .found (resolve_eq_some_iff.mp hid) ih

/-- A value that is neither null nor a list is replaced by the document that it names, or by null. -/
theorem expandValue_of_single {value : Json} (hnull : value ≠ .null) (hlist : ∀ ids, value ≠ .array ids) :
    expandValue targets value = (resolve targets value).getD .null := by
  cases value with
  | null => contradiction
  | array ids => exact absurd rfl (hlist ids)
  | _ => rfl

/-- Expanding a value gives what it becomes. -/
theorem becomes_iff {value result : Json} : Becomes targets value result ↔ result = expandValue targets value := by
  constructor
  · intro h
    cases h with
    | null => rfl
    | list h => rw [expandValue, namesAll_iff.mp h]
    | found hnull hlist h => rw [expandValue_of_single hnull hlist, resolve_eq_some_iff.mpr h, Option.getD_some]
    | missing hnull hlist h => rw [expandValue_of_single hnull hlist, resolve_eq_none_iff.mpr h, Option.getD_none]
  · rintro rfl
    by_cases hnull : value = .null
    · subst hnull
      exact .null
    · by_cases hlist : ∃ ids, value = .array ids
      · obtain ⟨ids, rfl⟩ := hlist
        exact .list (namesAll_iff.mpr rfl)
      · have hlist (ids : List Json) : value ≠ .array ids := fun heq => hlist ⟨ids, heq⟩
        rw [expandValue_of_single hnull hlist]
        cases hresolve : resolve targets value with
        | none => exact .missing hnull hlist (resolve_eq_none_iff.mp hresolve)
        | some document => exact .found hnull hlist (resolve_eq_some_iff.mp hresolve)

/-- Expanding a field that is there writes what its value is expanded to in its place. -/
theorem expandField_of_get? {fields : Keyed Json} {name : String} {value : Json}
    (h : Keyed.get? fields name = some value) :
    expandField relations documents fields name =
      Keyed.insert fields name (expandOnce relations documents name value) := by
  rw [expandField, expandOnce, h]
  cases Keyed.get? relations name with
  | none => exact (Keyed.insert_of_get? h).symm
  | some target => rfl

/-- Expanding a field that is not there changes nothing. -/
theorem expandField_of_get?_eq_none {fields : Keyed Json} {name : String} (h : Keyed.get? fields name = none) :
    expandField relations documents fields name = fields := by
  rw [expandField, h]
  cases Keyed.get? relations name <;> rfl

/-- Two fields can be expanded in either order. -/
theorem expandField_comm (fields : Keyed Json) (name other : String) :
    expandField relations documents (expandField relations documents fields name) other =
      expandField relations documents (expandField relations documents fields other) name := by
  by_cases heq : name = other
  · rw [heq]
  · cases hname : Keyed.get? fields name with
    | none =>
      have hafter : Keyed.get? (expandField relations documents fields other) name = none := by
        rw [get?_expandField, if_neg (Ne.symm heq), hname]
      rw [expandField_of_get?_eq_none hname, expandField_of_get?_eq_none hafter]
    | some value =>
      cases hother : Keyed.get? fields other with
      | none =>
        have hafter : Keyed.get? (expandField relations documents fields name) other = none := by
          rw [get?_expandField, if_neg heq, hother]
        rw [expandField_of_get?_eq_none hother, expandField_of_get?_eq_none hafter]
      | some otherValue =>
        have hkey : name ∈ Keyed.keys fields := List.mem_map_of_mem (Keyed.mem_of_get? hname)
        rw [expandField_of_get? hname, expandField_of_get? hother,
          expandField_of_get? (by rwa [Keyed.get?_insert, if_neg heq]),
          expandField_of_get? (by rwa [Keyed.get?_insert, if_neg (Ne.symm heq)])]
        exact Keyed.insert_comm heq hkey _ _

/-- The order in which fields are expanded is of no importance. -/
theorem expand_eq_of_perm {names others : List String} (h : others.Perm names) (document : Json) :
    expand relations documents others document = expand relations documents names document := by
  cases document with
  | object fields =>
    exact congrArg Json.object (h.foldl_eq' (fun name _ other _ written => expandField_comm written name other) fields)
  | _ => rfl

/-- A value without fields has nothing to expand. -/
theorem expand_of_fields_eq_nil {document : Json} (h : document.fields = []) (names : List String) :
    expand relations documents names document = document := by
  cases document with
  | object fields =>
    rw [show fields = [] from h, expand]
    induction names with
    | nil => rfl
    | cons name names ih => rwa [List.foldl_cons, expandField_of_get?_eq_none (Keyed.get?_nil name)]
  | _ => rfl

/-- A field that refers to nothing is left as it is. -/
theorem field?_expand_of_not_related {field : String} (h : Keyed.get? relations field = none) (names : List String)
    (document : Json) : (expand relations documents names document).field? field = document.field? field := by
  have hid : expandOnce relations documents field = id := by
    funext value
    rw [expandOnce, h]
    rfl
  rw [field?_expand, hid, Function.iterate_id, Option.map_id]
  rfl

/-- The value of a field that refers to a collection is expanded as often as the field is named. -/
theorem field?_expand_of_related {field target : String} (h : Keyed.get? relations field = some target)
    (names : List String) (document : Json) :
    (expand relations documents names document).field? field =
      (document.field? field).map (expandValue ((Keyed.get? documents target).getD []))^[names.count field] := by
  have honce : expandOnce relations documents field = expandValue ((Keyed.get? documents target).getD []) := by
    funext value
    rw [expandOnce, h]
  rw [field?_expand, honce]

/-- Expansion is exact, and the names are independent. When each name is given once, an expanded document has the keys
of the document in their order. A field that is not named, refers to nothing or is not there is left as it is, and any
other becomes what the stored documents of its target collection make of it, and nothing else. Another
order of the names gives the same document. -/
theorem expand_puts_named_documents (store : Store) (relations : Keyed String) {names : List String}
    (hnames : names.Nodup) (document : Json) :
    let expanded := expand relations store.documents names document
    Keyed.keys expanded.fields = Keyed.keys document.fields ∧
    (document.fields = [] → expanded = document) ∧
    (∀ field, field ∉ names ∨ Keyed.get? relations field = none ∨ document.field? field = none →
      expanded.field? field = document.field? field) ∧
    (∀ field ∈ names, ∀ target value, Keyed.get? relations field = some target → document.field? field = some value →
      ∃ result, expanded.field? field = some result ∧
        ∀ other, Becomes (store.collection target) value other ↔ other = result) ∧
    ∀ others, others.Perm names → expand relations store.documents others document = expanded := by
  intro expanded
  refine ⟨keys_expand names document, fun h => expand_of_fields_eq_nil h names, fun field h => ?_,
    fun field hfield target value hrelation hvalue => ?_, fun others h => expand_eq_of_perm h document⟩
  · rcases h with hnamed | hrelation | hvalue
    · exact field?_expand_of_not_mem hnamed document
    · exact field?_expand_of_not_related hrelation names document
    · rw [field?_expand, hvalue, Option.map_none]
  · refine ⟨expandValue (store.collection target) value, ?_, fun other => becomes_iff⟩
    rw [field?_expand_of_related hrelation, List.count_eq_one_of_mem hnames hfield, hvalue]
    rfl

/-- A note with two authors of one identifier gets the first one of them, stored authors are not expanded themselves, and
of its editors those that are missing are left out. -/
theorem expand_of_note_with_authors :
    let author (name : String) : Json := .object [(idKey, .text "a"), ("name", .text name), ("friend", .text "a")]
    let store : Store := { ids := fun _ => "", documents := [("authors", [author "Ann", author "Bob"])] }
    let relations : Keyed String := [("author", "authors"), ("editors", "authors"), ("friend", "authors")]
    let note : Json := .object [("author", .text "a"), ("text", .text "a"), ("editors", .array [.null, .text "a"])]
    let expanded := expand relations store.documents ["author", "editors", "text"] note
    expanded.field? "author" = some (author "Ann") ∧ expanded.field? "text" = some (.text "a") ∧
      expanded.field? "editors" = some (.array [author "Ann"]) ∧
      expand relations store.documents ["text", "editors", "author"] note = expanded := by
  intro author store relations note expanded
  obtain ⟨-, -, hleft, hmade, horder⟩ :=
    expand_puts_named_documents store relations (by decide : ["author", "editors", "text"].Nodup) note
  have hann : Names (store.collection "authors") (.text "a") (author "Ann") :=
    ⟨[], [author "Bob"], rfl, rfl, fun _ h => absurd h List.not_mem_nil⟩
  have hnull : ∀ document, ¬ Names (store.collection "authors") .null document := resolve_eq_none_iff.mp rfl
  obtain ⟨result, hauthor, hresult⟩ := hmade "author" (by decide) "authors" (.text "a") rfl rfl
  obtain ⟨editors, heditors, hlist⟩ := hmade "editors" (by decide) "authors" _ rfl rfl
  refine ⟨?_, hleft "text" (.inr (.inl rfl)), ?_, horder _ (by decide)⟩
  · rw [hauthor, ← (hresult (author "Ann")).mp (.found nofun nofun hann)]
  · rw [heditors, ← (hlist (.array [author "Ann"])).mp (.list (.missing hnull (.found hann .nil)))]

end Expansion

end Listing
