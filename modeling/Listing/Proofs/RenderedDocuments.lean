import Listing.Proofs.FieldNames
import Listing.Proofs.FilterGrammar
import Listing.Proofs.OverrideMeaning

/-!
# Accepted filters written out and read again

An accepted filter document is rarely written the way its filter is written out: operators on one
field come apart, `$eq` disappears into plain equality, and a conjunction stays only where its parts
share a key. What is written out is in a normal form, though, and the normal form is inside the
grammar. Reading an entry in normal form gives a filter that is written out as that entry, so a
second round changes nothing. Only the depth can be in the way, because a conjunction that is
written out may be one level deeper than the conditions it came from.
-/

namespace Listing.Override

/-- An entry that is written out for an accepted filter: a scalar or a single operator other than
equality on a field, or a combination of such entries. A conjunction only stands where its documents
could not be put side by side. -/
inductive IsNormal : String × Json → Prop where
  | scalar {field : String} {operand : Json} (hname : field ≠ "") (hoperator : Path.isOperator field = false)
      (hscalar : operand.isScalar = true) : IsNormal (field, operand)
  | test {field operator : String} {operand : Json} (hname : field ≠ "")
      (hoperator : Path.isOperator field = false) (htest : IsTest (operator, operand)) (hne : operator ≠ "$eq") :
      IsNormal (field, .single operator operand)
  | any {documents : List (Keyed Json)} (hsome : documents ≠ [])
      (hdistinct : ∀ fields ∈ documents, (Keyed.keys fields).Nodup)
      (hentries : ∀ fields ∈ documents, ∀ entry ∈ fields, IsNormal entry) :
      IsNormal ("$or", .array (documents.map .object))
  | all {documents : List (Keyed Json)} (hrepeated : ¬ (Keyed.keys documents.flatten).Nodup)
      (hdistinct : ∀ fields ∈ documents, (Keyed.keys fields).Nodup)
      (hentries : ∀ fields ∈ documents, ∀ entry ∈ fields, IsNormal entry) :
      IsNormal ("$and", .array (documents.map .object))

/-- The entries of a document that is written out for an accepted filter: each of them in normal form, and
no key twice. -/
structure IsNormalDocument (fields : Keyed Json) : Prop where
  /-- No key repeats. -/
  distinct : (Keyed.keys fields).Nodup
  /-- Every entry is in normal form. -/
  normal : ∀ entry ∈ fields, IsNormal entry

/-- A single entry in normal form is a document. -/
theorem IsNormal.isNormalDocument {entry : String × Json} (h : IsNormal entry) : IsNormalDocument [entry] :=
  ⟨List.nodup_singleton _, List.forall_mem_singleton.mpr h⟩

/-! ### Writing out -/

/-- Merging documents in normal form gives one, whether or not they share a key. -/
theorem isNormalDocument_mergeEntries {documents : List (Keyed Json)}
    (h : ∀ fields ∈ documents, IsNormalDocument fields) : IsNormalDocument (Filter.mergeEntries documents) := by
  rw [Filter.mergeEntries]
  split
  · next hdistinct =>
    refine ⟨hdistinct, fun entry hentry => ?_⟩
    obtain ⟨fields, hfields, hentry⟩ := List.mem_flatten.mp hentry
    exact (h fields hfields).normal entry hentry
  · next hrepeated =>
    exact (IsNormal.all hrepeated (fun fields hfields => (h fields hfields).distinct)
      fun fields hfields => (h fields hfields).normal).isNormalDocument

/-- A conjunction is written out in normal form when its filters are. -/
theorem isNormalDocument_all {filters : List Filter} (h : ∀ filter ∈ filters, IsNormalDocument filter.entries) :
    IsNormalDocument (Filter.all filters).entries := by
  rw [Filter.entries, Filter.entriesOfAll_eq_map]
  exact isNormalDocument_mergeEntries (List.forall_mem_map.mpr h)

/-- So is a conjunction that may be left out around one filter. -/
theorem isNormalDocument_conjoin {filters : List Filter} (h : ∀ filter ∈ filters, IsNormalDocument filter.entries) :
    IsNormalDocument (Filter.conjoin filters).entries := by
  rw [Filter.conjoin.eq_def]
  split
  · exact h _ List.mem_cons_self
  · exact isNormalDocument_all h

/-- A disjunction of at least one filter is written out in normal form when its filters are. -/
theorem isNormalDocument_any {filters : List Filter} (hsome : filters ≠ [])
    (h : ∀ filter ∈ filters, IsNormalDocument filter.entries) : IsNormalDocument (Filter.any filters).entries := by
  rw [Filter.entries, Filter.entriesOfAll_eq_map]
  exact (IsNormal.any (by simpa using hsome) (List.forall_mem_map.mpr fun filter hfilter => (h filter hfilter).distinct)
    (List.forall_mem_map.mpr fun filter hfilter => (h filter hfilter).normal)).isNormalDocument

/-- A scalar stays as it is when it is written out. -/
theorem equalityCondition_of_isScalar {operand : Json} (h : operand.isScalar = true) :
    Filter.equalityCondition operand = operand := by
  cases operand with
  | object fields => contradiction
  | _ => rfl

variable {field operator : String} {operand : Json} {filter : Filter}

/-- An operator other than equality is written out as it is. -/
theorem Tests.entries_eq (h : Tests field operator operand filter) (hne : operator ≠ "$eq") :
    filter.entries = [(field, .single operator operand)] := by
  cases h with
  | eq => exact absurd rfl hne
  | compare => rfl
  | membership => rfl

/-- An operator on a field is written out in normal form, equality without the operator. -/
theorem Tests.isNormalDocument (hname : field ≠ "") (hoperator : Path.isOperator field = false)
    (h : Tests field operator operand filter) : IsNormalDocument filter.entries := by
  have htest : IsTest (operator, operand) := isTest_iff_exists_tests.mpr ⟨filter, h⟩
  cases h with
  | eq hscalar =>
    rw [Filter.entries, equalityCondition_of_isScalar hscalar]
    exact (IsNormal.scalar hname hoperator hscalar).isNormalDocument
  | compare op => exact (IsNormal.test hname hoperator htest (by cases op <;> decide)).isNormalDocument
  | membership kind => exact (IsNormal.test hname hoperator htest (by cases kind <;> decide)).isNormalDocument

/-- An accepted condition on a field is written out in normal form. -/
theorem ReadsField.isNormalDocument (hname : field ≠ "") (hoperator : Path.isOperator field = false)
    {condition : Json} (h : ReadsField field condition filter) : IsNormalDocument filter.entries := by
  cases h with
  | scalar hscalar =>
    rw [Filter.entries, equalityCondition_of_isScalar hscalar]
    exact (IsNormal.scalar hname hoperator hscalar).isNormalDocument
  | @operators operators filters hsome htests =>
    refine isNormalDocument_conjoin fun part hpart => ?_
    obtain ⟨entry, -, hread⟩ := Outcome.exists_of_mem_results (mapM_condition_eq_ok_iff.mpr htests) hpart
    exact (condition_eq_ok_iff.mp hread).isNormalDocument hname hoperator

/-- Every clause of an accepted document is written out in normal form. -/
theorem Reads.isNormalDocument {nesting : Nat} {fields : List (String × Json)} {found : List Clause}
    (h : Reads nesting fields found) : ∀ clause ∈ found, IsNormalDocument clause.2.entries := by
  induction h with
  | nil => simp
  | @combination nesting operator combine parts rest others hcombine hsome _ _ _ hparts hrest =>
    have hfilters : ∀ filter ∈ parts.map fun part => partFilter part.2, IsNormalDocument filter.entries :=
      List.forall_mem_map.mpr fun part hpart =>
        isNormalDocument_conjoin (List.forall_mem_map.mpr (hparts part hpart))
    refine List.forall_mem_cons.mpr ⟨?_, hrest⟩
    cases hcombine with
    | all => exact isNormalDocument_all hfilters
    | any => exact isNormalDocument_any (by simpa using hsome) hfilters
  | field hname hoperator hfield _ hrest =>
    exact List.forall_mem_cons.mpr ⟨hfield.isNormalDocument hname hoperator, hrest⟩

/-! ### Reading again -/

/-- Filters that are written out as the entries of a document with distinct keys make up a conjunction that
is written out as the document. -/
theorem entries_all_of_singletons {filters : List Filter} {fields : Keyed Json}
    (h : filters.map Filter.entries = fields.map fun entry => [entry]) (hdistinct : (Keyed.keys fields).Nodup) :
    (Filter.all filters).entries = fields := by
  have hflatten : (fields.map fun entry => [entry]).flatten = fields := by
    rw [← List.flatMap_def]
    exact List.flatMap_singleton' fields
  rw [Filter.entries, Filter.entriesOfAll_eq_map, h, Filter.mergeEntries, hflatten, if_pos hdistinct]

/-- The same holds of a conjunction that may be left out around one filter. -/
theorem entries_conjoin_of_singletons {filters : List Filter} {fields : Keyed Json}
    (h : filters.map Filter.entries = fields.map fun entry => [entry]) (hdistinct : (Keyed.keys fields).Nodup) :
    (Filter.conjoin filters).entries = fields := by
  rw [Filter.conjoin.eq_def]
  split
  · next filter =>
    obtain ⟨entry, rfl⟩ : ∃ entry, fields = [entry] := by
      have hlength : fields.length = 1 := by simpa using (congrArg List.length h).symm
      exact List.length_eq_one_iff.mp hlength
    simpa using h
  · exact entries_all_of_singletons h hdistinct

/-- Whatever is in normal form is in the grammar, with as many levels as it takes. -/
theorem IsNormal.exists_isEntry {entry : String × Json} (h : IsNormal entry) : ∃ levels, IsEntry levels entry := by
  -- the entries of all the documents in a combination need a common number of levels
  have combine {operator : String} {documents : List (Keyed Json)} (hoperator : operator = "$and" ∨ operator = "$or")
      (hsome : documents ≠ []) (h : ∀ fields ∈ documents, ∀ entry ∈ fields, ∃ levels, IsEntry levels entry) :
      ∃ levels, IsEntry levels (operator, .array (documents.map .object)) := by
    have hflatten : ∀ entry ∈ documents.flatten, ∃ levels, IsEntry levels entry := fun entry hentry => by
      obtain ⟨fields, hfields, hentry⟩ := List.mem_flatten.mp hentry
      exact h fields hfields entry hentry
    obtain ⟨levels, hlevels⟩ := exists_isDocument hflatten
    exact ⟨levels + 1, .combination hoperator hsome fun fields hfields entry hentry =>
      hlevels entry (List.mem_flatten.mpr ⟨fields, hfields, hentry⟩)⟩
  induction h with
  | scalar hname hoperator hscalar => exact ⟨0, .field hname hoperator (.scalar hscalar)⟩
  | test hname hoperator htest =>
    exact ⟨0, .field hname hoperator (.operators (List.cons_ne_nil _ _) (List.forall_mem_singleton.mpr htest))⟩
  | any hsome _ _ ih => exact combine (.inr rfl) hsome ih
  | all hrepeated _ _ ih =>
    exact combine (.inl rfl) (fun hnil => hrepeated (hnil ▸ List.nodup_nil)) ih

/-- An entry in normal form with a list as its value is a combination. -/
theorem IsNormal.of_array {elements : List Json} (h : IsNormal (operator, .array elements)) :
    ∃ documents : List (Keyed Json), elements = documents.map .object ∧
      (∀ fields ∈ documents, IsNormalDocument fields) ∧
      (operator = "$or" ∨ operator = "$and" ∧ ¬ (Keyed.keys documents.flatten).Nodup) := by
  cases h with
  | scalar _ _ hscalar => contradiction
  | @any documents hsome hdistinct hentries =>
    exact ⟨documents, rfl, fun fields hfields => ⟨hdistinct fields hfields, hentries fields hfields⟩, .inl rfl⟩
  | @all documents hrepeated hdistinct hentries =>
    exact ⟨documents, rfl, fun fields hfields => ⟨hdistinct fields hfields, hentries fields hfields⟩,
      .inr ⟨rfl, hrepeated⟩⟩

/-- A condition in normal form is written out as it is read. -/
theorem ReadsField.entries_eq {condition : Json} (h : ReadsField field condition filter)
    (hoperator : Path.isOperator field = false) (hnormal : IsNormal (field, condition)) :
    filter.entries = [(field, condition)] := by
  cases h with
  | scalar hscalar => rw [Filter.entries, equalityCondition_of_isScalar hscalar]
  | @operators operators filters hsome htests =>
    cases hnormal with
    | scalar _ _ hscalar => contradiction
    | test _ _ _ hne =>
      cases htests with
      | cons htest hrest =>
        cases hrest
        exact htest.entries_eq hne

/-- A combination is written out as its entry when its filters are written out as the documents in it, and
when a conjunction is one of documents that share a key. -/
theorem Combines.entries_eq {combine : List Filter → Filter} (h : Combines operator combine)
    {filters : List Filter} {documents : List (Keyed Json)} (hfilters : filters.map Filter.entries = documents)
    (hkind : operator = "$or" ∨ operator = "$and" ∧ ¬ (Keyed.keys documents.flatten).Nodup) :
    (combine filters).entries = [(operator, .array (documents.map .object))] := by
  cases h with
  | all =>
    rcases hkind with hkind | ⟨-, hrepeated⟩
    · contradiction
    · rw [Filter.entries, Filter.entriesOfAll_eq_map, hfilters, Filter.mergeEntries, if_neg hrepeated]
  | any => rw [Filter.entries, Filter.entriesOfAll_eq_map, hfilters]

/-- The clauses that are read from a document in normal form are written out as its entries, one by one. -/
theorem Reads.entries_eq {nesting : Nat} {fields : List (String × Json)} {found : List Clause}
    (h : Reads nesting fields found) (hnormal : ∀ entry ∈ fields, IsNormal entry) :
    (found.map Prod.snd).map Filter.entries = fields.map fun entry => [entry] := by
  induction h with
  | nil => rfl
  | @combination nesting operator combine parts rest others hcombine _ _ _ _ hparts hrest =>
    obtain ⟨hfirst, hothers⟩ := List.forall_mem_cons.mp hnormal
    obtain ⟨documents, helements, hdocuments, hkind⟩ := hfirst.of_array
    have hobjects : (parts.map fun part => Json.object part.1) = (parts.map Prod.fst).map .object :=
      (List.map_map ..).symm
    obtain rfl : parts.map Prod.fst = documents :=
      List.map_injective_iff.mpr (fun _ _ => Json.object.inj) (hobjects.symm.trans helements)
    have hfilters : (parts.map fun part => partFilter part.2).map Filter.entries = parts.map Prod.fst := by
      rw [List.map_map]
      refine List.map_congr_left fun part hpart => ?_
      have hdocument := hdocuments part.1 (List.mem_map_of_mem hpart)
      exact entries_conjoin_of_singletons (hparts part hpart hdocument.normal) hdocument.distinct
    rw [List.map_cons, List.map_cons, List.map_cons, hcombine.entries_eq hfilters hkind, hrest hothers, hobjects]
  | field _ hoperator hfield _ hrest =>
    obtain ⟨hfirst, hothers⟩ := List.forall_mem_cons.mp hnormal
    rw [List.map_cons, List.map_cons, List.map_cons, hfield.entries_eq hoperator hfirst, hrest hothers]

/-- A document in normal form is refused for its depth, or else the conjunction of its clauses is written out
as the document again. -/
theorem IsNormalDocument.tooDeep_or_entries_eq {fields : Keyed Json} (h : IsNormalDocument fields) :
    clauses 0 fields = .error .tooDeep ∨
      ∃ again, Reads 0 fields again ∧ Keyed.keys again = Keyed.keys fields ∧
        (Filter.all (again.map Prod.snd)).entries = fields := by
  cases hread : clauses 0 fields with
  | error cause =>
    obtain ⟨levels, hgrammar⟩ := exists_isDocument fun entry hentry => (h.normal entry hentry).exists_isEntry
    obtain ⟨rfl, -⟩ := hgrammar.eq_tooDeep_of_error hread
    exact .inl rfl
  | ok again =>
    have hagain : Reads 0 fields again := reads_of_clauses 0 fields hread
    exact .inr ⟨again, hagain, keys_ofJson hread, entries_all_of_singletons (hagain.entries_eq h.normal) h.distinct⟩

/-- The conjunction of the clauses of an accepted document means what it is written out as. -/
theorem Reads.entriesHold_entries {nesting : Nat} {fields : List (String × Json)} {found : List Clause}
    (h : Reads nesting fields found) (document : Json) :
    FilterDocument.entriesHold (Filter.all (found.map Prod.snd)).entries document =
      (Filter.all (found.map Prod.snd)).holds document := by
  refine FilterDocument.entriesHold_entries _ (fun field hfield => ?_) document
  rw [Filter.fields, Filter.fieldsOfAll_eq_flatMap, List.mem_flatMap] at hfield
  obtain ⟨filter, hfilter, hfield⟩ := hfield
  obtain ⟨clause, hclause, rfl⟩ := List.mem_map.mp hfilter
  exact h.not_isOperator (h.mem_fields_iff.mp ⟨clause, hclause, hfield⟩)

/-- The filter of an accepted filter document, written out, is in the grammar of filter documents for some
number of levels. So it is refused for its depth, or else it is read as a filter that is written out the
same way, down to the order of the keys, and is satisfied by the same documents. -/
theorem reread_of_written_out {text : String} {found : List Clause} (h : parse text = .ok found) :
    let filter := Constraints.filter { override := found }
    (∃ levels, IsDocument levels filter.entries) ∧
      (ofJson filter.document = .error .tooDeep ∧ Rejection.tooDeep.message = "filter is nested too deeply" ∨
        ∃ again, ofJson filter.document = .ok again ∧
          (Constraints.filter { override := again }).document = filter.document ∧
          ∀ document, (Constraints.filter { override := again }).holds document = filter.holds document) := by
  obtain ⟨fields, -, hdistinct, hkeys, hreads⟩ := parse_eq_ok h
  rw [filter_override_eq_all (hkeys ▸ hdistinct)]
  intro filter
  have hnormal : IsNormalDocument filter.entries :=
    isNormalDocument_all (List.forall_mem_map.mpr hreads.isNormalDocument)
  refine ⟨exists_isDocument fun entry hentry => (hnormal.normal entry hentry).exists_isEntry, ?_⟩
  rcases hnormal.tooDeep_or_entries_eq with hdeep | ⟨again, hagain, hkeys, hentries⟩
  · exact .inl ⟨hdeep, rfl⟩
  · have hfilter : Constraints.filter { override := again } = .all (again.map Prod.snd) := by
      refine filter_override_eq_all ?_
      rw [hkeys]
      exact hnormal.distinct
    refine .inr ⟨again, clauses_eq_ok_iff.mpr hagain, ?_, fun document => ?_⟩
    · rw [hfilter, Filter.document, hentries, Filter.document]
    · rw [hfilter, ← hagain.entriesHold_entries, hentries, hreads.entriesHold_entries]

/-- Two operators on one field inside a conjunction come apart, beside an equality whose operator disappears. -/
theorem reread_of_conjunction :
    let text :=
      "\x7b\"$and\":[\x7b\"size\":\x7b\"$gt\":\"1\",\"$lt\":\"3\"\x7d\x7d,\x7b\"colour\":\x7b\"$eq\":\"red\"\x7d\x7d]\x7d"
    let written : Json := .object
      [("$and", .array
          [.object [("size", .object [("$gt", .text "1")])], .object [("size", .object [("$lt", .text "3")])]]),
        ("colour", .text "red")]
    ∃ found again, parse text = .ok found ∧ (Constraints.filter { override := found }).document = written ∧
      ofJson written = .ok again ∧ (Constraints.filter { override := again }).document = written := by
  intro text written
  have hread : Json.parse
      "\x7b\"$and\":[\x7b\"size\":\x7b\"$gt\":\"1\",\"$lt\":\"3\"\x7d\x7d,\x7b\"colour\":\x7b\"$eq\":\"red\"\x7d\x7d]\x7d" =
      .ok (.object [("$and", .array
        [.object [("size", .object [("$gt", .text "1"), ("$lt", .text "3")])],
          .object [("colour", .object [("$eq", .text "red")])]])]) := by
    cbv
  let found : List Clause :=
    [("$and", .all [.all [.compare "size" .gt (.text "1"), .compare "size" .lt (.text "3")],
      .equals "colour" (.text "red")])]
  have hfound : parse text = .ok found := by
    rw [parse, hread]
    rfl
  have hwritten : (Constraints.filter { override := found }).document = written := by cbv
  obtain ⟨again, hagain⟩ : ∃ again, ofJson written = .ok again := ⟨_, rfl⟩
  obtain ⟨-, hreread⟩ := reread_of_written_out hfound
  rw [hwritten, hagain] at hreread
  rcases hreread with ⟨hdeep, -⟩ | ⟨other, hother, hdocument, -⟩
  · cases hdeep
  · obtain rfl := Except.ok.inj hother
    exact ⟨found, again, hfound, hwritten, hagain, hdocument⟩

end Listing.Override
