import Listing.Proofs.AcceptedDocuments
import Mathlib.Data.List.Permutation

/-!
# The grammar of filter documents

The filter documents that a request may carry form a small grammar: combinations of at least one
document, and conditions on fields by a scalar or by operators from a closed set. The grammar is
stated on JSON values alone, with a bound on how many combinations stand around any object inside,
and a text is accepted exactly when it stands for a value of the grammar within eight levels. Beyond
them a document of the grammar is refused for its depth and for nothing else.
-/

namespace Listing.Override

/-- An operator that may stand on a field, with an operand that goes with it: a scalar, or for a
membership test a list of scalars, which may be empty. -/
inductive IsTest : String × Json → Prop where
  | scalar {operator : String} {operand : Json}
      (hoperator : operator ∈ ["$eq", "$ne", "$gt", "$gte", "$lt", "$lte"]) (hscalar : operand.isScalar = true) :
      IsTest (operator, operand)
  | list {operator : String} {operands : List Json} (hoperator : operator ∈ ["$in", "$nin"])
      (hscalars : ∀ operand ∈ operands, operand.isScalar = true) : IsTest (operator, .array operands)

/-- A condition on a field: a scalar, or an object of at least one operator and nothing else. -/
inductive IsCondition : Json → Prop where
  | scalar {operand : Json} (hscalar : operand.isScalar = true) : IsCondition operand
  | operators {operators : List (String × Json)} (hsome : operators ≠ [])
      (htests : ∀ entry ∈ operators, IsTest entry) : IsCondition (.object operators)

/-- An entry of a filter document with at most the given number of combinations around any object in
its value: a combination of at least one document, or a condition on a field. -/
inductive IsEntry : Nat → String × Json → Prop where
  | combination {levels : Nat} {operator : String} {documents : List (List (String × Json))}
      (hoperator : operator = "$and" ∨ operator = "$or") (hsome : documents ≠ [])
      (hdocuments : ∀ fields ∈ documents, ∀ entry ∈ fields, IsEntry levels entry) :
      IsEntry (levels + 1) (operator, .array (documents.map .object))
  | field {levels : Nat} {field : String} {condition : Json} (hname : field ≠ "")
      (hoperator : Path.isOperator field = false) (hcondition : IsCondition condition) :
      IsEntry levels (field, condition)

/-- The entries of a filter document with at most the given number of combinations around any object
in it. -/
def IsDocument (levels : Nat) (fields : List (String × Json)) : Prop := ∀ entry ∈ fields, IsEntry levels entry

/-- An entry may have fewer combinations in it than there is room for. -/
theorem IsEntry.mono {levels more : Nat} {entry : String × Json} (h : IsEntry levels entry) (hle : levels ≤ more) :
    IsEntry more entry := by
  induction h generalizing more with
  | combination hoperator hsome _ ih =>
    obtain ⟨more, rfl⟩ := Nat.exists_eq_add_of_le' (Nat.zero_lt_of_lt hle)
    exact .combination hoperator hsome fun fields hfields entry hentry =>
      ih fields hfields entry hentry (Nat.le_of_succ_le_succ hle)
  | field hname hoperator hcondition => exact .field hname hoperator hcondition

/-- Entries that are in the grammar with levels of their own make up a document of the grammar. -/
theorem exists_isDocument {fields : List (String × Json)} (h : ∀ entry ∈ fields, ∃ levels, IsEntry levels entry) :
    ∃ levels, IsDocument levels fields := by
  induction fields with
  | nil => exact ⟨0, fun _ hentry => absurd hentry List.not_mem_nil⟩
  | cons entry rest ih =>
    obtain ⟨⟨levels, hentry⟩, hrest⟩ := List.forall_mem_cons.mp h
    obtain ⟨others, hothers⟩ := ih hrest
    exact ⟨max levels others, List.forall_mem_cons.mpr
      ⟨hentry.mono (Nat.le_max_left _ _), fun other hother => (hothers other hother).mono (Nat.le_max_right _ _)⟩⟩

/-- An operator stands for a test exactly when it is one of the grammar. -/
theorem isTest_iff_exists_tests {field operator : String} {operand : Json} :
    IsTest (operator, operand) ↔ ∃ filter, Tests field operator operand filter := by
  constructor
  · intro h
    cases h with
    | scalar hoperator hscalar =>
      simp only [List.mem_cons, List.not_mem_nil, or_false] at hoperator
      rcases hoperator with rfl | rfl | rfl | rfl | rfl | rfl
      · exact ⟨_, .eq hscalar⟩
      · exact ⟨_, .compare .ne hscalar⟩
      · exact ⟨_, .compare .gt hscalar⟩
      · exact ⟨_, .compare .gte hscalar⟩
      · exact ⟨_, .compare .lt hscalar⟩
      · exact ⟨_, .compare .lte hscalar⟩
    | list hoperator hscalars =>
      simp only [List.mem_cons, List.not_mem_nil, or_false] at hoperator
      rcases hoperator with rfl | rfl
      · exact ⟨_, .membership .isIn hscalars⟩
      · exact ⟨_, .membership .notIn hscalars⟩
  · rintro ⟨filter, h⟩
    cases h with
    | eq hscalar => exact .scalar (by simp) hscalar
    | compare op hscalar => exact .scalar (by cases op <;> simp [Comparison.operator]) hscalar
    | membership kind hscalars => exact .list (by cases kind <;> simp [Membership.operator]) hscalars

/-- A value is an accepted condition exactly when it is one of the grammar. -/
theorem isCondition_iff_exists_readsField {field : String} {value : Json} :
    IsCondition value ↔ ∃ filter, ReadsField field value filter := by
  constructor
  · intro h
    cases h with
    | scalar hscalar => exact ⟨_, .scalar hscalar⟩
    | @operators operators hsome htests =>
      have hread : ∀ entry ∈ operators, ∃ filter, condition field entry.1 entry.2 = .ok filter := fun entry hentry =>
        (isTest_iff_exists_tests.mp (htests entry hentry)).imp fun _ => condition_eq_ok_iff.mpr
      obtain ⟨filters, hfilters⟩ := Outcome.exists_mapM_eq_ok hread
      exact ⟨_, .operators hsome (mapM_condition_eq_ok_iff.mp hfilters)⟩
  · rintro ⟨filter, h⟩
    cases h with
    | scalar hscalar => exact .scalar hscalar
    | @operators operators filters hsome htests =>
      refine .operators hsome fun entry hentry => ?_
      obtain ⟨filter, -, hfilter⟩ := Outcome.exists_of_mem_values (mapM_condition_eq_ok_iff.mpr htests) hentry
      exact isTest_iff_exists_tests.mpr ⟨filter, condition_eq_ok_iff.mp hfilter⟩

/-- The documents of a combination are read one after the other. -/
theorem partList_eq_mapM (nesting : Nat) (operator : String) (documents : List Json) :
    partList nesting operator documents = documents.mapM (part nesting operator) := by
  induction documents with
  | nil => rfl
  | cons document rest ih =>
    rw [partList, List.mapM_cons, ih]
    rfl

/-- So are the entries of a document. -/
theorem clauses_eq_mapM (nesting : Nat) (fields : List (String × Json)) :
    clauses nesting fields =
      fields.mapM fun entry => (entryFilter nesting entry.1 entry.2).map (Prod.mk entry.1) := by
  induction fields with
  | nil => rfl
  | cons entry rest ih =>
    rw [clauses_cons, List.mapM_cons, ih]
    cases entryFilter nesting entry.1 entry.2 <;> rfl

/-- A document that is not read has an entry that is not. -/
theorem exists_of_clauses_eq_error {nesting : Nat} {fields : List (String × Json)} {cause : Rejection}
    (h : clauses nesting fields = .error cause) :
    ∃ entry ∈ fields, entryFilter nesting entry.1 entry.2 = .error cause := by
  rw [clauses_eq_mapM] at h
  obtain ⟨entry, hentry, h⟩ := Outcome.exists_of_mapM_eq_error h
  exact ⟨entry, hentry, Outcome.map_eq_error_iff.mp h⟩

/-- A combination that is not read has no documents or one that is not read. -/
theorem exists_of_entryFilter_eq_error {nesting : Nat} {operator : String} {documents : List Json} {cause : Rejection}
    (hoperator : operator = "$and" ∨ operator = "$or") (hsome : documents ≠ [])
    (h : entryFilter nesting operator (.array documents) = .error cause) :
    ∃ document ∈ documents, part nesting operator document = .error cause := by
  have hparts : parts nesting operator (.array documents) = .error cause := by
    rcases hoperator with rfl | rfl
    · exact Outcome.map_eq_error_iff.mp h
    · exact Outcome.map_eq_error_iff.mp h
  rw [parts, if_neg (by simpa using hsome), partList_eq_mapM] at hparts
  exact Outcome.exists_of_mapM_eq_error hparts

/-- An entry of the grammar is only refused when it has too many combinations in it, counted with those
around it. -/
theorem IsEntry.eq_tooDeep_of_error {levels nesting : Nat} {entry : String × Json} {cause : Rejection}
    (h : IsEntry levels entry) (herror : entryFilter nesting entry.1 entry.2 = .error cause) :
    cause = .tooDeep ∧ maxNesting < nesting + levels := by
  induction h generalizing nesting with
  | @combination levels operator documents hoperator hsome _ ih =>
    obtain ⟨document, hdocument, herror⟩ :=
      exists_of_entryFilter_eq_error hoperator (by simpa using hsome) herror
    obtain ⟨fields, hfields, rfl⟩ := List.mem_map.mp hdocument
    rw [part] at herror
    split at herror
    · exact ⟨(Except.error.inj herror).symm, by omega⟩
    · obtain ⟨entry, hentry, herror⟩ := exists_of_clauses_eq_error (Outcome.map_eq_error_iff.mp herror)
      obtain ⟨rfl, hdeep⟩ := ih fields hfields entry hentry herror
      exact ⟨rfl, by omega⟩
  | field hname hoperator hcondition =>
    obtain ⟨filter, hfilter⟩ := isCondition_iff_exists_readsField.mp hcondition
    rw [entryFilter_eq_ok_iff.mpr (.inr (leaf_eq_ok_iff.mpr ⟨hname, hoperator, hfilter⟩))] at herror
    contradiction

/-- A document of the grammar is only refused for its depth. -/
theorem IsDocument.eq_tooDeep_of_error {levels nesting : Nat} {fields : List (String × Json)} {cause : Rejection}
    (h : IsDocument levels fields) (herror : clauses nesting fields = .error cause) :
    cause = .tooDeep ∧ maxNesting < nesting + levels := by
  obtain ⟨entry, hentry, herror⟩ := exists_of_clauses_eq_error herror
  exact (h entry hentry).eq_tooDeep_of_error herror

/-- The operators that combine documents are those of the grammar. -/
theorem Combines.eq_and_or {operator : String} {combine : List Filter → Filter} (h : Combines operator combine) :
    operator = "$and" ∨ operator = "$or" := by
  cases h with
  | all => exact .inl rfl
  | any => exact .inr rfl

/-- An accepted document is one of the grammar, with as many levels as are left inside the combinations
around it. -/
theorem Reads.isDocument {nesting : Nat} {fields : List (String × Json)} {found : List Clause}
    (h : Reads nesting fields found) : IsDocument (maxNesting - nesting) fields := by
  induction h with
  | nil => exact fun _ hentry => absurd hentry List.not_mem_nil
  | @combination nesting operator combine parts rest others hcombine hsome hnesting _ _ hparts hrest =>
    have hlevels : maxNesting - nesting = maxNesting - (nesting + 1) + 1 := by omega
    have hdocuments : ∀ fields ∈ parts.map Prod.fst, IsDocument (maxNesting - (nesting + 1)) fields :=
      List.forall_mem_map.mpr hparts
    have hfirst : IsEntry (maxNesting - nesting) (operator, .array (parts.map fun part => .object part.1)) := by
      have hentry := IsEntry.combination hcombine.eq_and_or (by simpa using hsome) hdocuments
      rw [List.map_map] at hentry
      exact hlevels ▸ hentry
    exact List.forall_mem_cons.mpr ⟨hfirst, hrest⟩
  | field hname hoperator hfield _ hrest =>
    exact List.forall_mem_cons.mpr ⟨.field hname hoperator (isCondition_iff_exists_readsField.mpr ⟨_, hfield⟩), hrest⟩

/-- A document is accepted exactly when it is one of the grammar with as many levels as are left. -/
theorem exists_clauses_eq_ok_iff {nesting : Nat} (hnesting : nesting ≤ maxNesting) {fields : List (String × Json)} :
    (∃ found, clauses nesting fields = .ok found) ↔ IsDocument (maxNesting - nesting) fields := by
  constructor
  · rintro ⟨found, h⟩
    exact (reads_of_clauses nesting fields h).isDocument
  · intro h
    cases hclauses : clauses nesting fields with
    | ok found => exact ⟨found, rfl⟩
    | error cause =>
      obtain ⟨-, hdeep⟩ := h.eq_tooDeep_of_error hclauses
      omega

/-- A value is accepted as a filter document exactly when it is an object of the grammar. -/
theorem exists_ofJson_eq_ok_iff {value : Json} :
    (∃ found, ofJson value = .ok found) ↔ ∃ fields, value = .object fields ∧ IsDocument maxNesting fields := by
  cases value with
  | object fields =>
    rw [ofJson, exists_clauses_eq_ok_iff (Nat.zero_le maxNesting)]
    simp
  | _ => simp [ofJson]

/-- The text of a JSON value is accepted exactly when the value is an object of the grammar with at most
eight combinations around any object in it. Then there is one clause for every key of the object, under
that key and in the order of the object. Otherwise the cause makes the filter of the request malformed. -/
theorem accepts_iff_isDocument {text : String} {value : Json} (hread : Json.parse text = .ok value) :
    ((∃ found, parse text = .ok found) ↔ ∃ fields, value = .object fields ∧ IsDocument 8 fields) ∧
      (∀ found, parse text = .ok found →
        Keyed.keys found = Keyed.keys value.fields ∧ (Keyed.keys found).Nodup) ∧
      ∀ cause, parse text = .error cause → ∀ pairs settings, pairs.findSome? Query.refusal? = none →
        Query.lastValue pairs .override = some text →
          Query.parse pairs settings = .error (.malformedFilter cause) := by
  have hparse : parse text = ofJson value := by
    rw [parse, hread]
    rfl
  refine ⟨hparse ▸ exists_ofJson_eq_ok_iff, fun found hfound => ?_, fun cause hcause pairs settings hfields hlast => ?_⟩
  · obtain ⟨fields, hfields, hdistinct, hkeys, -⟩ := parse_eq_ok hfound
    obtain rfl := Except.ok.inj (hread.symm.trans hfields)
    exact ⟨hkeys, hkeys ▸ hdistinct⟩
  · have hoverride : Query.overrideOf pairs = .error cause := by
      rw [Query.overrideOf, hlast]
      exact hcause
    rw [Query.parse, hfields, hoverride]
    rfl

/-- A membership test of an empty list and an empty document inside a disjunction are in the grammar. -/
theorem isDocument_of_empty_branch :
    let text := "\x7b\"$or\":[\x7b\"size\":\x7b\"$in\":[],\"$ne\":null\x7d\x7d,\x7b\x7d],\"colour\":\"red\"\x7d"
    ∃ fields, Json.parse text = .ok (.object fields) ∧ IsDocument 8 fields ∧
      ∃ found, parse text = .ok found ∧ Keyed.keys found = ["$or", "colour"] := by
  intro text
  have hread : Json.parse
      "\x7b\"$or\":[\x7b\"size\":\x7b\"$in\":[],\"$ne\":null\x7d\x7d,\x7b\x7d],\"colour\":\"red\"\x7d" =
      .ok (.object
        [("$or", .array [.object [("size", .object [("$in", .array []), ("$ne", .null)])], .object []]),
          ("colour", .text "red")]) := by
    cbv
  obtain ⟨hdocument, hkeys, -⟩ := accepts_iff_isDocument hread
  obtain ⟨found, hfound⟩ : ∃ found, parse text = .ok found := by
    rw [parse, hread]
    exact ⟨_, rfl⟩
  obtain ⟨fields, hfields, hgrammar⟩ := hdocument.mp ⟨found, hfound⟩
  exact ⟨fields, hfields ▸ hread, hgrammar, found, hfound, (hkeys found hfound).1⟩

end Listing.Override
