import Listing.Proofs.AcceptedDocuments
import Listing.Proofs.Paths
import Mathlib.Data.List.Permutation

/-!
# Operators in field names

A field is a path, and a store reads a key of a path as an operator when it begins with `$`. No pair
of a request brings such a key into the filter: a pair whose field has one is refused, and taking the
field of an array element apart makes no new ones. A filter document is only refused for a field whose
first key is an operator. So the operators in the fields of a compiled filter are those that stand
behind a point in the fields of the filter document, and all of these.
-/

namespace Listing

namespace Path

/-- A path that is itself written like an operator names one. -/
theorem namesOperator_of_isOperator {path : String} (h : isOperator path = true) : namesOperator path = true := by
  obtain ⟨rest, hpath⟩ := List.head?_eq_some_iff.mp (of_decide_eq_true h)
  obtain ⟨first, others, hsplit⟩ := List.exists_cons_of_ne_nil (List.splitOnP_ne_nil (· == '.') rest)
  have hsegments : segments path = String.ofList ('$' :: first) :: others.map String.ofList := by
    rw [segments, Text.split, Text.splitBy, hpath, List.splitOnP_cons_eq_if_modifyHead, if_neg (by decide), hsplit]
    rfl
  rw [namesOperator, hsegments, List.any_cons, isOperator, String.toList_ofList]
  rfl

/-- A key of a path names an operator only if the path does. -/
theorem not_namesOperator_of_mem_segments {path key : String} (hpath : namesOperator path = false)
    (hkey : key ∈ segments path) : namesOperator key = false := by
  have halone : segments key = [key] := Text.split_of_not_mem (not_mem_of_mem_segments hkey)
  rw [namesOperator, halone, List.any_cons, List.any_nil, Bool.or_false]
  exact Bool.eq_false_iff.mpr (List.any_eq_false.mp hpath _ hkey)

end Path

/-- Both fields of an element path are keys of it. -/
theorem ElementPath.mem_segments_of_parse {path : String} {read : ElementPath} (h : parse path = .ok read) :
    read.array ∈ Path.segments path ∧ read.field ∈ Path.segments path := by
  rw [parse.eq_def] at h
  split at h
  · next array field hsplit =>
    split at h
    · contradiction
    · obtain rfl := Except.ok.inj h
      rw [Path.segments, hsplit]
      exact ⟨List.mem_cons_self, List.mem_cons_of_mem _ List.mem_cons_self⟩
  · contradiction

namespace FilterDocument

mutual

/-- The fields that a filter document puts conditions on, inside combinations too. -/
def fields : Json → List String
  | .object entries => fieldsOfEntries entries
  | _ => []
termination_by structural filter => filter

/-- The fields that some entries of a filter document put conditions on. -/
def fieldsOfEntries : List (String × Json) → List String
  | [] => []
  | (key, value) :: rest => fieldsOfEntry key value ++ fieldsOfEntries rest
termination_by structural entries => entries

/-- The fields that an entry puts conditions on: those of the combined documents, or else its key. -/
def fieldsOfEntry (key : String) : Json → List String
  | .array parts => if key = "$and" ∨ key = "$or" then fieldsOfParts parts else [key]
  | _ => [key]
termination_by structural value => value

/-- The fields that some filter documents put conditions on. -/
def fieldsOfParts : List Json → List String
  | [] => []
  | part :: rest => fields part ++ fieldsOfParts rest
termination_by structural parts => parts

end

/-- The fields of combined objects are those of the entries of each. -/
theorem mem_fieldsOfParts_objects {α : Type} {parts : List α} {entries : α → List (String × Json)}
    {field : String} :
    field ∈ fieldsOfParts (parts.map fun part => .object (entries part)) ↔
      ∃ part ∈ parts, field ∈ fieldsOfEntries (entries part) := by
  induction parts with
  | nil => simp [fieldsOfParts]
  | cons part rest ih => rw [List.map_cons, fieldsOfParts, List.mem_append, ih, fields, List.exists_mem_cons_iff]

/-- An entry whose key is no operator puts a condition on the field that its key names. -/
theorem fieldsOfEntry_of_not_isOperator {key : String} (hkey : Path.isOperator key = false) (value : Json) :
    fieldsOfEntry key value = [key] := by
  have hcombination : ¬ (key = "$and" ∨ key = "$or") := by
    rintro (rfl | rfl)
    · exact absurd hkey (by decide)
    · exact absurd hkey (by decide)
  cases value with
  | array parts => rw [fieldsOfEntry, if_neg hcombination]
  | _ => rfl

end FilterDocument

/-- The fields of a conjunction are those of its filters, also when it is left out around one filter. -/
theorem Filter.mem_fields_conjoin {filters : List Filter} {field : String} :
    field ∈ (conjoin filters).fields ↔ ∃ filter ∈ filters, field ∈ filter.fields := by
  rw [conjoin.eq_def]
  split
  · simp
  · rw [fields, fieldsOfAll_eq_flatMap, List.mem_flatMap]

namespace Override

variable {field : String}

/-- An operator puts a condition on its field alone. -/
theorem Tests.fields_eq {operator : String} {operand : Json} {filter : Filter}
    (h : Tests field operator operand filter) : filter.fields = [field] := by
  cases h <;> rfl

/-- A condition on a field is about that field and no other. -/
theorem ReadsField.mem_fields_iff {condition : Json} {filter : Filter} (h : ReadsField field condition filter)
    {other : String} : other ∈ filter.fields ↔ other = field := by
  cases h with
  | scalar => rw [Filter.fields, List.mem_singleton]
  | @operators operators filters hsome htests =>
    have hfields : ∀ filter ∈ filters, filter.fields = [field] :=
      ((List.forall₂_and_left filters operators).mp
        (htests.flip.imp fun _ _ htest => ⟨htest.fields_eq, htest⟩)).1
    rw [Filter.mem_fields_conjoin]
    constructor
    · rintro ⟨filter, hfilter, hother⟩
      rwa [hfields filter hfilter, List.mem_singleton] at hother
    · rintro rfl
      have hfilters : filters ≠ [] := fun hnil => hsome (List.forall₂_nil_right_iff.mp (hnil ▸ htests))
      obtain ⟨filter, hfilter⟩ := List.exists_mem_of_ne_nil filters hfilters
      exact ⟨filter, hfilter, hfields filter hfilter ▸ List.mem_cons_self⟩

/-- A combination is about the fields of its filters. -/
theorem Combines.mem_fields_iff {operator : String} {combine : List Filter → Filter} (h : Combines operator combine)
    {filters : List Filter} : field ∈ (combine filters).fields ↔ ∃ filter ∈ filters, field ∈ filter.fields := by
  cases h <;> rw [Filter.fields, Filter.fieldsOfAll_eq_flatMap, List.mem_flatMap]

/-- An entry for a combination is about the fields of the combined documents. -/
theorem Combines.mem_fieldsOfEntry_iff {operator : String} {combine : List Filter → Filter}
    (h : Combines operator combine) {parts : List (List (String × Json) × List Clause)} :
    field ∈ FilterDocument.fieldsOfEntry operator (.array (parts.map fun part => .object part.1)) ↔
      ∃ part ∈ parts, field ∈ FilterDocument.fieldsOfEntries part.1 := by
  rw [← FilterDocument.mem_fieldsOfParts_objects]
  cases h <;> rfl

/-- The clauses of an accepted document are about the fields of the document. -/
theorem Reads.mem_fields_iff {nesting : Nat} {fields : List (String × Json)} {clauses : List Clause}
    (h : Reads nesting fields clauses) :
    (∃ clause ∈ clauses, field ∈ clause.2.fields) ↔ field ∈ FilterDocument.fieldsOfEntries fields := by
  induction h with
  | nil => simp [FilterDocument.fieldsOfEntries]
  | @combination nesting operator combine parts rest others hcombine _ _ _ _ hparts hrest =>
    have hpart (part : List (String × Json) × List Clause) (hpart : part ∈ parts) :
        field ∈ (partFilter part.2).fields ↔ field ∈ FilterDocument.fieldsOfEntries part.1 := by
      rw [← hparts part hpart, partFilter, Filter.mem_fields_conjoin]
      simp only [List.mem_map, exists_exists_and_eq_and]
    rw [List.exists_mem_cons_iff, FilterDocument.fieldsOfEntries, List.mem_append, hrest, hcombine.mem_fields_iff,
      hcombine.mem_fieldsOfEntry_iff]
    simp only [List.mem_map, exists_exists_and_eq_and]
    exact or_congr_left (exists_congr fun part => and_congr_right (hpart part))
  | field _ hoperator hfield _ hrest =>
    rw [List.exists_mem_cons_iff, FilterDocument.fieldsOfEntries, List.mem_append, hrest, hfield.mem_fields_iff,
      FilterDocument.fieldsOfEntry_of_not_isOperator hoperator, List.mem_singleton]

/-- No field of an accepted document is itself written like an operator. -/
theorem Reads.not_isOperator {nesting : Nat} {fields : List (String × Json)} {clauses : List Clause}
    (h : Reads nesting fields clauses) (hfield : field ∈ FilterDocument.fieldsOfEntries fields) :
    Path.isOperator field = false := by
  induction h with
  | nil => exact absurd hfield List.not_mem_nil
  | combination hcombine _ _ _ _ hparts hrest =>
    rw [FilterDocument.fieldsOfEntries, List.mem_append, hcombine.mem_fieldsOfEntry_iff] at hfield
    rcases hfield with ⟨part, hpart, hfield⟩ | hfield
    · exact hparts part hpart hfield
    · exact hrest hfield
  | field _ hoperator _ _ hrest =>
    rw [FilterDocument.fieldsOfEntries, FilterDocument.fieldsOfEntry_of_not_isOperator hoperator,
      List.singleton_append, List.mem_cons] at hfield
    rcases hfield with rfl | hfield
    · exact hoperator
    · exact hrest hfield

/-- A clause about a field with an operator stands under a key that is an operator or is that field. -/
theorem Reads.namesOperator_key {nesting : Nat} {fields : List (String × Json)} {clauses : List Clause}
    (h : Reads nesting fields clauses) {clause : Clause} (hclause : clause ∈ clauses)
    (hfield : field ∈ clause.2.fields) (hnames : Path.namesOperator field = true) :
    Path.namesOperator clause.1 = true := by
  induction h with
  | nil => exact absurd hclause List.not_mem_nil
  | combination hcombine _ _ _ _ _ hrest =>
    rcases List.mem_cons.mp hclause with rfl | hclause
    · exact Path.namesOperator_of_isOperator hcombine.isOperator
    · exact hrest hclause
  | field _ _ hreads _ hrest =>
    rcases List.mem_cons.mp hclause with rfl | hclause
    · exact hreads.mem_fields_iff.mp hfield ▸ hnames
    · exact hrest hclause

end Override

/-- The filter of an entry is about the field of the entry or the two that its path is made of. -/
theorem Category.mem_fields_of_filterOf {category : Category} {entry : String × String} {filter : Filter}
    (h : category.filterOf entry = .ok filter) {field : String} (hfield : field ∈ filter.fields) :
    field = entry.1 ∨ field ∈ Path.segments entry.1 := by
  have helement (kind : Membership) (h : Filter.elementCondition kind entry = .ok filter) :
      field ∈ Path.segments entry.1 := by
    obtain ⟨path, hpath, rfl⟩ := Outcome.map_eq_ok_iff.mp h
    obtain ⟨harray, hinner⟩ := ElementPath.mem_segments_of_parse hpath
    rw [Filter.fields, List.mem_cons, List.mem_singleton] at hfield
    rcases hfield with rfl | rfl
    · exact harray
    · exact hinner
  cases category with
  | equality =>
    obtain rfl := Except.ok.inj h
    exact .inl (List.mem_singleton.mp hfield)
  | list group =>
    cases group with
    | inList =>
      obtain rfl := Except.ok.inj h
      exact .inl (List.mem_singleton.mp hfield)
    | notInList =>
      obtain rfl := Except.ok.inj h
      exact .inl (List.mem_singleton.mp hfield)
    | elementIn => exact .inr (helement .isIn h)
    | elementNotIn => exact .inr (helement .notIn h)

/-- A search is about the fields that it looks into. -/
theorem Filter.mem_of_mem_search {term : String} {names : List String} {maxLength : Nat} {filter : Filter}
    (h : search term names maxLength = some filter) {field : String} (hfield : field ∈ filter.fields) :
    field ∈ names := by
  rw [search] at h
  split at h
  · contradiction
  · obtain rfl := Option.some.inj h
    rw [fields, fieldsOfAll_eq_flatMap] at hfield
    obtain ⟨part, hpart, hfield⟩ := List.mem_flatMap.mp hfield
    obtain ⟨name, hname, rfl⟩ := List.mem_map.mp hpart
    rw [fields, List.mem_singleton] at hfield
    exact hfield ▸ hname

/-- No pair of a request that is read has an operator in its field. -/
theorem Query.not_namesOperator_of_mem {pairs : List Pair} (hrefusal : pairs.findSome? refusal? = none) {pair : Pair}
    (hpair : pair ∈ pairs) {field : String} (hfield : (Destination.ofKey pair.1).field? = some field) :
    Path.namesOperator field = false := by
  have hnone : refusal? pair = none := List.findSome?_eq_none_iff.mp hrefusal pair hpair
  rw [refusal?, hfield] at hnone
  by_contra h
  rw [Bool.not_eq_false] at h
  simp [h] at hnone

/-- The clauses of the filter document of a request are read by the rules, from entries about the same
fields; a request without one has none. -/
theorem Query.reads_of_overrideOf {pairs : List Pair} {clauses : List Clause} (h : overrideOf pairs = .ok clauses) :
    ∃ entries, Override.Reads 0 entries clauses ∧ (Keyed.keys clauses).Nodup ∧
      ∀ field, field ∈ FilterDocument.fieldsOfEntries entries ↔
        ∃ text document, lastValue pairs .override = some text ∧ Json.parse text = .ok document ∧
          field ∈ FilterDocument.fields document := by
  rw [overrideOf] at h
  split at h
  · next text hlast =>
    obtain ⟨entries, hread, hdistinct, hkeys, hreads⟩ := Override.parse_eq_ok h
    refine ⟨entries, hreads, hkeys ▸ hdistinct, fun field => ?_⟩
    constructor
    · intro hfield
      exact ⟨text, .object entries, hlast, hread, hfield⟩
    · rintro ⟨text', document, hlast', hread', hfield⟩
      obtain rfl := Option.some.inj (hlast.symm.trans hlast')
      obtain rfl := Except.ok.inj (hread.symm.trans hread')
      exact hfield
  · next hlast =>
    obtain rfl := Except.ok.inj h
    refine ⟨[], .nil 0, List.nodup_nil, fun field => ?_⟩
    simp [hlast, FilterDocument.fieldsOfEntries]

/-- A composed filter is about the fields of the last clauses and of the search. -/
theorem Constraints.mem_fields_filter {constraints : Constraints} {field : String} :
    field ∈ constraints.filter.fields ↔
      (∃ key clause, Keyed.last? constraints.clauses key = some clause ∧ field ∈ clause.fields) ∨
        ∃ search ∈ constraints.search, field ∈ search.fields := by
  have hterms : constraints.filter = .all (constraints.lastClauses ++ constraints.search.toList) := rfl
  rw [hterms, Filter.fields, Filter.fieldsOfAll_eq_flatMap, List.flatMap_append, List.mem_append, List.mem_flatMap,
    List.mem_flatMap]
  simp only [mem_lastClauses, Option.mem_toList, Option.mem_def]
  grind

section Compiled

variable {pairs : List Pair} {settings : Settings} {endpoint : Endpoint} {query : Query} {constraints : Constraints}

/-- The entries of a request that is read are on fields without operators. -/
theorem Category.not_namesOperator_of_mem_entries {category : Category}
    (hrefusal : pairs.findSome? Query.refusal? = none) {field : String}
    (hfield : field ∈ Keyed.keys (category.entries pairs)) : Path.namesOperator field = false := by
  obtain ⟨pair, hpair, hkey⟩ := mem_keys_entries.mp hfield
  exact Query.not_namesOperator_of_mem hrefusal hpair (hkey ▸ field?_destination category field)

/-- The clauses of a request outside its filter document are about fields without operators. -/
theorem mem_override_or_not_namesOperator (hquery : Query.parse pairs settings = .ok query)
    (hconstraints : query.constraints endpoint settings = .ok constraints)
    (hbase : ∀ field ∈ Keyed.keys endpoint.baseFilter, Path.namesOperator field = false) {clause : Clause}
    (hclause : clause ∈ constraints.clauses) :
    clause ∈ query.override ∨ ∀ field ∈ clause.2.fields, Path.namesOperator field = false := by
  obtain ⟨hrefusal, -⟩ := Query.parse_eq_ok_iff.mp hquery
  rcases mem_clauses hquery hconstraints hclause with ⟨category, entry, hentry, hfilter⟩ | ⟨entry, hentry, heq⟩ | hmem
  · right
    intro field hfield
    have hfree := Category.not_namesOperator_of_mem_entries hrefusal (List.mem_map_of_mem hentry)
    rcases Category.mem_fields_of_filterOf hfilter hfield with rfl | hsegment
    · exact hfree
    · exact Path.not_namesOperator_of_mem_segments hfree hsegment
  · right
    intro field hfield
    rw [heq, Filter.fields, List.mem_singleton] at hfield
    exact hbase field (hfield ▸ List.mem_map_of_mem hentry)
  · exact .inl hmem

/-- A clause of the filter document whose key names an operator is not replaced. -/
theorem last?_clauses_of_mem_override (hquery : Query.parse pairs settings = .ok query)
    (hconstraints : query.constraints endpoint settings = .ok constraints) {clause : Clause}
    (hclause : clause ∈ query.override) (hkey : Path.namesOperator clause.1 = true) :
    Keyed.last? constraints.clauses clause.1 = some clause.2 := by
  obtain ⟨hrefusal, override, hoverride, rfl⟩ := Query.parse_eq_ok_iff.mp hquery
  obtain ⟨elementIn, elementNotIn, hin, hnotIn, rfl⟩ := Query.constraints_eq_ok_iff.mp hconstraints
  obtain ⟨fields, -, hnodup, -⟩ := Query.reads_of_overrideOf hoverride
  have helements (kind : Membership) (group : ListGroup) (filters : List Filter)
      (hfilters : Filter.elementConditions kind (Query.groupOf pairs group) = .ok filters) :
      Keyed.last? (Constraints.keyed filters) clause.1 = none := by
    refine Keyed.last?_eq_none_iff.mpr fun hmem => ?_
    obtain ⟨path, hpath, inner, hread⟩ := (Filter.mem_keys_elementConditions hfilters).mp hmem
    rw [← Category.entries_list] at hpath
    have hfree := Path.not_namesOperator_of_mem_segments (Category.not_namesOperator_of_mem_entries hrefusal hpath)
      (ElementPath.mem_segments_of_parse hread).1
    exact Bool.false_ne_true (hfree.symm.trans hkey)
  have hlast : Keyed.last? override clause.1 = some clause.2 := by
    rw [Keyed.last?_eq_get? hnodup]
    exact Keyed.get?_of_mem hnodup hclause
  rw [Constraints.clauses, Keyed.last?_append, Keyed.last?_append, Keyed.last?_append, helements _ _ _ hin,
    helements _ _ _ hnotIn]
  simp only [Query.assemble, hlast, Option.none_or, Option.some_or]

/-- A field with an operator is in a compiled filter only if a clause of the filter document is about it. -/
theorem exists_override_of_namesOperator (hquery : Query.parse pairs settings = .ok query)
    (hconstraints : query.constraints endpoint settings = .ok constraints)
    (hbase : ∀ field ∈ Keyed.keys endpoint.baseFilter, Path.namesOperator field = false)
    (hsearch : ∀ field ∈ endpoint.searchFields, Path.namesOperator field = false) {field : String}
    (hfield : field ∈ constraints.filter.fields) (hnames : Path.namesOperator field = true) :
    ∃ clause ∈ query.override, field ∈ clause.2.fields := by
  rw [Constraints.mem_fields_filter] at hfield
  rcases hfield with ⟨key, clause, hlast, hfield⟩ | ⟨search, hterm, hfield⟩
  · rcases mem_override_or_not_namesOperator hquery hconstraints hbase (Keyed.mem_of_last? hlast) with hmem | hfree
    · exact ⟨_, hmem, hfield⟩
    · exact absurd hnames (Bool.eq_false_iff.mp (hfree field hfield))
  · obtain ⟨elementIn, elementNotIn, -, -, rfl⟩ := Query.constraints_eq_ok_iff.mp hconstraints
    exact absurd hnames (Bool.eq_false_iff.mp (hsearch field (Filter.mem_of_mem_search hterm hfield)))

end Compiled

/-- Operators get into the fields of a compiled filter only through its filter document, as long as the
endpoint brings in none. No field is itself written like an operator, and the fields with an operator
behind a point are exactly those fields of the filter document that have one there; so the filter is free
of operators in fields exactly when the filter document is. -/
theorem ListRequest.operators_in_fields_are_of_document {pairs : List Pair} {endpoint : Endpoint}
    {settings : Settings} {request : ListRequest}
    (hbase : ∀ field ∈ Keyed.keys endpoint.baseFilter, Path.namesOperator field = false)
    (hsearch : ∀ field ∈ endpoint.searchFields, Path.namesOperator field = false)
    (h : ofPairs pairs endpoint settings = .ok request) :
    (∀ field ∈ request.filter.fields, Path.isOperator field = false) ∧
      (∀ field, Path.namesOperator field = true →
        (field ∈ request.filter.fields ↔
          ∃ text document, Query.lastValue pairs .override = some text ∧ Json.parse text = .ok document ∧
            field ∈ FilterDocument.fields document)) ∧
      ((∀ field ∈ request.filter.fields, Path.namesOperator field = false) ↔
        ∀ text document, Query.lastValue pairs .override = some text → Json.parse text = .ok document →
          ∀ field ∈ FilterDocument.fields document, Path.namesOperator field = false) := by
  obtain ⟨hquery, constraints, hconstraints, hfilter⟩ := ofPairs_eq_ok_iff.mp h
  obtain ⟨-, override, hoverride, hassemble⟩ := Query.parse_eq_ok_iff.mp hquery
  obtain ⟨entries, hreads, -, hdocument⟩ := Query.reads_of_overrideOf hoverride
  obtain rfl : request.query.override = override := hassemble ▸ rfl
  have hof (field : String) (hfield : field ∈ request.filter.fields) (hnames : Path.namesOperator field = true) :
      ∃ clause ∈ request.query.override, field ∈ clause.2.fields :=
    exists_override_of_namesOperator hquery hconstraints hbase hsearch (hfilter ▸ hfield) hnames
  have hiff (field : String) (hnames : Path.namesOperator field = true) : field ∈ request.filter.fields ↔
      ∃ text document, Query.lastValue pairs .override = some text ∧ Json.parse text = .ok document ∧
        field ∈ FilterDocument.fields document := by
    rw [← hdocument, ← hreads.mem_fields_iff]
    refine ⟨fun hfield => hof field hfield hnames, ?_⟩
    rintro ⟨clause, hclause, hfield⟩
    have hkey := hreads.namesOperator_key hclause hfield hnames
    have hlast := last?_clauses_of_mem_override hquery hconstraints hclause hkey
    rw [← hfilter, Constraints.mem_fields_filter]
    exact .inl ⟨clause.1, clause.2, hlast, hfield⟩
  refine ⟨fun field hfield => ?_, hiff, ?_⟩
  · refine Bool.eq_false_iff.mpr fun hoperator => ?_
    have hclause := hof field hfield (Path.namesOperator_of_isOperator hoperator)
    exact Bool.eq_false_iff.mp (hreads.not_isOperator (hreads.mem_fields_iff.mp hclause)) hoperator
  · constructor
    · intro hfree text document hlast hread field hfield
      refine Bool.eq_false_iff.mpr fun hnames => ?_
      exact Bool.eq_false_iff.mp (hfree field ((hiff field hnames).mpr ⟨text, document, hlast, hread, hfield⟩)) hnames
    · intro hfree field hfield
      refine Bool.eq_false_iff.mpr fun hnames => ?_
      obtain ⟨text, document, hlast, hread, hdocumented⟩ := (hiff field hnames).mp hfield
      exact Bool.eq_false_iff.mp (hfree text document hlast hread field hdocumented) hnames

/-- Next to a base filter, a plain equality and a search, the field of a branch keeps its operator. -/
theorem ListRequest.operator_of_branch_is_of_document :
    let endpoint : Endpoint := ({ searchFields := ["name"] } : Endpoint).require "tenant" (.text "acme")
    let pairs : List Pair :=
      [("status", "open"), ("q", "lamp"), ("mongoQuery", "\x7b\"$or\":[\x7b\"a.$b\":\"x\"\x7d,\x7b\"c\":\"y\"\x7d]\x7d")]
    ∃ request, ofPairs pairs endpoint {} = .ok request ∧
      (∀ field ∈ request.filter.fields, Path.isOperator field = false) ∧ "a.$b" ∈ request.filter.fields := by
  intro endpoint pairs
  let document : Json := .object [("$or", .array [.object [("a.$b", .text "x")], .object [("c", .text "y")]])]
  have hread : Json.parse "\x7b\"$or\":[\x7b\"a.$b\":\"x\"\x7d,\x7b\"c\":\"y\"\x7d]\x7d" = .ok document := by
    cbv
  have hlast : Query.lastValue pairs .override = some "\x7b\"$or\":[\x7b\"a.$b\":\"x\"\x7d,\x7b\"c\":\"y\"\x7d]\x7d" := rfl
  obtain ⟨clauses, hoverride⟩ : ∃ clauses, Query.overrideOf pairs = .ok clauses := by
    simp only [Query.overrideOf, hlast, Override.parse, hread]
    exact ⟨_, rfl⟩
  have hrequest : ofPairs pairs endpoint {} = .ok _ :=
    ofPairs_eq_ok (by decide) hoverride (Query.constraints_eq_ok_iff.mpr ⟨[], [], rfl, rfl, rfl⟩)
  obtain ⟨hplain, hoperators, -⟩ := operators_in_fields_are_of_document (by decide) (by decide) hrequest
  exact ⟨_, hrequest, hplain, (hoperators "a.$b" (by decide)).mpr ⟨_, document, hlast, hread, by decide⟩⟩

/-- A filter document with an operator behind a point is accepted, and the filter is about that field. -/
theorem ListRequest.operator_behind_point_accepted :
    ∃ request, ofPairs [("mongoQuery", "\x7b\"address.$ne\":\"London\"\x7d")] {} {} = .ok request ∧
      ∃ field ∈ request.filter.fields, Path.namesOperator field = true := by
  let pairs : List Pair := [("mongoQuery", "\x7b\"address.$ne\":\"London\"\x7d")]
  let clauses : List Clause := [("address.$ne", .equals "address.$ne" (.text "London"))]
  have hread : Json.parse "\x7b\"address.$ne\":\"London\"\x7d" = .ok (.object [("address.$ne", .text "London")]) := by
    cbv
  have hlast : Query.lastValue pairs .override = some "\x7b\"address.$ne\":\"London\"\x7d" := rfl
  have hoverride : Query.overrideOf pairs = .ok clauses := by
    simp only [Query.overrideOf, hlast, Override.parse, hread]
    rfl
  have hrequest : ofPairs pairs {} {} = .ok _ :=
    ofPairs_eq_ok (by decide) hoverride (Query.constraints_eq_ok_iff.mpr ⟨[], [], rfl, rfl, rfl⟩)
  exact ⟨_, hrequest, "address.$ne", by decide, by decide⟩

end Listing
