import Listing.Proofs.AddedClauses
import Listing.Proofs.CompactText
import Listing.Proofs.FieldNames
import Listing.Proofs.OverrideMeaning

/-!
# One constraint in several forms

The same constraint on a field can be written as an entry of the request, as an operator of a filter document, and
as a combination of simpler conditions. The forms reach the filter of the request in different ways and are tested
by different cases, over the same candidate values. Each of them asks for one filter besides what the endpoint
requires, so two forms match the same documents when their filters do.
-/

namespace Listing

/-! ### The filters -/

namespace Filter

variable (path : String) (operands : List Json) (document : Json)

/-- To have a value among some operands is to have one that equals one of them. -/
theorem holds_isIn_eq_any :
    (membership path .isIn operands).holds document = (any (operands.map (equals path))).holds document := by
  have hany : (any (operands.map (equals path))).holds document =
      operands.any (someEqual (Path.candidates document path)) := by
    rw [holds, someHolds_eq_any, List.any_map]
    rfl
  rw [hany, holds, membershipHolds, Bool.eq_iff_iff]
  simp only [someEqual, List.any_eq_true]
  constructor
  · intro h
    obtain ⟨value, hvalue, operand, hoperand, hequal⟩ := h
    exact ⟨operand, hoperand, value, hvalue, hequal⟩
  · intro h
    obtain ⟨operand, hoperand, value, hvalue, hequal⟩ := h
    exact ⟨value, hvalue, operand, hoperand, hequal⟩

/-- To have no value among some operands is to differ from each of them. -/
theorem holds_notIn_eq_all :
    (membership path .notIn operands).holds document = (all (operands.map (compare path .ne))).holds document := by
  calc (membership path .notIn operands).holds document
      = !(any (operands.map (equals path))).holds document := by
        rw [← holds_isIn_eq_any]
        rfl
    _ = operands.all fun operand => !someEqual (Path.candidates document path) operand := by
        rw [holds, someHolds_eq_any, List.any_map, List.not_any_eq_all_not]
        rfl
    _ = (all (operands.map (compare path .ne))).holds document := by
        rw [holds, allHold_eq_all, List.all_map]
        rfl

/-- To equal an operand is to have a value in the list of it alone. -/
theorem holds_equals_eq_isIn (operand : Json) :
    (equals path operand).holds document = (membership path .isIn [operand]).holds document := by
  rw [holds_isIn_eq_any, List.map_singleton, holds.eq_2, someHolds, someHolds, Bool.or_false]

end Filter

/-! ### Requests for one filter -/

variable {endpoint : Endpoint} {settings : Settings}

/-- A request that is accepted and asks for one filter besides what its endpoint requires of every request. -/
def AsksFor (pairs : List Pair) (endpoint : Endpoint) (settings : Settings) (filter : Filter) : Prop :=
  ∃ bare request, ListRequest.ofPairs [] endpoint settings = .ok bare ∧
    ListRequest.ofPairs pairs endpoint settings = .ok request ∧
    ∀ document, request.filter.holds document = (bare.filter.holds document && filter.holds document)

/-- Two requests that are accepted and match the same documents. -/
def MatchAlike (pairs others : List Pair) (endpoint : Endpoint) (settings : Settings) : Prop :=
  ∃ request other, ListRequest.ofPairs pairs endpoint settings = .ok request ∧
    ListRequest.ofPairs others endpoint settings = .ok other ∧
    ∀ document, request.filter.holds document = other.filter.holds document

/-- Requests that ask for filters with one meaning match the same documents. -/
theorem AsksFor.matchAlike {pairs others : List Pair} {filter other : Filter}
    (h : AsksFor pairs endpoint settings filter) (hother : AsksFor others endpoint settings other)
    (hholds : ∀ document, filter.holds document = other.holds document) :
    MatchAlike pairs others endpoint settings := by
  obtain ⟨bare, request, hbare, hrequest, hfilter⟩ := h
  obtain ⟨bare', request', hbare', hrequest', hfilter'⟩ := hother
  obtain rfl := Except.ok.inj (hbare.symm.trans hbare')
  refine ⟨request, request', hrequest, hrequest', fun document => ?_⟩
  rw [hfilter, hfilter', hholds]

/-- A request without pairs has the clauses of its endpoint and no search. -/
theorem constraints_of_nil (endpoint : Endpoint) (settings : Settings) :
    ∃ query constraints, Query.parse [] settings = .ok query ∧
      query.constraints endpoint settings = .ok constraints ∧ constraints.clauses = endpoint.baseClauses ∧
      constraints.search = none := by
  have hconstraints : (Query.assemble [] settings []).constraints endpoint settings = .ok _ :=
    Query.constraints_eq_ok_iff.mpr ⟨[], [], rfl, rfl, rfl⟩
  refine ⟨_, _, rfl, hconstraints, ?_, rfl⟩
  rw [clauses_of_constraints hconstraints]
  exact List.append_nil _

/-- A request of a single entry asks for its filter when the endpoint requires nothing on its key. -/
theorem asksFor_entry {category : Category} {key field value : String} {filter : Filter}
    (hkey : Destination.ofKey key = category.destination field) (hname : Path.namesOperator field = false)
    (hfilter : category.filterOf (field, value) = .ok filter) (hspared : filter.key ∉ Keyed.keys endpoint.baseFilter) :
    AsksFor [(key, value)] endpoint settings filter := by
  obtain ⟨query, constraints, hquery, hconstraints, hclauses, -⟩ := constraints_of_nil endpoint settings
  have hbare : ListRequest.ofPairs ([] ++ []) endpoint settings = .ok ⟨query, constraints.filter⟩ :=
    ListRequest.ofPairs_eq_ok_iff.mpr ⟨hquery, constraints, hconstraints, rfl⟩
  have hfree : ¬ Constrains ([] ++ []) endpoint filter.key := by
    rw [List.append_nil, constrains_iff hquery hconstraints, hclauses, Endpoint.keys_baseClauses]
    exact hspared
  obtain ⟨request, hrequest, hholds⟩ :=
    ListRequest.exists_ofPairs_insert hkey hname value hfilter hbare hfree
  exact ⟨_, request, hbare, hrequest, hholds⟩

/-- The clauses of a filter document alone come after those of the endpoint. -/
theorem constraints_of_document (text : String) (override : List Clause) (endpoint : Endpoint) (settings : Settings) :
    ∃ constraints, (Query.assemble [("mongoQuery", text)] settings override).constraints endpoint settings =
      .ok constraints ∧ constraints.clauses = endpoint.baseClauses ++ override ∧ constraints.search = none := by
  have hconstraints : (Query.assemble [("mongoQuery", text)] settings override).constraints endpoint settings = .ok _ :=
    Query.constraints_eq_ok_iff.mpr ⟨[], [], rfl, rfl, rfl⟩
  refine ⟨_, hconstraints, ?_, rfl⟩
  rw [clauses_of_constraints hconstraints]
  exact congrArg (endpoint.baseClauses ++ ·) ((List.append_nil _).trans (List.append_nil _))

/-- A request of a filter document with one clause asks for its filter when the endpoint requires nothing on
its key. -/
theorem asksFor_document {text : String} {filter : Filter} (hparse : Override.parse text = .ok [(filter.key, filter)])
    (hspared : filter.key ∉ Keyed.keys endpoint.baseFilter) :
    AsksFor [("mongoQuery", text)] endpoint settings filter := by
  obtain ⟨query, constraints, hquery, hconstraints, hclauses, hsearch⟩ := constraints_of_nil endpoint settings
  obtain ⟨others, hothers, hmore, hsearch'⟩ :=
    constraints_of_document text [(filter.key, filter)] endpoint settings
  have hnew : filter.key ∉ Keyed.keys constraints.clauses := by
    rw [hclauses, Endpoint.keys_baseClauses]
    exact hspared
  have hgains : constraints.Gains filter others := by
    refine ⟨hnew, fun key => ?_, hsearch'.trans hsearch.symm⟩
    rw [hmore, Keyed.last?_insert List.not_mem_nil, List.append_nil, hclauses]
  have hbare : ListRequest.ofPairs [] endpoint settings = .ok ⟨query, constraints.filter⟩ :=
    ListRequest.ofPairs_eq_ok_iff.mpr ⟨hquery, constraints, hconstraints, rfl⟩
  exact ⟨_, _, hbare, ListRequest.ofPairs_eq_ok rfl hparse hothers, hgains.holds_filter⟩

/-! ### Filter documents with one entry -/

namespace Override

variable {field : String}

/-- A text that stands for an object of one entry is accepted as one clause when the entry is. -/
theorem parse_of_reads {text : String} {fields : List (String × Json)} {found : List Clause}
    (hread : Json.parse text = .ok (.object fields)) (h : Reads 0 fields found) : parse text = .ok found := by
  rw [parse, hread]
  exact clauses_eq_ok_iff.mpr h

/-- A membership test of a list of texts is accepted. -/
theorem reads_membership (hname : field ≠ "") (hoperator : Path.isOperator field = false) (kind : Membership)
    (values : List String) :
    Reads 0 [(field, .single kind.operator (.array (values.map .text)))]
      [(field, .membership field kind (values.map .text))] := by
  have hscalars : ∀ operand ∈ values.map Json.text, operand.isScalar = true :=
    List.forall_mem_map.mpr fun _ _ => rfl
  exact .field hname hoperator (.operators (List.cons_ne_nil _ _) (.cons (.membership kind hscalars) .nil)) (.nil 0)

/-- A combination of documents with one condition each on a field is accepted when the condition is. -/
theorem reads_combination (hname : field ≠ "") (hoperator : Path.isOperator field = false) {operator : String}
    {combine : List Filter → Filter} (hcombine : Combines operator combine) {condition : String → Json}
    {filter : String → Filter} (hcondition : ∀ value, ReadsField field (condition value) (filter value))
    {values : List String} (hsome : values ≠ []) :
    Reads 0 [(operator, .array (values.map fun value => .single field (condition value)))]
      [(operator, combine (values.map filter))] := by
  have hparts : ∀ part ∈ values.map fun value => ([(field, condition value)], [(field, filter value)]),
      Reads 1 part.1 part.2 :=
    List.forall_mem_map.mpr fun value _ => .field hname hoperator (hcondition value) (.nil 1)
  have hreads := Reads.combination hcombine (by simpa using hsome) (by decide) hparts (.nil 0)
  rw [List.map_map, List.map_map] at hreads
  exact hreads

end Override

/-! ### The forms -/

/-- A filter document matches what a request matches: it can be written as a text, and however it is written, a
request of that text alone matches the same documents. -/
def MatchesAsDocument (pairs : List Pair) (fields : List (String × Json)) (endpoint : Endpoint)
    (settings : Settings) : Prop :=
  (∃ text, Json.parse text = .ok (.object fields)) ∧
    ∀ text, Json.parse text = .ok (.object fields) → MatchAlike pairs [("mongoQuery", text)] endpoint settings

/-- A request that asks for a filter is matched by a document whose only clause means the same. -/
theorem AsksFor.matchesAsDocument {pairs : List Pair} {key : String} {value : Json} {filter : Filter}
    (h : AsksFor pairs endpoint settings filter) (other : Filter)
    (hreadable : Json.Readable Json.maxLevels (.single key value))
    (hreads : Override.Reads 0 [(key, value)] [(other.key, other)])
    (hspared : other.key ∉ Keyed.keys endpoint.baseFilter)
    (hholds : ∀ document, filter.holds document = other.holds document) :
    MatchesAsDocument pairs [(key, value)] endpoint settings := by
  refine ⟨⟨_, hreadable.parse_compact⟩, fun text hread => ?_⟩
  exact h.matchAlike (asksFor_document (Override.parse_of_reads hread hreads) hspared) hholds

/-- A request for a list of a field matches what a membership test of the same values matches. -/
theorem AsksFor.matchesAsMembership {pairs : List Pair} {field : String} {kind : Membership} {values : List String}
    (h : AsksFor pairs endpoint settings (.membership field kind (values.map .text))) (hname : field ≠ "")
    (hoperator : Path.isOperator field = false) (hspared : field ∉ Keyed.keys endpoint.baseFilter) :
    MatchesAsDocument pairs [(field, .single kind.operator (.array (values.map .text)))] endpoint settings := by
  have htexts : Json.Readable 125 (.array (values.map .text)) :=
    Json.Readable.array_map (fun value => .text 124 value) values
  exact h.matchesAsDocument (.membership field kind (values.map .text))
    ((htexts.single kind.operator).single field) (Override.reads_membership hname hoperator kind values) hspared
    fun _ => rfl

/-- A request matches what a combination of one condition for each of some values matches, when it asks for the
same filters combined. -/
theorem AsksFor.matchesAsCombination {pairs : List Pair} {filter : Filter} {field : String} {values : List String}
    (h : AsksFor pairs endpoint settings filter) (hname : field ≠ "") (hoperator : Path.isOperator field = false)
    {operator : String} {combine : List Filter → Filter} (hcombine : Override.Combines operator combine)
    {condition : String → Json} {part : String → Filter}
    (hreadable : ∀ value, Json.Readable 124 (condition value))
    (hcondition : ∀ value, Override.ReadsField field (condition value) (part value)) (hsome : values ≠ [])
    (hspared : operator ∉ Keyed.keys endpoint.baseFilter)
    (hholds : ∀ document, filter.holds document = (combine (values.map part)).holds document) :
    MatchesAsDocument pairs [(operator, .array (values.map fun value => .single field (condition value)))] endpoint
      settings := by
  have hdocuments : Json.Readable 126 (.array (values.map fun value => .single field (condition value))) :=
    Json.Readable.array_map (fun value => (hreadable value).single field) values
  have hreads := Override.reads_combination hname hoperator hcombine hcondition hsome
  have hkey : (combine (values.map part)).key = operator := by
    cases hcombine <;> rfl
  refine h.matchesAsDocument (combine (values.map part)) (hdocuments.single operator) ?_ ?_ hholds
  · rw [hkey]
    exact hreads
  · rw [hkey]
    exact hspared

/-- The forms of one constraint agree at every endpoint that requires nothing of its field and nothing under an
operator. A list of the field matches what a membership test of its values matches, and what a disjunction of
equalities with them matches; the complement of the list matches what the negated test and a conjunction of
inequalities match; and a plain equality with a value in which no comma occurs matches what the list of that
value matches. -/
theorem surface_forms_match_alike {field : String} (hfield : Bracketable field)
    (hname : Path.namesOperator field = false)
    (hspared : ∀ key ∈ Keyed.keys endpoint.baseFilter, key ≠ field ∧ Path.isOperator key = false)
    (settings : Settings) (list : String) :
    let values := Text.split ',' list
    MatchesAsDocument [(ListGroup.inList.keyOf field, list)]
        [(field, .single "$in" (.array (values.map .text)))] endpoint settings ∧
      MatchesAsDocument [(ListGroup.inList.keyOf field, list)]
        [("$or", .array (values.map fun value => .single field (.text value)))] endpoint settings ∧
      MatchesAsDocument [(ListGroup.notInList.keyOf field, list)]
        [(field, .single "$nin" (.array (values.map .text)))] endpoint settings ∧
      MatchesAsDocument [(ListGroup.notInList.keyOf field, list)]
        [("$and", .array (values.map fun value => .single field (.single "$ne" (.text value))))] endpoint settings ∧
      ((∀ parameter : Parameter, field ≠ parameter.key) → ∀ value : String, ',' ∉ value.toList →
        MatchAlike [(field, value)] [(ListGroup.inList.keyOf field, value)] endpoint settings) := by
  intro values
  have hoperator : Path.isOperator field = false :=
    Bool.eq_false_iff.mpr fun h => Bool.eq_false_iff.mp hname (Path.namesOperator_of_isOperator h)
  have hsome : values ≠ [] := Text.split_ne_nil ',' list
  have hfree : field ∉ Keyed.keys endpoint.baseFilter := fun hmem => (hspared field hmem).1 rfl
  have hcombination (operator : String) (h : Path.isOperator operator = true) :
      operator ∉ Keyed.keys endpoint.baseFilter := by
    intro hmem
    rw [(hspared operator hmem).2] at h
    contradiction
  have hkey (group : ListGroup) : Destination.ofKey (group.keyOf field) = (Category.list group).destination field :=
    Destination.ofKey_eq_iff.mpr (.group group hfield)
  have hin (list : String) : AsksFor [(ListGroup.inList.keyOf field, list)] endpoint settings
      (.membership field .isIn (commaOperands list)) := asksFor_entry (hkey .inList) hname rfl hfree
  have hnotIn : AsksFor [(ListGroup.notInList.keyOf field, list)] endpoint settings
      (.membership field .notIn (commaOperands list)) := asksFor_entry (hkey .notInList) hname rfl hfree
  refine ⟨?_, ?_, ?_, ?_, fun hparameter value hvalue => ?_⟩
  · exact (hin list).matchesAsMembership hfield.ne_empty hoperator hfree
  · apply (hin list).matchesAsCombination hfield.ne_empty hoperator .any (fun value => .text 124 value)
      (fun _ => .scalar rfl) hsome (hcombination "$or" (by decide))
    intro document
    rw [Filter.holds_isIn_eq_any, commaOperands, List.map_map]
    rfl
  · exact hnotIn.matchesAsMembership hfield.ne_empty hoperator hfree
  · have hdiffers (value : String) : Override.ReadsField field (.single "$ne" (.text value))
        (.compare field .ne (.text value)) :=
      .operators (List.cons_ne_nil _ _) (.cons (.compare .ne rfl) .nil)
    apply hnotIn.matchesAsCombination hfield.ne_empty hoperator .all
      (fun value => (Json.Readable.text 123 value).single "$ne") hdiffers hsome (hcombination "$and" (by decide))
    intro document
    rw [Filter.holds_notIn_eq_all, commaOperands, List.map_map]
    rfl
  · have hequality : Destination.ofKey field = Category.equality.destination field :=
      Destination.ofKey_eq_iff.mpr (.equality hparameter fun group other _ => hfield.ne_keyOf group other)
    have hequals : AsksFor [(field, value)] endpoint settings (.equals field (.text value)) :=
      asksFor_entry hequality hname rfl hfree
    apply hequals.matchAlike (hin value)
    intro document
    rw [Filter.holds_equals_eq_isIn, commaOperands, Text.split_of_not_mem hvalue, List.map_singleton]

/-- Red notes and those with a blank colour are listed in two ways, at an endpoint that requires a tenant. -/
theorem red_or_blank_in_two_forms :
    let endpoint : Endpoint := ({} : Endpoint).require "tenant" (.text "acme")
    let text := "\x7b\"$or\":[\x7b\"colour\":\"red\"\x7d,\x7b\"colour\":\"\"\x7d]\x7d"
    MatchAlike [("inList[colour]", "red,")] [("mongoQuery", text)] endpoint {} := by
  intro endpoint text
  have hread : Json.parse "\x7b\"$or\":[\x7b\"colour\":\"red\"\x7d,\x7b\"colour\":\"\"\x7d]\x7d" =
      .ok (.object [("$or", .array [.object [("colour", .text "red")], .object [("colour", .text "")]])]) := by
    cbv
  have hfield : Bracketable "colour" := ⟨by decide, by decide, by decide⟩
  have hspared : ∀ key ∈ Keyed.keys endpoint.baseFilter, key ≠ "colour" ∧ Path.isOperator key = false := by
    decide
  obtain ⟨-, ⟨-, hdisjunction⟩, -⟩ := surface_forms_match_alike hfield (by decide) hspared {} "red,"
  exact hdisjunction text hread

end Listing
