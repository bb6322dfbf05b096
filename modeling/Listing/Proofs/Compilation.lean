import Listing.Proofs.Composition
import Listing.Proofs.Entries
import Listing.Proofs.Outcome
import Listing.Request

/-!
# What a compiled request consists of

Compiling the pairs of a request goes through their destinations, the clauses of each category and
the composed filter. Each step is described once: which results it has, and which keys its clauses
stand on, in terms of the step before.
-/

namespace Listing

namespace Query

/-- The fields of a bracket group are those of the pairs that go there. -/
theorem mem_keys_groupOf {pairs : List Pair} {group : ListGroup} {field : String} :
    field ∈ Keyed.keys (groupOf pairs group) ↔
      ∃ pair ∈ pairs, Destination.ofKey pair.1 = .group group field := by
  rw [← Category.entries_list]
  exact Category.mem_keys_entries

/-- Pairs are read when no field is written like an operator and the filter document is accepted. -/
theorem parse_eq_ok_iff {pairs : List Pair} {settings : Settings} {query : Query} :
    parse pairs settings = .ok query ↔
      pairs.findSome? refusal? = none ∧
        ∃ override, overrideOf pairs = .ok override ∧ assemble pairs settings override = query := by
  rw [parse]
  cases pairs.findSome? refusal? with
  | some cause => simp
  | none => simp only [Outcome.map_eq_ok_iff, Outcome.mapError_eq_ok_iff, true_and]

/-- A query has constraints when the paths of both groups of array elements can be read. -/
theorem constraints_eq_ok_iff {query : Query} {endpoint : Endpoint} {settings : Settings}
    {constraints : Constraints} :
    query.constraints endpoint settings = .ok constraints ↔
      ∃ elementIn elementNotIn,
        Filter.elementConditions .isIn query.elementIn = .ok elementIn ∧
        Filter.elementConditions .notIn query.elementNotIn = .ok elementNotIn ∧
        constraints =
          { equality := Filter.equalities query.equality ++
              endpoint.baseFilter.map fun entry => Filter.equals entry.1 entry.2
            inList := Filter.memberships .isIn query.inList
            notInList := Filter.memberships .notIn query.notInList
            override := query.override
            elementIn := elementIn
            elementNotIn := elementNotIn
            search := Filter.search query.searchTerm endpoint.searchFields settings.maxSearchLength } := by
  rw [Query.constraints, Outcome.bind_eq_ok_iff]
  constructor
  · intro h
    obtain ⟨elementIn, hin, h⟩ := h
    obtain ⟨elementNotIn, hnotIn, h⟩ := Outcome.bind_eq_ok_iff.mp h
    exact ⟨elementIn, elementNotIn, hin, hnotIn, (Except.ok.inj h).symm⟩
  · intro h
    obtain ⟨elementIn, elementNotIn, hin, hnotIn, rfl⟩ := h
    exact ⟨elementIn, hin, Outcome.bind_eq_ok_iff.mpr ⟨elementNotIn, hnotIn, rfl⟩⟩

end Query

/-- A request is compiled when its pairs are read and its query has constraints. -/
theorem ListRequest.ofPairs_eq_ok_iff {pairs : List Pair} {endpoint : Endpoint} {settings : Settings}
    {request : ListRequest} :
    ofPairs pairs endpoint settings = .ok request ↔
      Query.parse pairs settings = .ok request.query ∧
        ∃ constraints, request.query.constraints endpoint settings = .ok constraints ∧
          constraints.filter = request.filter := by
  rw [ofPairs, Outcome.bind_eq_ok_iff]
  constructor
  · intro h
    obtain ⟨query, hquery, h⟩ := h
    obtain ⟨filter, hfilter, h⟩ := Outcome.bind_eq_ok_iff.mp h
    obtain rfl : { query, filter } = request := Except.ok.inj h
    exact ⟨hquery, Outcome.map_eq_ok_iff.mp hfilter⟩
  · intro h
    obtain ⟨hquery, hconstraints⟩ := h
    exact ⟨_, hquery, Outcome.bind_eq_ok_iff.mpr ⟨_, Outcome.map_eq_ok_iff.mpr hconstraints, rfl⟩⟩

/-- A request is compiled when no pair is refused, its filter document is accepted and its query has
constraints. -/
theorem ListRequest.ofPairs_eq_ok {pairs : List Pair} {endpoint : Endpoint} {settings : Settings}
    {override : List Clause} {constraints : Constraints} (hrefusal : pairs.findSome? Query.refusal? = none)
    (hoverride : Query.overrideOf pairs = .ok override)
    (hconstraints : (Query.assemble pairs settings override).constraints endpoint settings = .ok constraints) :
    ofPairs pairs endpoint settings = .ok ⟨.assemble pairs settings override, constraints.filter⟩ :=
  ofPairs_eq_ok_iff.mpr
    ⟨Query.parse_eq_ok_iff.mpr ⟨hrefusal, override, hoverride, rfl⟩, constraints, hconstraints, rfl⟩

namespace Constraints

/-- A clause of a category is a filter of it under its own key. -/
theorem mem_keyed {filters : List Filter} {clause : Clause} :
    clause ∈ keyed filters ↔ clause.2 ∈ filters ∧ clause.1 = clause.2.key := by
  rw [keyed, List.mem_map]
  constructor
  · intro h
    obtain ⟨filter, hfilter, rfl⟩ := h
    exact ⟨hfilter, rfl⟩
  · intro h
    exact ⟨clause.2, h.1, Prod.ext h.2.symm rfl⟩

/-- Filters stand under their own keys. -/
theorem keys_keyed (filters : List Filter) : Keyed.keys (keyed filters) = filters.map Filter.key := by
  rw [Keyed.keys, keyed, List.map_map]
  rfl

/-- The constraints with the given filters in each category. -/
def ofCategories (filters : Category → List Filter) (override : List Clause) (search : Option Filter) :
    Constraints where
  equality := filters .equality
  inList := filters (.list .inList)
  notInList := filters (.list .notInList)
  override := override
  elementIn := filters (.list .elementIn)
  elementNotIn := filters (.list .elementNotIn)
  search := search

/-- A clause is a filter of one of the categories under its own key, or one of the filter document. -/
theorem mem_clauses_ofCategories {filters : Category → List Filter} {override : List Clause} {search : Option Filter}
    {clause : Clause} :
    clause ∈ (ofCategories filters override search).clauses ↔
      (∃ category, clause.2 ∈ filters category ∧ clause.1 = clause.2.key) ∨ clause ∈ override := by
  unfold clauses ofCategories
  simp only [List.mem_append, mem_keyed]
  constructor
  · intro h
    rcases h with ((((h | h) | h) | h) | h) | h
    · exact .inl ⟨.equality, h⟩
    · exact .inl ⟨.list .inList, h⟩
    · exact .inl ⟨.list .notInList, h⟩
    · exact .inr h
    · exact .inl ⟨.list .elementIn, h⟩
    · exact .inl ⟨.list .elementNotIn, h⟩
  · intro h
    rcases h with ⟨category, h⟩ | h
    · cases category with
      | equality => simp [h]
      | list group => cases group <;> simp [h]
    · simp [h]

/-- A clause stands on a key in one of the categories or in the filter document. -/
theorem mem_keys_ofCategories {filters : Category → List Filter} {override : List Clause} {search : Option Filter}
    {key : String} :
    key ∈ Keyed.keys (ofCategories filters override search).clauses ↔
      (∃ category, ∃ filter ∈ filters category, filter.key = key) ∨ key ∈ Keyed.keys override := by
  simp only [Keyed.keys, List.mem_map, mem_clauses_ofCategories]
  constructor
  · intro h
    obtain ⟨clause, ⟨category, hfilter, hkey⟩ | hclause, rfl⟩ := h
    · exact .inl ⟨category, clause.2, hfilter, hkey.symm⟩
    · exact .inr ⟨clause, hclause, rfl⟩
  · intro h
    obtain ⟨category, filter, hfilter, rfl⟩ | ⟨clause, hclause, rfl⟩ := h
    · exact ⟨(filter.key, filter), .inl ⟨category, hfilter, rfl⟩, rfl⟩
    · exact ⟨clause, .inr hclause, rfl⟩

end Constraints

namespace Category

/-- What an endpoint requires in a category: base equalities come after the plain equalities of a request. -/
def required (endpoint : Endpoint) : Category → List Filter
  | equality => endpoint.baseFilter.map fun entry => Filter.equals entry.1 entry.2
  | list _ => []

/-- The filters of the entries of a query in a category. -/
def filters (query : Query) : Category → Except Failure (List Filter)
  | equality => .ok (Filter.equalities query.equality)
  | list .inList => .ok (Filter.memberships .isIn query.inList)
  | list .notInList => .ok (Filter.memberships .notIn query.notInList)
  | list .elementIn => Filter.elementConditions .isIn query.elementIn
  | list .elementNotIn => Filter.elementConditions .notIn query.elementNotIn

/-- Whatever is required in a category is a base equality. -/
theorem exists_of_mem_required {category : Category} {endpoint : Endpoint} {filter : Filter}
    (h : filter ∈ category.required endpoint) : ∃ entry ∈ endpoint.baseFilter, filter = .equals entry.1 entry.2 := by
  cases category with
  | equality =>
    obtain ⟨entry, hentry, hfilter⟩ := List.mem_map.mp h
    exact ⟨entry, hentry, hfilter.symm⟩
  | list group => exact absurd h List.not_mem_nil

/-- The entries of a query that is read have the filters that they stand for. -/
theorem filters_assemble (category : Category) (pairs : List Pair) (settings : Settings) (override : List Clause) :
    category.filters (Query.assemble pairs settings override) = (category.entries pairs).mapM category.filterOf := by
  cases category with
  | equality =>
    rw [entries_equality]
    exact (List.mapM_pure (m := Except Failure)).symm
  | list group =>
    rw [entries_list]
    cases group with
    | inList => exact (List.mapM_pure (m := Except Failure)).symm
    | notInList => exact (List.mapM_pure (m := Except Failure)).symm
    | elementIn => rfl
    | elementNotIn => rfl

end Category

/-- Filters that are given by category are the constraints of their query. -/
theorem Constraints.ofCategories_filters {query : Query} {endpoint : Endpoint} {filters : Category → List Filter}
    (h : ∀ category : Category, category.filters query = .ok (filters category)) {override : List Clause}
    {search : Option Filter} :
    ofCategories (fun category => filters category ++ category.required endpoint) override search =
      { equality := Filter.equalities query.equality ++
          endpoint.baseFilter.map fun entry => Filter.equals entry.1 entry.2
        inList := Filter.memberships .isIn query.inList
        notInList := Filter.memberships .notIn query.notInList
        override := override
        elementIn := filters (.list .elementIn)
        elementNotIn := filters (.list .elementNotIn)
        search := search } := by
  have hequality := Except.ok.inj (h .equality)
  have hin := Except.ok.inj (h (.list .inList))
  have hnotIn := Except.ok.inj (h (.list .notInList))
  simp [ofCategories, Category.required, hequality, hin, hnotIn]

/-- The constraints of a query are the filters of its entries and, after them, what the endpoint requires. -/
theorem Query.constraints_eq_ok_iff_filters {query : Query} {endpoint : Endpoint} {settings : Settings}
    {constraints : Constraints} :
    query.constraints endpoint settings = .ok constraints ↔
      ∃ filters : Category → List Filter, (∀ category : Category, category.filters query = .ok (filters category)) ∧
        constraints = .ofCategories (fun category => filters category ++ category.required endpoint) query.override
          (Filter.search query.searchTerm endpoint.searchFields settings.maxSearchLength) := by
  rw [constraints_eq_ok_iff]
  constructor
  · intro h
    obtain ⟨elementIn, elementNotIn, hin, hnotIn, rfl⟩ := h
    have hread (category : Category) : ∃ filters, category.filters query = .ok filters := by
      cases category with
      | equality => exact ⟨_, rfl⟩
      | list group =>
        cases group with
        | inList => exact ⟨_, rfl⟩
        | notInList => exact ⟨_, rfl⟩
        | elementIn => exact ⟨elementIn, hin⟩
        | elementNotIn => exact ⟨elementNotIn, hnotIn⟩
    choose filters hfilters using hread
    obtain rfl := Except.ok.inj (hin.symm.trans (hfilters (.list .elementIn)))
    obtain rfl := Except.ok.inj (hnotIn.symm.trans (hfilters (.list .elementNotIn)))
    exact ⟨filters, hfilters, (Constraints.ofCategories_filters hfilters).symm⟩
  · intro h
    obtain ⟨filters, hfilters, rfl⟩ := h
    refine ⟨_, _, hfilters (.list .elementIn), hfilters (.list .elementNotIn), ?_⟩
    exact Constraints.ofCategories_filters hfilters

namespace Filter

/-- Equalities stand on the fields of their group. -/
theorem keys_equalities (group : Keyed String) :
    Keyed.keys (Constraints.keyed (equalities group)) = Keyed.keys group := by
  rw [Constraints.keys_keyed, equalities, List.map_map]
  rfl

/-- Membership tests stand on the fields of their group. -/
theorem keys_memberships (kind : Membership) (group : Keyed String) :
    Keyed.keys (Constraints.keyed (memberships kind group)) = Keyed.keys group := by
  rw [Constraints.keys_keyed, memberships, List.map_map]
  rfl

/-- Tests of array elements stand on the array fields of their group. -/
theorem mem_keys_elementConditions {kind : Membership} {group : Keyed String} {filters : List Filter}
    (h : elementConditions kind group = .ok filters) {key : String} :
    key ∈ Keyed.keys (Constraints.keyed filters) ↔
      ∃ path ∈ Keyed.keys group, ∃ field, ElementPath.parse path = .ok ⟨key, field⟩ := by
  rw [Constraints.keys_keyed, Keyed.keys]
  induction Outcome.mapM_eq_ok_iff.mp h with
  | nil => simp
  | @cons entry filter rest filters hentry hrest ih =>
    obtain ⟨path, hpath, rfl⟩ := Outcome.map_eq_ok_iff.mp hentry
    have hkey : (∃ field, ElementPath.parse entry.1 = .ok ⟨key, field⟩) ↔ key = path.array := by
      rw [hpath]
      constructor
      · intro h
        obtain ⟨field, hfield⟩ := h
        exact congrArg ElementPath.array (Except.ok.inj hfield).symm
      · intro h
        subst h
        exact ⟨path.field, rfl⟩
    rw [List.map_cons, List.mem_cons, ih (Outcome.mapM_eq_ok_iff.mpr hrest), List.map_cons,
      List.exists_mem_cons_iff, hkey]
    rfl

end Filter

/-- Every clause of a request is the filter of one of its entries, a base equality of the endpoint or a clause
of the filter document. -/
theorem mem_clauses {pairs : List Pair} {settings : Settings} {endpoint : Endpoint} {query : Query}
    {constraints : Constraints} (hquery : Query.parse pairs settings = .ok query)
    (hconstraints : query.constraints endpoint settings = .ok constraints) {clause : Clause}
    (hclause : clause ∈ constraints.clauses) :
    (∃ category : Category, ∃ entry ∈ category.entries pairs, category.filterOf entry = .ok clause.2) ∨
      (∃ entry ∈ endpoint.baseFilter, clause.2 = .equals entry.1 entry.2) ∨ clause ∈ query.override := by
  obtain ⟨-, override, -, rfl⟩ := Query.parse_eq_ok_iff.mp hquery
  obtain ⟨filters, hfilters, rfl⟩ := Query.constraints_eq_ok_iff_filters.mp hconstraints
  simp only [Category.filters_assemble] at hfilters
  rcases Constraints.mem_clauses_ofCategories.mp hclause with ⟨category, hfilter, -⟩ | hoverride
  · rcases List.mem_append.mp hfilter with hfilter | hrequired
    · obtain ⟨entry, hentry, hread⟩ := Outcome.exists_of_mem_results (hfilters category) hfilter
      exact .inl ⟨category, entry, hentry, hread⟩
    · exact .inr (.inl (Category.exists_of_mem_required hrequired))
  · exact .inr (.inr hoverride)

/-- The clauses of a filter document stand on its keys. -/
theorem Override.keys_ofJson {fields : List (String × Json)} {clauses : List Clause}
    (h : ofJson (.object fields) = .ok clauses) : Keyed.keys clauses = Keyed.keys fields := by
  rw [ofJson] at h
  induction fields generalizing clauses with
  | nil =>
    rw [Override.clauses] at h
    rw [← Except.ok.inj h]
    rfl
  | cons entry rest ih =>
    rw [Override.clauses_cons] at h
    obtain ⟨filter, -, h⟩ := Outcome.bind_eq_ok_iff.mp h
    obtain ⟨others, hothers, h⟩ := Outcome.bind_eq_ok_iff.mp h
    rw [← Except.ok.inj h, Keyed.keys, List.map_cons]
    exact congrArg (entry.1 :: ·) (ih hothers)

end Listing
