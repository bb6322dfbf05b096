import Listing.Proofs.BaseFilter
import Listing.Proofs.Categories
import Listing.Proofs.LastValues

/-!
# Requests that ask for one thing more

An entry on a field that a request does not constrain yet becomes a clause on a key of its own. It
replaces no clause, and none replaces it, so wherever the pair of the entry stands among the others,
the request then asks for what it asked for before and for the filter of the entry.
-/

namespace Listing

namespace Constraints

/-- The filters of two parts of a category are put under their keys part by part. -/
theorem keyed_append (filters more : List Filter) :
    keyed (filters ++ more) = keyed filters ++ keyed more :=
  List.map_append

/-- A later category has the last word on a key. -/
theorem last?_ofCategories (filters : Category → List Filter) (override : List Clause) (search : Option Filter)
    (key : String) :
    Keyed.last? (ofCategories filters override search).clauses key =
      ((Keyed.last? (keyed (filters (.list .elementNotIn))) key).or
        ((Keyed.last? (keyed (filters (.list .elementIn))) key).or
          ((Keyed.last? override key).or
            ((Keyed.last? (keyed (filters (.list .notInList))) key).or
              ((Keyed.last? (keyed (filters (.list .inList))) key).or
                (Keyed.last? (keyed (filters .equality)) key)))))) := by
  unfold clauses ofCategories
  simp only [Keyed.last?_append]

/-- One clause more than other constraints have, on a key of its own, and the same search. -/
structure Gains (constraints : Constraints) (clause : Filter) (others : Constraints) : Prop where
  /-- There was no clause on the key. -/
  new : clause.key ∉ Keyed.keys constraints.clauses
  /-- The clause is the last one on its key, and the other keys keep their last clauses. -/
  last? (key : String) : Keyed.last? others.clauses key =
    if clause.key = key then some clause else Keyed.last? constraints.clauses key
  /-- The search stays. -/
  search : others.search = constraints.search

/-- A clause on a new key is asked for besides everything else. -/
theorem Gains.holds_filter {constraints others : Constraints} {clause : Filter} (h : constraints.Gains clause others)
    (document : Json) :
    others.filter.holds document = (constraints.filter.holds document && clause.holds document) := by
  rw [Bool.eq_iff_iff, Bool.and_eq_true, Constraints.holds_filter, Constraints.holds_filter, h.search]
  simp only [h.last?]
  constructor
  · intro hall
    obtain ⟨hclauses, hsearch⟩ := hall
    refine ⟨⟨fun key found hlast => hclauses key found ?_, hsearch⟩, hclauses clause.key clause (if_pos rfl)⟩
    have hne : clause.key ≠ key := by
      intro heq
      rw [← heq, Keyed.last?_eq_none_iff.mpr h.new] at hlast
      contradiction
    rw [if_neg hne, hlast]
  · intro hall
    obtain ⟨⟨hclauses, hsearch⟩, hclause⟩ := hall
    refine ⟨fun key found hlast => ?_, hsearch⟩
    by_cases heq : clause.key = key
    · rw [if_pos heq] at hlast
      exact Option.some.inj hlast ▸ hclause
    · rw [if_neg heq] at hlast
      exact hclauses key found hlast

/-- A filter on a new key gives one clause more, in whatever category and wherever in it the filter stands. -/
theorem gains_ofCategories {filters others : Category → List Filter} {override : List Clause} {search : Option Filter}
    {category : Category} {before after : List Filter} {clause : Filter}
    (hnew : clause.key ∉ Keyed.keys (ofCategories filters override search).clauses)
    (hbefore : filters category = before ++ after) (hafter : others category = before ++ clause :: after)
    (hsame : ∀ other, other ≠ category → others other = filters other) :
    (ofCategories filters override search).Gains clause (ofCategories others override search) := by
  refine ⟨hnew, fun key => ?_, rfl⟩
  -- The key is new in each category by itself, so the clause meets none that replaces it or that it replaces.
  rw [mem_keys_ofCategories, not_or, not_exists] at hnew
  obtain ⟨hfilters, hoverride⟩ := hnew
  have hkeys (other : Category) : clause.key ∉ (filters other).map Filter.key := by
    rw [List.mem_map]
    exact hfilters other
  have hnone (other : Category) : Keyed.last? (keyed (filters other)) clause.key = none := by
    rw [Keyed.last?_eq_none_iff, keys_keyed]
    exact hkeys other
  have hkeyed (other : Category) : Keyed.last? (keyed (others other)) key =
      if other = category ∧ clause.key = key then some clause else Keyed.last? (keyed (filters other)) key := by
    by_cases hother : other = category
    · subst hother
      have hnew : clause.key ∉ Keyed.keys (keyed after) := by
        have hother := hkeys other
        rw [hbefore, List.map_append, List.mem_append, not_or] at hother
        rw [keys_keyed]
        exact hother.2
      have hinsert : keyed (others other) = keyed before ++ (clause.key, clause) :: keyed after := by
        rw [hafter, keyed_append]
        rfl
      rw [hinsert, hbefore, keyed_append, Keyed.last?_insert hnew]
      simp
    · rw [hsame other hother, if_neg fun h => hother h.1]
  by_cases hkey : clause.key = key
  · subst hkey
    simp only [last?_ofCategories, hkeyed, hnone, Keyed.last?_eq_none_iff.mpr hoverride]
    cases category with
    | equality => simp
    | list group => cases group <;> simp
  · simp only [last?_ofCategories, hkeyed, hkey, and_false, if_false]

end Constraints

/-- What puts a clause on a field: a plain equality of the request, a base equality of the endpoint, or what
displaces that. -/
inductive Constrains (pairs : List Pair) (endpoint : Endpoint) (field : String) : Prop where
  | equality (pair : Pair) (hpair : pair ∈ pairs) (hkey : Destination.ofKey pair.1 = .equality field)
  | base (hfield : field ∈ Keyed.keys endpoint.baseFilter)
  | later (hdisplaces : Displaces pairs field)

section

variable {pairs : List Pair} {settings : Settings} {endpoint : Endpoint} {query : Query} {constraints : Constraints}

/-- A field has a clause exactly when the request or its endpoint puts one there. -/
theorem constrains_iff (hquery : Query.parse pairs settings = .ok query)
    (hconstraints : query.constraints endpoint settings = .ok constraints) {field : String} :
    Constrains pairs endpoint field ↔ field ∈ Keyed.keys constraints.clauses := by
  have hequality : field ∈ Keyed.keys (Constraints.keyed (Filter.equalities query.equality)) ↔
      ∃ pair ∈ pairs, Destination.ofKey pair.1 = .equality field := by
    obtain ⟨-, override, -, rfl⟩ := Query.parse_eq_ok_iff.mp hquery
    have hentries : (Query.assemble pairs settings override).equality = Category.equality.entries pairs :=
      (Category.entries_equality pairs).symm
    rw [Filter.keys_equalities, hentries]
    exact Category.mem_keys_entries
  rw [clauses_of_constraints hconstraints, Keyed.keys_append, Keyed.keys_append, List.mem_append, List.mem_append,
    hequality, Endpoint.keys_baseClauses, ← displaces_iff hquery hconstraints]
  constructor
  · intro h
    cases h with
    | equality pair hpair hkey => exact .inl ⟨pair, hpair, hkey⟩
    | base hfield => exact .inr (.inl hfield)
    | later hdisplaces => exact .inr (.inr hdisplaces)
  · intro h
    rcases h with ⟨pair, hpair, hkey⟩ | hfield | hdisplaces
    · exact .equality pair hpair hkey
    · exact .base hfield
    · exact .later hdisplaces

end

section

variable {category : Category} {before after : List Pair} {key field : String} {settings : Settings}
  {endpoint : Endpoint}

/-- A pair that goes to a field gives no parameter a value. -/
theorem Query.lastValue_insert (hkey : Destination.ofKey key = category.destination field) (value : String)
    (parameter : Parameter) :
    lastValue (before ++ (key, value) :: after) parameter = lastValue (before ++ after) parameter := by
  refine lastValue_insert_of_ne fun hparameter => ?_
  have hfield := Category.field?_destination category field
  rw [← hkey, hparameter] at hfield
  contradiction

/-- A pair whose field does not name an operator is read besides the others. -/
theorem Query.parse_insert {query : Query} (hkey : Destination.ofKey key = category.destination field)
    (hname : Path.namesOperator field = false) (value : String)
    (hquery : parse (before ++ after) settings = .ok query) :
    query = assemble (before ++ after) settings query.override ∧
      parse (before ++ (key, value) :: after) settings =
        .ok (assemble (before ++ (key, value) :: after) settings query.override) := by
  obtain ⟨hrefusal, override, hoverride, rfl⟩ := parse_eq_ok_iff.mp hquery
  refine ⟨rfl, parse_eq_ok_iff.mpr ⟨?_, override, ?_, rfl⟩⟩
  · have hnone : refusal? (key, value) = none := by
      unfold refusal?
      rw [hkey, Category.field?_destination]
      simp [hname]
    rw [List.findSome?_append] at hrefusal ⊢
    rw [List.findSome?_cons, hnone]
    exact hrefusal
  · unfold overrideOf at hoverride ⊢
    rwa [lastValue_insert hkey value]

/-- Among the constraints of a request, an entry whose filter has a key of its own gives one clause more. -/
theorem Query.exists_constraints_insert {query : Query} {constraints : Constraints} {value : String} {clause : Filter}
    (hkey : Destination.ofKey key = category.destination field) (hname : Path.namesOperator field = false)
    (hclause : category.filterOf (field, value) = .ok clause)
    (hquery : parse (before ++ after) settings = .ok query)
    (hconstraints : query.constraints endpoint settings = .ok constraints)
    (hnew : clause.key ∉ Keyed.keys constraints.clauses) :
    ∃ longer others, parse (before ++ (key, value) :: after) settings = .ok longer ∧
      longer.constraints endpoint settings = .ok others ∧ constraints.Gains clause others := by
  obtain ⟨hassemble, hlonger⟩ := parse_insert hkey hname value hquery
  rw [hassemble] at hconstraints
  obtain ⟨filters, hfilters, rfl⟩ := constraints_eq_ok_iff_filters.mp hconstraints
  simp only [Category.filters_assemble] at hfilters
  -- An entry on the field would already have put a clause on the key, so the entry is new in its group.
  have hnewField : field ∉ Keyed.keys (category.entries (before ++ after)) := by
    intro hmem
    apply hnew
    obtain ⟨entry, hentry, rfl⟩ := List.mem_map.mp hmem
    obtain ⟨filter, hfilter, hread⟩ := Outcome.exists_of_mem_values (hfilters category) hentry
    rw [Constraints.mem_keys_ofCategories]
    refine .inl ⟨category, filter, List.mem_append_left _ hfilter, ?_⟩
    rw [Category.key_of_filterOf hread, Category.key_of_filterOf hclause]
  obtain ⟨left, right, hleft, hright⟩ := Keyed.exists_insertSorted_eq hnewField value
  have hcategory := hfilters category
  rw [hleft, Outcome.mapM_append_eq_ok_iff] at hcategory
  obtain ⟨first, second, hfirst, hsecond, hboth⟩ := hcategory
  have hread (other : Category) : other.filters (assemble (before ++ (key, value) :: after) settings query.override) =
      .ok (if other = category then first ++ clause :: second else filters other) := by
    rw [Category.filters_assemble]
    by_cases hsame : other = category
    · subst hsame
      have hcons : ((field, value) :: right).mapM other.filterOf = .ok (clause :: second) :=
        Outcome.mapM_eq_ok_iff.mpr (.cons hclause (Outcome.mapM_eq_ok_iff.mp hsecond))
      rw [Category.entries_insert hkey hnewField, hright, if_pos rfl]
      exact Outcome.mapM_append_eq_ok_iff.mpr ⟨first, clause :: second, hfirst, hcons, rfl⟩
    · have hnone : other.entryOf? (key, value) = none := by
        unfold Category.entryOf?
        rw [hkey, Category.field?_destination]
        exact if_neg fun h => hsame (Category.destination_inj h).1.symm
      rw [Category.entries_insert_of_none hnone, hfilters other, if_neg hsame]
  have hsearch : (assemble (before ++ (key, value) :: after) settings query.override).searchTerm =
      (assemble (before ++ after) settings query.override).searchTerm :=
    congrArg (·.getD "") (lastValue_insert hkey value _)
  refine ⟨_, _, hlonger, constraints_eq_ok_iff_filters.mpr ⟨_, hread, rfl⟩, ?_⟩
  rw [hsearch]
  have hbefore : filters category ++ category.required endpoint =
      first ++ (second ++ category.required endpoint) := by
    rw [hboth, List.append_assoc]
  refine Constraints.gains_ofCategories hnew hbefore ?_ fun other hne => ?_
  · simp
  · simp [hne]

/-- A request that is given an entry whose filter has a key of its own asks for that filter, too. -/
theorem ListRequest.exists_ofPairs_insert {request : ListRequest} {clause : Filter}
    (hkey : Destination.ofKey key = category.destination field) (hname : Path.namesOperator field = false)
    (value : String) (hclause : category.filterOf (field, value) = .ok clause)
    (hrequest : ofPairs (before ++ after) endpoint settings = .ok request)
    (hfree : ¬ Constrains (before ++ after) endpoint clause.key) :
    ∃ narrowed, ofPairs (before ++ (key, value) :: after) endpoint settings = .ok narrowed ∧
      ∀ document, narrowed.filter.holds document = (request.filter.holds document && clause.holds document) := by
  obtain ⟨hquery, constraints, hconstraints, hfilter⟩ := ofPairs_eq_ok_iff.mp hrequest
  have hnew : clause.key ∉ Keyed.keys constraints.clauses :=
    fun hmem => hfree ((constrains_iff hquery hconstraints).mpr hmem)
  obtain ⟨longer, others, hlonger, hothers, hgains⟩ :=
    Query.exists_constraints_insert hkey hname hclause hquery hconstraints hnew
  refine ⟨⟨longer, others.filter⟩, ofPairs_eq_ok_iff.mpr ⟨hlonger, others, hothers, rfl⟩, fun document => ?_⟩
  rw [← hfilter]
  exact hgains.holds_filter document

end

end Listing
