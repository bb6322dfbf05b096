import Listing.Proofs.Answer
import Listing.Proofs.Compilation
import Mathlib.Data.List.Permutation

/-!
# The base filter of an endpoint

An endpoint adds equalities to every request. They come after the plain equalities of the request,
so no plain equality replaces one, and the search and the inside of a filter document have no key at
all. Only a clause of a later category on the very field of a base equality takes its place, and
then the value of the base equality no longer matters.
-/

namespace Listing

namespace Keyed

variable {α : Type u}

/-- The keys after an insertion in order do not depend on the value. -/
theorem keys_insertSorted_congr (entries : Keyed α) (key : String) (value other : α) :
    keys (insertSorted entries key value) = keys (insertSorted entries key other) := by
  induction entries with
  | nil => rfl
  | cons entry rest ih =>
    obtain ⟨k, v⟩ := entry
    rw [insertSorted, insertSorted]
    by_cases hlt : key < k
    · rw [if_pos hlt, if_pos hlt]
      rfl
    · by_cases heq : k = key
      · rw [if_neg hlt, if_neg hlt, if_pos heq, if_pos heq]
        rfl
      · rw [if_neg hlt, if_neg hlt, if_neg heq, if_neg heq]
        exact congrArg (k :: ·) ih

end Keyed

namespace Constraints

/-- The clauses of all categories after the equalities. -/
def laterClauses (constraints : Constraints) : List Clause :=
  keyed constraints.inList ++ keyed constraints.notInList ++ constraints.override ++
    keyed constraints.elementIn ++ keyed constraints.elementNotIn

/-- The equalities come before the clauses of all other categories. -/
theorem clauses_eq_equality_append (constraints : Constraints) :
    constraints.clauses = keyed constraints.equality ++ constraints.laterClauses := by
  simp only [clauses, laterClauses, List.append_assoc]

/-- A key with a later clause has it in one of the five categories. -/
theorem mem_keys_laterClauses {constraints : Constraints} {key : String} :
    key ∈ Keyed.keys constraints.laterClauses ↔
      key ∈ Keyed.keys (keyed constraints.inList) ∨ key ∈ Keyed.keys (keyed constraints.notInList) ∨
        key ∈ Keyed.keys constraints.override ∨ key ∈ Keyed.keys (keyed constraints.elementIn) ∨
          key ∈ Keyed.keys (keyed constraints.elementNotIn) := by
  simp only [laterClauses, Keyed.keys_append, List.mem_append, or_assoc]

/-- Clauses with the same keys and the same last values, and the same search, compose to the same
filter. -/
theorem filter_congr {constraints others : Constraints}
    (hkeys : Keyed.keys constraints.clauses = Keyed.keys others.clauses)
    (hlast : ∀ key, Keyed.last? constraints.clauses key = Keyed.last? others.clauses key)
    (hsearch : constraints.search = others.search) : constraints.filter = others.filter := by
  rw [filter, filter, Keyed.ofList_congr hkeys hlast, hsearch]

end Constraints

namespace Endpoint

/-- The base equalities of an endpoint as clauses. -/
def baseClauses (endpoint : Endpoint) : List Clause :=
  Constraints.keyed (endpoint.baseFilter.map fun entry => Filter.equals entry.1 entry.2)

/-- A base equality stands on its field, and no other clause of the endpoint does. -/
theorem last?_baseClauses (endpoint : Endpoint) (field : String) :
    Keyed.last? endpoint.baseClauses field = (Keyed.get? endpoint.baseFilter field).map (Filter.equals field) := by
  have hclauses : endpoint.baseClauses =
      endpoint.baseFilter.map fun entry => (entry.1, Filter.equals entry.1 entry.2) := by
    rw [baseClauses, Constraints.keyed, List.map_map]
    rfl
  rw [hclauses, Keyed.last?_map, Keyed.last?_eq_get? endpoint.ordered.nodup]

/-- The base equalities stand on the fields of the base filter. -/
theorem keys_baseClauses (endpoint : Endpoint) :
    Keyed.keys endpoint.baseClauses = Keyed.keys endpoint.baseFilter := by
  rw [baseClauses, Constraints.keys_keyed, List.map_map]
  rfl

end Endpoint

/-- What makes a request put a clause of its own on a field after the base equalities: an entry of
one of the two list groups on the field, the field as a key of its filter document, or an entry of
one of the two groups of array elements whose array is the field. -/
inductive Displaces (pairs : List Pair) (field : String) : Prop where
  | inList (pair : Pair) (hpair : pair ∈ pairs) (hkey : Destination.ofKey pair.1 = .group .inList field)
  | notInList (pair : Pair) (hpair : pair ∈ pairs) (hkey : Destination.ofKey pair.1 = .group .notInList field)
  | override (text : String) (fields : List (String × Json))
      (hlast : Query.lastValue pairs .override = some text) (hread : Json.parse text = .ok (.object fields))
      (hfield : field ∈ Keyed.keys fields)
  | elementIn (pair : Pair) (path inner : String) (hpair : pair ∈ pairs)
      (hkey : Destination.ofKey pair.1 = .group .elementIn path)
      (hpath : ElementPath.parse path = .ok ⟨field, inner⟩)
  | elementNotIn (pair : Pair) (path inner : String) (hpair : pair ∈ pairs)
      (hkey : Destination.ofKey pair.1 = .group .elementNotIn path)
      (hpath : ElementPath.parse path = .ok ⟨field, inner⟩)

/-- The clauses of an accepted filter document stand on the keys of that document. -/
theorem Query.mem_keys_override {pairs : List Pair} {clauses : List Clause} (h : overrideOf pairs = .ok clauses)
    {field : String} :
    field ∈ Keyed.keys clauses ↔
      ∃ text fields, lastValue pairs .override = some text ∧ Json.parse text = .ok (.object fields) ∧
        field ∈ Keyed.keys fields := by
  rw [overrideOf] at h
  split at h
  · next text hlast =>
    rw [hlast]
    obtain ⟨document, hread, hclauses⟩ := Outcome.bind_eq_ok_iff.mp h
    have hread := Outcome.mapError_eq_ok_iff.mp hread
    cases document with
    | object fields =>
      rw [Override.keys_ofJson hclauses]
      constructor
      · intro hfield
        exact ⟨text, fields, rfl, hread, hfield⟩
      · intro ⟨text', fields', htext, hread', hfield⟩
        rw [← Option.some.inj htext, hread] at hread'
        exact (Json.object.inj (Except.ok.inj hread')) ▸ hfield
    | _ => contradiction
  · next hlast =>
    rw [hlast, ← Except.ok.inj h]
    simp [Keyed.keys]

section Compiled

variable {pairs : List Pair} {settings : Settings} {endpoint : Endpoint} {query : Query} {constraints : Constraints}

/-- A field has a clause after the equalities exactly when the request puts one there. -/
theorem displaces_iff (hquery : Query.parse pairs settings = .ok query)
    (hconstraints : query.constraints endpoint settings = .ok constraints) {field : String} :
    Displaces pairs field ↔ field ∈ Keyed.keys constraints.laterClauses := by
  obtain ⟨-, override, hoverride, rfl⟩ := Query.parse_eq_ok_iff.mp hquery
  obtain ⟨elementIn, elementNotIn, hin, hnotIn, rfl⟩ := Query.constraints_eq_ok_iff.mp hconstraints
  rw [Constraints.mem_keys_laterClauses, Filter.keys_memberships, Filter.keys_memberships,
    Filter.mem_keys_elementConditions hin, Filter.mem_keys_elementConditions hnotIn]
  constructor
  · intro h
    cases h with
    | inList pair hpair hkey => exact .inl (Query.mem_keys_groupOf.mpr ⟨pair, hpair, hkey⟩)
    | notInList pair hpair hkey => exact .inr (.inl (Query.mem_keys_groupOf.mpr ⟨pair, hpair, hkey⟩))
    | override text fields hlast hread hfield =>
      exact .inr (.inr (.inl ((Query.mem_keys_override hoverride).mpr ⟨text, fields, hlast, hread, hfield⟩)))
    | elementIn pair path inner hpair hkey hpath =>
      exact .inr (.inr (.inr (.inl ⟨path, Query.mem_keys_groupOf.mpr ⟨pair, hpair, hkey⟩, inner, hpath⟩)))
    | elementNotIn pair path inner hpair hkey hpath =>
      exact .inr (.inr (.inr (.inr ⟨path, Query.mem_keys_groupOf.mpr ⟨pair, hpair, hkey⟩, inner, hpath⟩)))
  · intro h
    rcases h with hin | hnotIn | hoverridden | ⟨path, hin, inner, hpath⟩ | ⟨path, hnotIn, inner, hpath⟩
    · obtain ⟨pair, hpair, hkey⟩ := Query.mem_keys_groupOf.mp hin
      exact .inList pair hpair hkey
    · obtain ⟨pair, hpair, hkey⟩ := Query.mem_keys_groupOf.mp hnotIn
      exact .notInList pair hpair hkey
    · obtain ⟨text, fields, hlast, hread, hfield⟩ := (Query.mem_keys_override hoverride).mp hoverridden
      exact .override text fields hlast hread hfield
    · obtain ⟨pair, hpair, hkey⟩ := Query.mem_keys_groupOf.mp hin
      exact .elementIn pair path inner hpair hkey hpath
    · obtain ⟨pair, hpair, hkey⟩ := Query.mem_keys_groupOf.mp hnotIn
      exact .elementNotIn pair path inner hpair hkey hpath

/-- The clauses of a request: its plain equalities, the base equalities and the later categories. -/
theorem clauses_of_constraints (hconstraints : query.constraints endpoint settings = .ok constraints) :
    constraints.clauses =
      Constraints.keyed (Filter.equalities query.equality) ++ (endpoint.baseClauses ++ constraints.laterClauses) := by
  obtain ⟨elementIn, elementNotIn, -, -, rfl⟩ := Query.constraints_eq_ok_iff.mp hconstraints
  rw [Constraints.clauses_eq_equality_append, ← List.append_assoc, Endpoint.baseClauses, Constraints.keyed,
    List.map_append]
  rfl

/-- A base equality is the last clause on its field unless the request displaces it. -/
theorem last?_clauses_of_not_displaces (hquery : Query.parse pairs settings = .ok query)
    (hconstraints : query.constraints endpoint settings = .ok constraints) {field : String} {value : Json}
    (hbase : Keyed.get? endpoint.baseFilter field = some value) (hfree : ¬ Displaces pairs field) :
    Keyed.last? constraints.clauses field = some (.equals field value) := by
  have hlater : Keyed.last? constraints.laterClauses field = none :=
    Keyed.last?_eq_none_iff.mpr fun hmem => hfree ((displaces_iff hquery hconstraints).mpr hmem)
  rw [clauses_of_constraints hconstraints, Keyed.last?_append, Keyed.last?_append, hlater, Option.none_or,
    Endpoint.last?_baseClauses, hbase]
  rfl

/-- Documents that satisfy the filter of a request satisfy every base equality that the request does
not displace. -/
theorem holds_base_of_holds_filter (hquery : Query.parse pairs settings = .ok query)
    (hconstraints : query.constraints endpoint settings = .ok constraints) {field : String} {value : Json}
    (hbase : Keyed.get? endpoint.baseFilter field = some value) (hfree : ¬ Displaces pairs field)
    {document : Json} (hholds : constraints.filter.holds document = true) :
    (Filter.equals field value).holds document = true :=
  ((constraints.holds_filter document).mp hholds).1 field _
    (last?_clauses_of_not_displaces hquery hconstraints hbase hfree)

/-- Where a later clause stands on a field, the value of its base equality does not change the
filter. -/
theorem filter_eq_of_later_clause {field : String} {value other : Json} {first second : Constraints}
    (hfirst : query.constraints (endpoint.require field value) settings = .ok first)
    (hsecond : query.constraints (endpoint.require field other) settings = .ok second)
    (hlater : first.laterClauses = second.laterClauses) (hsearch : first.search = second.search)
    (hfield : field ∈ Keyed.keys second.laterClauses) : first.filter = second.filter := by
  have hkeys : Keyed.keys (endpoint.require field value).baseClauses =
      Keyed.keys (endpoint.require field other).baseClauses := by
    rw [Endpoint.keys_baseClauses, Endpoint.keys_baseClauses]
    exact Keyed.keys_insertSorted_congr _ _ _ _
  refine Constraints.filter_congr ?_ (fun key => ?_) hsearch
  · rw [clauses_of_constraints hfirst, clauses_of_constraints hsecond, Keyed.keys_append, Keyed.keys_append,
      Keyed.keys_append, Keyed.keys_append, hkeys, hlater]
  · rw [clauses_of_constraints hfirst, clauses_of_constraints hsecond, Keyed.last?_append, Keyed.last?_append,
      Keyed.last?_append, Keyed.last?_append, hlater]
    by_cases hkey : field = key
    · -- the later clause hides both base equalities
      obtain ⟨clause, hlast⟩ := Keyed.exists_last?_of_mem (hkey ▸ hfield)
      simp only [hlast, Option.some_or]
    · have hbase (base : Json) : Keyed.last? (endpoint.require field base).baseClauses key =
          (Keyed.get? endpoint.baseFilter key).map (Filter.equals key) := by
        rw [Endpoint.last?_baseClauses, Endpoint.require, Keyed.get?_insertSorted, if_neg hkey]
      rw [hbase, hbase]

/-- A request that displaces a base equality has the same filter, or the same failure, whatever the
value of that equality. -/
theorem filter_eq_of_displaces (hquery : Query.parse pairs settings = .ok query) {field : String}
    (hdisplaces : Displaces pairs field) (value other : Json) :
    query.filter (endpoint.require field value) settings = query.filter (endpoint.require field other) settings := by
  cases hin : Filter.elementConditions .isIn query.elementIn with
  | error e =>
    rw [Query.filter, Query.filter, Query.constraints, Query.constraints, hin]
    rfl
  | ok elementIn =>
    cases hnotIn : Filter.elementConditions .notIn query.elementNotIn with
    | error e =>
      rw [Query.filter, Query.filter, Query.constraints, Query.constraints, hin, hnotIn]
      rfl
    | ok elementNotIn =>
      have hfirst : query.constraints (endpoint.require field value) settings = .ok _ :=
        Query.constraints_eq_ok_iff.mpr ⟨elementIn, elementNotIn, hin, hnotIn, rfl⟩
      have hsecond : query.constraints (endpoint.require field other) settings = .ok _ :=
        Query.constraints_eq_ok_iff.mpr ⟨elementIn, elementNotIn, hin, hnotIn, rfl⟩
      rw [Query.filter, Query.filter, hfirst, hsecond]
      exact congrArg Except.ok
        (filter_eq_of_later_clause hfirst hsecond rfl rfl ((displaces_iff hquery hsecond).mp hdisplaces))

end Compiled

/-- Every document that is counted or given out satisfies the base equalities of the endpoint, as
long as the request puts no clause of a later category on their fields; and where it does, the
request means the same for every value of the base equality. -/
theorem base_filter_yields_only_to_own_field (store : Store) (name : String) (pairs : List Pair)
    (endpoint : Endpoint) (settings : Settings) (field : String) :
    (¬ Displaces pairs field → ∀ value page, Keyed.get? endpoint.baseFilter field = some value →
      (store.list name pairs endpoint settings).1 = .ok page →
        ∃ request, ListRequest.ofPairs pairs endpoint settings = .ok request ∧
          page.pageInfo.itemCount = (store.matching name request.filter).length ∧
          page.documents = (store.slice name (request.selection endpoint)).map
            (store.present name (request.selection endpoint)) ∧
          (∀ document ∈ store.matching name request.filter, (Filter.equals field value).holds document = true) ∧
          ∀ document ∈ store.slice name (request.selection endpoint),
            (Filter.equals field value).holds document = true) ∧
      (Displaces pairs field → ∀ value other,
        ListRequest.ofPairs pairs (endpoint.require field value) settings =
          ListRequest.ofPairs pairs (endpoint.require field other) settings) := by
  constructor
  · intro hfree value page hbase hpage
    obtain ⟨request, hrequest, rfl⟩ := Store.list_eq_ok hpage
    obtain ⟨hquery, constraints, hconstraints, hfilter⟩ := ListRequest.ofPairs_eq_ok_iff.mp hrequest
    have hmatching : ∀ document ∈ store.matching name request.filter,
        (Filter.equals field value).holds document = true := by
      intro document hdocument
      have hholds : request.filter.holds document = true := (List.mem_filter.mp hdocument).2
      rw [← hfilter] at hholds
      exact holds_base_of_holds_filter hquery hconstraints hbase hfree hholds
    refine ⟨request, hrequest, rfl, rfl, hmatching, fun document hdocument => ?_⟩
    have hsorted := List.mem_of_mem_drop (List.mem_of_mem_take hdocument)
    exact hmatching document ((List.mergeSort_perm _ _).mem_iff.mp hsorted)
  · intro hdisplaces value other
    rw [ListRequest.ofPairs, ListRequest.ofPairs]
    cases hquery : Query.parse pairs settings with
    | error e => rfl
    | ok query =>
      change (query.filter (endpoint.require field value) settings >>= _) =
        (query.filter (endpoint.require field other) settings >>= _)
      rw [filter_eq_of_displaces hquery hdisplaces value other]

/-- A tenant's equality stands against a plain equality and a branch on its own field, and falls to
a list on that field. -/
theorem base_filter_of_tenant :
    let store : Store :=
      { ids := fun _ => ""
        documents := [("notes", [.object [("tenant", .text "acme")], .object [("tenant", .text "other")]])] }
    let endpoint : Endpoint := ({} : Endpoint).require "tenant" (.text "acme")
    let plain : List Pair :=
      [("tenant", "other"), ("mongoQuery", "\x7b\"$or\":[\x7b\"tenant\":\"other\"\x7d,\x7b\"tenant\":\"acme\"\x7d]\x7d")]
    (∃ request, ListRequest.ofPairs plain endpoint {} = .ok request ∧
        ∀ document ∈ store.matching "notes" request.filter,
          (Filter.equals "tenant" (.text "acme")).holds document = true) ∧
      ListRequest.ofPairs [("inList[tenant]", "other")] (endpoint.require "tenant" (.text "acme")) {} =
        ListRequest.ofPairs [("inList[tenant]", "other")] (endpoint.require "tenant" .null) {} := by
  intro store endpoint plain
  have hread : Json.parse "\x7b\"$or\":[\x7b\"tenant\":\"other\"\x7d,\x7b\"tenant\":\"acme\"\x7d]\x7d" =
      .ok (.object [("$or", .array [.object [("tenant", .text "other")], .object [("tenant", .text "acme")]])]) := by
    cbv
  have hlast : Query.lastValue plain .override = some _ := rfl
  obtain ⟨clauses, hclauses⟩ : ∃ clauses, Query.overrideOf plain = .ok clauses := by
    rw [Query.overrideOf, hlast]
    simp only [Override.parse, hread]
    exact ⟨_, rfl⟩
  have hkeys : plain.map (fun pair => Destination.ofKey pair.1) = [.equality "tenant", .parameter .override] := by
    decide
  have hgroup (group : ListGroup) (path : String) (pair : Pair) (hpair : pair ∈ plain) :
      Destination.ofKey pair.1 ≠ .group group path := by
    intro heq
    have hmem := List.mem_map_of_mem (f := fun pair => Destination.ofKey pair.1) hpair
    rw [hkeys, heq] at hmem
    simp at hmem
  have hfree : ¬ Displaces plain "tenant" := by
    intro h
    cases h with
    | inList pair hpair hkey => exact hgroup _ _ pair hpair hkey
    | notInList pair hpair hkey => exact hgroup _ _ pair hpair hkey
    | override text fields htext hparse hfield =>
      rw [← Option.some.inj (hlast.symm.trans htext), hread] at hparse
      rw [← Json.object.inj (Except.ok.inj hparse)] at hfield
      exact absurd hfield (by decide)
    | elementIn pair path inner hpair hkey => exact hgroup _ _ pair hpair hkey
    | elementNotIn pair path inner hpair hkey => exact hgroup _ _ pair hpair hkey
  have hquery : Query.parse plain {} = .ok (.assemble plain {} clauses) :=
    Query.parse_eq_ok_iff.mpr ⟨by decide, clauses, hclauses, rfl⟩
  have hconstraints : (Query.assemble plain {} clauses).constraints endpoint {} = .ok _ :=
    Query.constraints_eq_ok_iff.mpr ⟨[], [], rfl, rfl, rfl⟩
  have hrequest : ListRequest.ofPairs plain endpoint {} = .ok ⟨_, _⟩ :=
    ListRequest.ofPairs_eq_ok_iff.mpr ⟨hquery, _, hconstraints, rfl⟩
  have hpage : (store.list "notes" plain endpoint {}).1 = .ok _ :=
    congrArg Prod.fst (Store.list_of_working "notes" rfl hrequest)
  have hdisplaces : Displaces [("inList[tenant]", "other")] "tenant" := .inList _ List.mem_cons_self (by decide)
  obtain ⟨request, hrequest, -, -, hmatching, -⟩ :=
    (base_filter_yields_only_to_own_field store "notes" plain endpoint {} "tenant").1 hfree (.text "acme") _
      rfl hpage
  exact ⟨⟨request, hrequest, hmatching⟩,
    (base_filter_yields_only_to_own_field store "notes" _ endpoint {} "tenant").2 hdisplaces _ _⟩

end Listing
