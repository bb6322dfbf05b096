import Listing.Proofs.Answer
import Listing.Proofs.Compilation

/-!
# Refused requests

A request is refused for one of four kinds of causes, looked for in a fixed order: a pair whose field
names an operator, the filter document, and a bad path in each of the two groups of array elements.
The first pair counts among pairs, and the least path counts in a group. The cause is a matter of the
pairs alone, so neither the endpoint nor the store has a part in it, and the store is not asked.
-/

namespace Listing

/-- Whether a pair filters on a field with a key that is written like an operator. -/
def FiltersOnOperator (pair : Pair) : Prop :=
  ∃ field, (Destination.ofKey pair.1).field? = some field ∧ Path.namesOperator field = true

/-- Whether a path leads into the elements of an array: it has two keys, neither of them empty. -/
def ElementPath.LeadsIn (path : String) : Prop :=
  ∃ array field, Path.segments path = [array, field] ∧ array ≠ "" ∧ field ≠ ""

/-- The least path of a group of array elements that does not lead into the elements of an array. -/
structure IsLeastBad (pairs : List Pair) (group : ListGroup) (path : String) : Prop where
  /-- The path is one of the group. -/
  given : ∃ pair ∈ pairs, Destination.ofKey pair.1 = .group group path
  /-- The path leads nowhere. -/
  bad : ¬ ElementPath.LeadsIn path
  /-- No other such path comes before it. -/
  least : ∀ pair ∈ pairs, ∀ other, Destination.ofKey pair.1 = .group group other → ¬ ElementPath.LeadsIn other →
    path ≤ other

/-- The failure for which a request is refused, given its pairs. Every cause supposes that none of those
before it applies. -/
inductive RefusedFor (pairs : List Pair) : Failure → Prop where
  | operatorField {before after : List Pair} {pair : Pair} {field : String} (hpairs : pairs = before ++ pair :: after)
      (hbefore : ∀ other ∈ before, ¬ FiltersOnOperator other)
      (hfield : (Destination.ofKey pair.1).field? = some field) (hoperator : Path.namesOperator field = true) :
      RefusedFor pairs (.malformedFilter (.operatorField field))
  | override {text : String} {cause : Rejection} (hfields : ∀ pair ∈ pairs, ¬ FiltersOnOperator pair)
      (hlast : Query.lastValue pairs .override = some text) (hcause : Override.parse text = .error cause) :
      RefusedFor pairs (.malformedFilter cause)
  | elementIn {path : String} {clauses : List Clause} (hfields : ∀ pair ∈ pairs, ¬ FiltersOnOperator pair)
      (hoverride : Query.overrideOf pairs = .ok clauses) (hleast : IsLeastBad pairs .elementIn path) :
      RefusedFor pairs (.invalidFieldPath path)
  | elementNotIn {path : String} {clauses : List Clause} (hfields : ∀ pair ∈ pairs, ¬ FiltersOnOperator pair)
      (hoverride : Query.overrideOf pairs = .ok clauses)
      (hin : ∀ pair ∈ pairs, ∀ other, Destination.ofKey pair.1 = .group .elementIn other → ElementPath.LeadsIn other)
      (hleast : IsLeastBad pairs .elementNotIn path) :
      RefusedFor pairs (.invalidFieldPath path)

/-- A path is read exactly when it leads into the elements of an array. -/
theorem ElementPath.exists_parse_eq_ok_iff {path : String} : (∃ read, parse path = .ok read) ↔ LeadsIn path := by
  rw [parse.eq_def, LeadsIn, Path.segments]
  split
  · next array field hsplit =>
    split
    · next hempty =>
      simp only [hsplit, List.cons.injEq, reduceCtorEq, exists_false, and_true, false_iff]
      rintro ⟨array, field, ⟨rfl, rfl⟩, harray, hfield⟩
      exact hempty.elim harray hfield
    · next hnames =>
      rw [not_or] at hnames
      exact ⟨fun _ => ⟨array, field, hsplit, hnames⟩, fun _ => ⟨_, rfl⟩⟩
  · next hsplit =>
    simp only [reduceCtorEq, exists_false, false_iff]
    rintro ⟨array, field, heq, -⟩
    exact hsplit array field heq

/-- A path that is not read is reported itself. -/
theorem ElementPath.parse_eq_error_iff {path : String} {e : Failure} :
    parse path = .error e ↔ ¬ LeadsIn path ∧ e = .invalidFieldPath path := by
  rw [← exists_parse_eq_ok_iff, parse.eq_def]
  split
  · split
    · simp [eq_comm]
    · simp
  · simp [eq_comm]

/-- A pair is refused when it filters on a field that names an operator, and the field is reported. -/
theorem Query.refusal?_eq_some_iff {pair : Pair} {cause : Rejection} :
    refusal? pair = some cause ↔
      ∃ field, (Destination.ofKey pair.1).field? = some field ∧ Path.namesOperator field = true ∧
        cause = .operatorField field := by
  rw [refusal?]
  split
  · next field hfield => grind
  · next hfield => simp [hfield]

/-- A pair is not refused when it does not filter on a field that names an operator. -/
theorem Query.refusal?_eq_none_iff {pair : Pair} : refusal? pair = none ↔ ¬ FiltersOnOperator pair := by
  rw [Option.eq_none_iff_forall_ne_some]
  simp only [ne_eq, refusal?_eq_some_iff, FiltersOnOperator]
  grind

/-- The first refused pair is the first one that filters on a field that names an operator. -/
theorem Query.findSome?_refusal?_eq_some_iff {pairs : List Pair} {cause : Rejection} :
    pairs.findSome? refusal? = some cause ↔
      ∃ before pair after field, pairs = before ++ pair :: after ∧ (∀ other ∈ before, ¬ FiltersOnOperator other) ∧
        (Destination.ofKey pair.1).field? = some field ∧ Path.namesOperator field = true ∧
        cause = .operatorField field := by
  simp only [List.findSome?_eq_some_iff, refusal?_eq_some_iff, refusal?_eq_none_iff]
  grind

/-- No pair is refused when none filters on a field that names an operator. -/
theorem Query.findSome?_refusal?_eq_none_iff {pairs : List Pair} :
    pairs.findSome? refusal? = none ↔ ∀ pair ∈ pairs, ¬ FiltersOnOperator pair := by
  simp only [List.findSome?_eq_none_iff, refusal?_eq_none_iff]

section

variable {kind : Membership} {group : ListGroup} {pairs : List Pair}

/-- A condition on array elements is there when the path of the entry leads into them. -/
theorem Filter.exists_elementCondition_eq_ok_iff {entry : String × String} :
    (∃ filter, elementCondition kind entry = .ok filter) ↔ ElementPath.LeadsIn entry.1 := by
  rw [← ElementPath.exists_parse_eq_ok_iff]
  simp only [elementCondition, Outcome.map_eq_ok_iff]
  grind

/-- A group of array elements has conditions when all its paths lead into them. -/
theorem Filter.exists_elementConditions_eq_ok_iff :
    (∃ filters, elementConditions kind (Query.groupOf pairs group) = .ok filters) ↔
      ∀ pair ∈ pairs, ∀ path, Destination.ofKey pair.1 = .group group path → ElementPath.LeadsIn path := by
  constructor
  · rintro ⟨filters, hfilters⟩ pair hpair path hkey
    obtain ⟨entry, hentry, rfl⟩ := List.mem_map.mp (Query.mem_keys_groupOf.mpr ⟨pair, hpair, hkey⟩)
    obtain ⟨filter, -, hfilter⟩ := Outcome.exists_of_mem_values hfilters hentry
    exact exists_elementCondition_eq_ok_iff.mp ⟨filter, hfilter⟩
  · intro h
    refine Outcome.exists_mapM_eq_ok fun entry hentry => exists_elementCondition_eq_ok_iff.mpr ?_
    obtain ⟨pair, hpair, hkey⟩ := Query.mem_keys_groupOf.mp (List.mem_map_of_mem hentry)
    exact h pair hpair entry.1 hkey

/-- Two least paths of a group are the same. -/
theorem IsLeastBad.unique {path other : String} (h : IsLeastBad pairs group path) (hother : IsLeastBad pairs group other) :
    path = other := by
  obtain ⟨pair, hpair, hkey⟩ := h.given
  obtain ⟨pair', hpair', hkey'⟩ := hother.given
  exact String.le_antisymm (h.least pair' hpair' other hkey' hother.bad) (hother.least pair hpair path hkey h.bad)

/-- A group of array elements that is refused is refused for its least path that does not lead into them,
because the group is read in the order of its paths. -/
theorem Filter.exists_isLeastBad {e : Failure} (h : elementConditions kind (Query.groupOf pairs group) = .error e) :
    ∃ path, IsLeastBad pairs group path ∧ e = .invalidFieldPath path := by
  obtain ⟨before, entry, after, hsplit, hbefore, hentry⟩ := Outcome.mapM_eq_error_iff.mp h
  obtain ⟨hbad, rfl⟩ := ElementPath.parse_eq_error_iff.mp (Outcome.map_eq_error_iff.mp hentry)
  have hgiven : entry.1 ∈ Keyed.keys (Query.groupOf pairs group) :=
    List.mem_map_of_mem (hsplit ▸ List.mem_append_right _ List.mem_cons_self)
  refine ⟨entry.1, ⟨Query.mem_keys_groupOf.mp hgiven, hbad, fun pair hpair other hkey hother => ?_⟩, rfl⟩
  have hordered : Keyed.Ordered (Query.groupOf pairs group) := Keyed.ordered_sortedOfList _
  have hmem : other ∈ Keyed.keys (Query.groupOf pairs group) := Query.mem_keys_groupOf.mpr ⟨pair, hpair, hkey⟩
  rw [hsplit, Keyed.keys_append, List.mem_append] at hmem
  rw [hsplit, Keyed.Ordered, Keyed.keys_append, List.pairwise_append] at hordered
  rcases hmem with hmem | hmem
  · -- the paths in front of the refused one have conditions
    obtain ⟨found, hfound, rfl⟩ := List.mem_map.mp hmem
    exact absurd (exists_elementCondition_eq_ok_iff.mp (hbefore found hfound)) hother
  · rcases List.mem_cons.mp hmem with rfl | hmem
    · exact String.le_refl _
    · exact String.not_lt.mp (String.lt_asymm ((List.pairwise_cons.mp hordered.2.1).1 other hmem))

/-- The failure of a group of array elements names the least path that does not lead into them. -/
theorem Filter.elementConditions_eq_error_iff {e : Failure} :
    elementConditions kind (Query.groupOf pairs group) = .error e ↔
      ∃ path, IsLeastBad pairs group path ∧ e = .invalidFieldPath path := by
  refine ⟨exists_isLeastBad, ?_⟩
  rintro ⟨path, hpath, rfl⟩
  cases h : elementConditions kind (Query.groupOf pairs group) with
  | ok filters =>
    obtain ⟨pair, hpair, hkey⟩ := hpath.given
    exact absurd (exists_elementConditions_eq_ok_iff.mp ⟨filters, h⟩ pair hpair path hkey) hpath.bad
  | error e =>
    obtain ⟨other, hother, rfl⟩ := exists_isLeastBad h
    rw [hpath.unique hother]

end

namespace Query

variable {pairs : List Pair} {endpoint : Endpoint} {settings : Settings}

/-- Pairs are not read because of the first pair on a field that names an operator, or else because of the
filter document. -/
theorem parse_eq_error_iff {e : Failure} :
    parse pairs settings = .error e ↔
      (∃ cause, pairs.findSome? refusal? = some cause ∧ e = .malformedFilter cause) ∨
        pairs.findSome? refusal? = none ∧ ∃ cause, overrideOf pairs = .error cause ∧ e = .malformedFilter cause := by
  rw [parse]
  cases pairs.findSome? refusal? with
  | some cause => simp [eq_comm]
  | none =>
    cases overrideOf pairs with
    | error cause => simp [Except.mapError, Except.map, eq_comm]
    | ok clauses => simp [Except.mapError, Except.map]

/-- The constraints of a query are missing because of the first group of array elements that has a bad path. -/
theorem constraints_eq_error_iff {query : Query} {e : Failure} :
    query.constraints endpoint settings = .error e ↔
      Filter.elementConditions .isIn query.elementIn = .error e ∨
        (∃ filters, Filter.elementConditions .isIn query.elementIn = .ok filters) ∧
          Filter.elementConditions .notIn query.elementNotIn = .error e := by
  rw [Query.constraints, Outcome.bind_eq_error_iff]
  refine or_congr_right ?_
  simp only [Outcome.bind_eq_error_iff, pure, Except.pure, reduceCtorEq, and_false, exists_false, or_false]
  exact exists_and_right

/-- Pairs that are read have no filter because of the first group of array elements that has a bad path. -/
theorem exists_filter_eq_error_iff {e : Failure} :
    (∃ query, parse pairs settings = .ok query ∧ query.filter endpoint settings = .error e) ↔
      pairs.findSome? refusal? = none ∧ (∃ override, overrideOf pairs = .ok override) ∧
        (Filter.elementConditions .isIn (groupOf pairs .elementIn) = .error e ∨
          (∃ filters, Filter.elementConditions .isIn (groupOf pairs .elementIn) = .ok filters) ∧
            Filter.elementConditions .notIn (groupOf pairs .elementNotIn) = .error e) := by
  simp only [parse_eq_ok_iff, Query.filter, Outcome.map_eq_error_iff, constraints_eq_error_iff]
  constructor
  · rintro ⟨query, ⟨hfields, override, hoverride, rfl⟩, herror⟩
    exact ⟨hfields, ⟨override, hoverride⟩, herror⟩
  · rintro ⟨hfields, ⟨override, hoverride⟩, herror⟩
    exact ⟨assemble pairs settings override, ⟨hfields, override, hoverride, rfl⟩, herror⟩

end Query

namespace ListRequest

variable {pairs : List Pair} {endpoint : Endpoint} {settings : Settings}

/-- A request is refused when its pairs are not read or its query has no filter. -/
theorem ofPairs_eq_error_iff {e : Failure} :
    ofPairs pairs endpoint settings = .error e ↔
      Query.parse pairs settings = .error e ∨
        ∃ query, Query.parse pairs settings = .ok query ∧ query.filter endpoint settings = .error e := by
  rw [ofPairs, Outcome.bind_eq_error_iff]
  simp only [Outcome.bind_eq_error_iff, pure, Except.pure, reduceCtorEq, and_false, exists_false, or_false]

/-- A request is refused for the first of the causes that its pairs have. -/
theorem ofPairs_eq_error_iff_refusedFor {e : Failure} :
    ofPairs pairs endpoint settings = .error e ↔ RefusedFor pairs e := by
  rw [ofPairs_eq_error_iff, Query.parse_eq_error_iff, Query.exists_filter_eq_error_iff,
    Query.findSome?_refusal?_eq_none_iff, Filter.elementConditions_eq_error_iff,
    Filter.exists_elementConditions_eq_ok_iff, Filter.elementConditions_eq_error_iff]
  constructor
  · rintro ((⟨cause, hcause, rfl⟩ | ⟨hfields, cause, hcause, rfl⟩) | ⟨hfields, ⟨override, hoverride⟩, hpath⟩)
    · obtain ⟨before, pair, after, field, hpairs, hbefore, hfield, hoperator, rfl⟩ :=
        Query.findSome?_refusal?_eq_some_iff.mp hcause
      exact .operatorField hpairs hbefore hfield hoperator
    · rw [Query.overrideOf] at hcause
      split at hcause
      · next text hlast => exact .override hfields hlast hcause
      · contradiction
    · rcases hpath with ⟨path, hleast, rfl⟩ | ⟨hin, path, hleast, rfl⟩
      · exact .elementIn hfields hoverride hleast
      · exact .elementNotIn hfields hoverride hin hleast
  · intro h
    cases h with
    | operatorField hpairs hbefore hfield hoperator =>
      exact .inl (.inl ⟨_, Query.findSome?_refusal?_eq_some_iff.mpr
        ⟨_, _, _, _, hpairs, hbefore, hfield, hoperator, rfl⟩, rfl⟩)
    | @override text cause hfields hlast hcause =>
      have hoverride : Query.overrideOf pairs = .error cause := by
        rw [Query.overrideOf, hlast]
        exact hcause
      exact .inl (.inr ⟨hfields, cause, hoverride, rfl⟩)
    | elementIn hfields hoverride hleast =>
      exact .inr ⟨hfields, ⟨_, hoverride⟩, .inl ⟨_, hleast, rfl⟩⟩
    | elementNotIn hfields hoverride hin hleast =>
      exact .inr ⟨hfields, ⟨_, hoverride⟩, .inr ⟨hin, _, hleast, rfl⟩⟩

end ListRequest

/-- The ways in which a list request ends. -/
inductive Ending where
  /-- The request is refused before the store is asked. -/
  | refused
  /-- The store fails when it counts. -/
  | failed
  /-- A page is given. -/
  | answered

/-- What happens when a request ends in one of the ways: what it is answered with and what becomes of the
store. A refusal is the same at every store and leaves it alone. -/
def Ending.Describes (ending : Ending) (store : Store) (name : String) (pairs : List Pair) (endpoint : Endpoint)
    (settings : Settings) : Prop :=
  match ending with
  | refused =>
    ∃ e, (Query.parse pairs settings = .error e ∨
        ∃ query, Query.parse pairs settings = .ok query ∧ query.filter endpoint settings = .error e) ∧
      RefusedFor pairs e ∧
      ∀ (other : Store) (collection : String), other.list collection pairs endpoint settings = (.error e, other)
  | failed =>
    ∃ query filter reason, Query.parse pairs settings = .ok query ∧ query.filter endpoint settings = .ok filter ∧
      store.failure = some reason ∧
      store.list name pairs endpoint settings =
        (.error (.storeOperation reason), { store with operations := store.operations + 1 })
  | answered =>
    ∃ query filter page, Query.parse pairs settings = .ok query ∧ query.filter endpoint settings = .ok filter ∧
      store.failure = none ∧
      store.list name pairs endpoint settings = (.ok page, { store with operations := store.operations + 2 })

/-- The way in which a request ends at a store, given what it compiles to. -/
def Ending.of (store : Store) (compiled : Except Failure ListRequest) : Ending :=
  match compiled, store.failure with
  | .error _, _ => refused
  | .ok _, some _ => failed
  | .ok _, none => answered

section

variable {store : Store} {pairs : List Pair} {endpoint : Endpoint} {settings : Settings}

/-- A query with a filter is what a request compiles to. -/
theorem ListRequest.ofPairs_of_filter {query : Query} {filter : Filter} (hquery : Query.parse pairs settings = .ok query)
    (hfilter : query.filter endpoint settings = .ok filter) :
    ofPairs pairs endpoint settings = .ok ⟨query, filter⟩ := by
  rw [ofPairs]
  exact Outcome.bind_eq_ok_iff.mpr ⟨query, hquery, Outcome.bind_eq_ok_iff.mpr ⟨filter, hfilter, rfl⟩⟩

/-- A request ends in the way that goes with what it compiles to. -/
theorem Ending.of_describes (name : String) :
    (Ending.of store (ListRequest.ofPairs pairs endpoint settings)).Describes store name pairs endpoint settings := by
  cases hcompiled : ListRequest.ofPairs pairs endpoint settings with
  | error e =>
    exact ⟨e, ListRequest.ofPairs_eq_error_iff.mp hcompiled,
      ListRequest.ofPairs_eq_error_iff_refusedFor.mp hcompiled,
      fun other collection => other.list_of_refused collection hcompiled⟩
  | ok request =>
    obtain ⟨hquery, hfilter⟩ := ListRequest.ofPairs_eq_ok_iff.mp hcompiled
    have hfilter : request.query.filter endpoint settings = .ok request.filter := Outcome.map_eq_ok_iff.mpr hfilter
    cases hfailure : store.failure with
    | some reason =>
      rw [Ending.of.eq_def, hfailure]
      exact ⟨_, _, reason, hquery, hfilter, hfailure, store.list_of_failing name hfailure hcompiled⟩
    | none =>
      rw [Ending.of.eq_def, hfailure]
      exact ⟨_, _, _, hquery, hfilter, hfailure, store.list_of_working name hfailure hcompiled⟩

/-- A request does not end in another way. -/
theorem Ending.eq_of_describes {name : String} {ending : Ending}
    (h : ending.Describes store name pairs endpoint settings) :
    ending = Ending.of store (ListRequest.ofPairs pairs endpoint settings) := by
  cases ending with
  | refused =>
    obtain ⟨e, hrefused, -⟩ := h
    rw [ListRequest.ofPairs_eq_error_iff.mpr hrefused, Ending.of]
  | failed =>
    obtain ⟨query, filter, reason, hquery, hfilter, hfailure, -⟩ := h
    rw [ListRequest.ofPairs_of_filter hquery hfilter, Ending.of.eq_def, hfailure]
  | answered =>
    obtain ⟨query, filter, page, hquery, hfilter, hfailure, -⟩ := h
    rw [ListRequest.ofPairs_of_filter hquery hfilter, Ending.of.eq_def, hfailure]

end

/-- Every request ends in exactly one way: it is refused for the first cause that its pairs have, whatever
the store holds and whether it fails, and the store is not asked; or it is compiled, and a failing store is
asked once and a working one twice, for the page. The documents and the relations stay as they were. -/
theorem Store.list_ends_in_one_way (store : Store) (name : String) (pairs : List Pair) (endpoint : Endpoint)
    (settings : Settings) :
    (∃! ending : Ending, ending.Describes store name pairs endpoint settings) ∧
      (store.list name pairs endpoint settings).2.documents = store.documents ∧
      (store.list name pairs endpoint settings).2.relations = store.relations := by
  refine ⟨⟨_, Ending.of_describes name, fun ending => Ending.eq_of_describes⟩, ?_⟩
  obtain ⟨operations, hafter⟩ := store.list_operations name pairs endpoint settings
  rw [hafter]
  exact ⟨rfl, rfl⟩

end Listing
