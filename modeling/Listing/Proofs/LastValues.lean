import Listing.Proofs.PageRequest
import Listing.Proofs.Refusals

/-!
# The last value of every key of a request

Reading the pairs of a request comes down to one function, the last value that each key has. Every
part of a query is determined by it: a parameter by the value of its key, and a group by the values of
the keys that are written for its fields. So pairs may change places as long as those with one key stay
in order, and the query remains the same.
-/

namespace Listing

/-- The last value of the entry on a field is that of the key that is written for it. -/
theorem Category.get?_entries {category : Category} {key field : String}
    (hkey : Destination.ofKey key = category.destination field) (pairs : List Pair) :
    Keyed.get? (category.entries pairs) field = Keyed.last? pairs key := by
  rw [entries, Keyed.get?_sortedOfList]
  induction pairs with
  | nil => rfl
  | cons pair rest ih =>
    have hpair : pair = (pair.1, pair.2) := rfl
    rw [hpair, Keyed.last?_cons, ← ih]
    by_cases hsame : pair.1 = key
    · have hentry : category.entryOf? pair = some (field, pair.2) :=
        entryOf?_eq_some_iff.mpr ⟨hsame ▸ hkey, rfl⟩
      rw [← hpair, List.filterMap_cons_some hentry, Keyed.last?_cons, if_pos rfl, if_pos hsame]
    · rw [if_neg hsame, Option.or_none, ← hpair]
      cases hentry : category.entryOf? pair with
      | none => rw [List.filterMap_cons_none hentry]
      | some entry =>
        have hother : entry.1 ≠ field := by
          intro hfield
          have hdestination : Destination.ofKey pair.1 = category.destination entry.1 :=
            (entryOf?_eq_some_iff.mp hentry).1
          exact hsame (Destination.ofKey_injective (hdestination.trans (hfield ▸ hkey.symm)))
        rw [List.filterMap_cons_some hentry, Keyed.last?_cons, if_neg hother, Option.or_none]

namespace Query

/-- The value of a reserved parameter is the last one of its key. -/
theorem lastValue_eq_last? (pairs : List Pair) (parameter : Parameter) :
    lastValue pairs parameter = Keyed.last? pairs parameter.key := by
  have hkey {key : String} : Destination.ofKey key = .parameter parameter ↔ key = parameter.key :=
    ⟨Destination.eq_key_of_ofKey, fun h => h ▸ Destination.ofKey_key parameter⟩
  induction pairs using List.reverseRecOn with
  | nil => rfl
  | append_singleton pairs pair ih =>
    rw [lastValue_append, lastValue_singleton, Keyed.last?_append, Keyed.last?_singleton, ih]
    by_cases h : pair.1 = parameter.key <;> simp [hkey, h]

/-- The entries of a bracket group. -/
def group (query : Query) : ListGroup → Keyed String
  | .inList => query.inList
  | .notInList => query.notInList
  | .elementIn => query.elementIn
  | .elementNotIn => query.elementNotIn

/-- What a query consists of, given the last value of every key: each part is made of the values of its
own keys, and the entries of a group or of the plain equalities are those that have a value, in the order
of their fields. -/
structure IsOf (query : Query) (values : String → Option String) (settings : Settings) : Prop where
  /-- The page is that of three parameters. -/
  pagination : query.pagination = .parse (values "page") (values "limit") (values "skip") settings
  /-- The sort is that of the parameter, or the default. -/
  sort : query.sort = .parseOr (values "sort") settings.defaultSort
  /-- The search term is that of the parameter, or empty. -/
  searchTerm : query.searchTerm = (values "q").getD ""
  /-- The clauses are those of the filter document, none without one. -/
  override : ((values "mongoQuery").map Override.parse).getD (.ok []) = .ok query.override
  /-- The requested fields are those of the parameter, all without it. -/
  projection : query.projection = ((values "fields").map Projection.parse).getD []
  /-- A group is in the order of its fields. -/
  group_ordered (group : ListGroup) : (query.group group).Ordered
  /-- A group has the values of the keys that are written for its fields. -/
  mem_group_iff (group : ListGroup) (field value : String) :
    (field, value) ∈ query.group group ↔ Bracketable field ∧ values (group.keyOf field) = some value
  /-- The plain equalities are in the order of their fields. -/
  equality_ordered : query.equality.Ordered
  /-- The plain equalities have the values of the keys that are written neither for a parameter nor for a group. -/
  mem_equality_iff (key value : String) :
    (key, value) ∈ query.equality ↔ (Destination.equality key).IsOf key ∧ values key = some value

variable {pairs : List Pair} {settings : Settings} {query : Query}

/-- The last values of all keys leave no choice of a query. -/
theorem IsOf.unique {other : Query} {values : String → Option String} (hquery : query.IsOf values settings)
    (hother : other.IsOf values settings) : query = other := by
  have hgroup (group : ListGroup) : query.group group = other.group group := by
    apply (hquery.group_ordered group).eq_of_mem_iff (hother.group_ordered group)
    intro entry
    rw [hquery.mem_group_iff group entry.1 entry.2, hother.mem_group_iff group entry.1 entry.2]
  have hequality : query.equality = other.equality := by
    apply hquery.equality_ordered.eq_of_mem_iff hother.equality_ordered
    intro entry
    rw [hquery.mem_equality_iff entry.1 entry.2, hother.mem_equality_iff entry.1 entry.2]
  have hoverride : query.override = other.override := Except.ok.inj (hquery.override.symm.trans hother.override)
  cases query
  cases other
  simp only [mk.injEq]
  exact ⟨hquery.pagination.trans hother.pagination.symm, hquery.sort.trans hother.sort.symm,
    hquery.searchTerm.trans hother.searchTerm.symm, hoverride, hquery.projection.trans hother.projection.symm,
    hgroup .inList, hgroup .notInList, hgroup .elementIn, hgroup .elementNotIn, hequality⟩

/-- The clauses of the filter document are read from the last value of its key. -/
theorem overrideOf_eq (pairs : List Pair) :
    overrideOf pairs = ((Keyed.last? pairs "mongoQuery").map Override.parse).getD (.ok []) := by
  have hlast : lastValue pairs .override = Keyed.last? pairs "mongoQuery" := lastValue_eq_last? pairs .override
  unfold overrideOf
  rw [hlast]
  cases Keyed.last? pairs "mongoQuery" <;> rfl

/-- An entry of a category has the last value of the key that is written for its field, and there is one for
every such key. -/
theorem mem_entries_iff_last? {category : Category} {field value : String} :
    (field, value) ∈ category.entries pairs ↔
      (category.destination field).IsOf (category.destination field).key ∧
        Keyed.last? pairs (category.destination field).key = some value := by
  have hnodup : (Keyed.keys (category.entries pairs)).Nodup := (Keyed.ordered_sortedOfList _).nodup
  rw [← Keyed.get?_eq_some_iff hnodup, ← Destination.ofKey_eq_iff]
  constructor
  · intro h
    obtain ⟨pair, -, hpair⟩ := Category.mem_keys_entries.mp (List.mem_map_of_mem (Keyed.mem_of_get? h))
    have hkey := hpair
    rw [Destination.eq_key_of_ofKey hpair] at hkey
    exact ⟨hkey, Category.get?_entries hkey pairs ▸ h⟩
  · intro h
    rw [Category.get?_entries h.1]
    exact h.2

/-- Pairs are read when none filters on a field that names an operator, as the query that their last values
make up. -/
theorem parse_eq_ok_iff_isOf :
    parse pairs settings = .ok query ↔
      (∀ pair ∈ pairs, ¬ FiltersOnOperator pair) ∧ query.IsOf (Keyed.last? pairs) settings := by
  have hisOf {clauses : List Clause} (hclauses : overrideOf pairs = .ok clauses) :
      (assemble pairs settings clauses).IsOf (Keyed.last? pairs) settings := by
    have hgroup (group : ListGroup) : (assemble pairs settings clauses).group group = groupOf pairs group := by
      cases group <;> rfl
    constructor
    · simp only [assemble, lastValue_eq_last?, Parameter.key]
    · simp only [assemble, lastValue_eq_last?, Parameter.key]
    · simp only [assemble, lastValue_eq_last?, Parameter.key]
    · exact (overrideOf_eq pairs).symm.trans hclauses
    · simp only [assemble, lastValue_eq_last?, Parameter.key]
    · intro group
      rw [hgroup]
      exact Keyed.ordered_sortedOfList _
    · intro group field value
      rw [hgroup, ← Category.entries_list, mem_entries_iff_last?]
      exact and_congr_left' (Destination.isOf_group_iff.trans (and_iff_left rfl))
    · exact Keyed.ordered_sortedOfList _
    · intro key value
      have hequality : (assemble pairs settings clauses).equality = Category.equality.entries pairs :=
        (Category.entries_equality pairs).symm
      rw [hequality]
      exact mem_entries_iff_last?
  rw [parse_eq_ok_iff, findSome?_refusal?_eq_none_iff]
  apply and_congr_right
  intro _
  constructor
  · intro h
    obtain ⟨clauses, hclauses, rfl⟩ := h
    exact hisOf hclauses
  · intro h
    have hclauses : overrideOf pairs = .ok query.override := (overrideOf_eq pairs).trans h.override
    exact ⟨query.override, hclauses, (hisOf hclauses).unique h⟩

/-- Pairs in another order have the same last values if those with one key keep theirs. -/
theorem last?_eq_of_filter_eq {others : List Pair}
    (horder : ∀ key, (others.filter fun pair => pair.1 = key) = pairs.filter fun pair => pair.1 = key) :
    Keyed.last? others = Keyed.last? pairs := by
  funext key
  rw [Keyed.last?_eq_getLast?_filter, Keyed.last?_eq_getLast?_filter, horder]

/-- Pairs in another order are the same pairs if those with one key keep theirs. -/
theorem mem_iff_of_filter_eq {others : List Pair}
    (horder : ∀ key, (others.filter fun pair => pair.1 = key) = pairs.filter fun pair => pair.1 = key)
    (pair : Pair) : pair ∈ others ↔ pair ∈ pairs := by
  have hmem (list : List Pair) : pair ∈ list ↔ pair ∈ list.filter fun other => other.1 = pair.1 := by simp
  rw [hmem others, horder, ← hmem]

/-- Reading does not depend on the order of pairs with different keys. -/
theorem parse_eq_ok_iff_of_filter_eq {others : List Pair}
    (horder : ∀ key, (others.filter fun pair => pair.1 = key) = pairs.filter fun pair => pair.1 = key) :
    parse others settings = .ok query ↔ parse pairs settings = .ok query := by
  simp only [parse_eq_ok_iff_isOf, last?_eq_of_filter_eq horder, mem_iff_of_filter_eq horder]

/-- Pairs are read when none filters on a field that names an operator and the last filter document is accepted. -/
theorem exists_parse_eq_ok_iff :
    (∃ query, parse pairs settings = .ok query) ↔
      (∀ pair ∈ pairs, ¬ FiltersOnOperator pair) ∧
        ∀ text, Keyed.last? pairs "mongoQuery" = some text → ∃ clauses, Override.parse text = .ok clauses := by
  simp only [parse_eq_ok_iff, findSome?_refusal?_eq_none_iff, overrideOf_eq, exists_and_left]
  apply and_congr_right
  intro _
  cases Keyed.last? pairs "mongoQuery" with
  | none => simp
  | some text => simp

/-- Every pair goes to exactly one place, by how its key is written. Pairs are read exactly when no field that
they filter on names an operator and the last filter document is accepted, and then every part of the query
is made of the last values of its own keys. So the order of pairs with different keys does not matter. -/
theorem parse_keeps_last_values (pairs : List Pair) (settings : Settings) :
    (∀ pair ∈ pairs, ∃! destination : Destination, destination.IsOf pair.1) ∧
      ((∃ query, parse pairs settings = .ok query) ↔
        (∀ pair ∈ pairs, ∀ destination : Destination, destination.IsOf pair.1 →
          ∀ field, destination.field? = some field → Path.namesOperator field = false) ∧
          ∀ text, Keyed.last? pairs "mongoQuery" = some text → ∃ clauses, Override.parse text = .ok clauses) ∧
      (∀ query, parse pairs settings = .ok query → query.IsOf (Keyed.last? pairs) settings) ∧
      ∀ others : List Pair,
        (∀ key, (others.filter fun pair => pair.1 = key) = pairs.filter fun pair => pair.1 = key) →
          ∀ query, parse others settings = .ok query ↔ parse pairs settings = .ok query := by
  have hfree (pair : Pair) : ¬ FiltersOnOperator pair ↔
      ∀ destination : Destination, destination.IsOf pair.1 →
        ∀ field, destination.field? = some field → Path.namesOperator field = false := by
    simp only [FiltersOnOperator, ← Destination.ofKey_eq_iff, not_exists, not_and, Bool.not_eq_true, forall_eq']
  refine ⟨fun pair _ => Destination.existsUnique_isOf pair.1, ?_, fun query h => (parse_eq_ok_iff_isOf.mp h).2,
    fun others horder query => parse_eq_ok_iff_of_filter_eq horder⟩
  simp only [exists_parse_eq_ok_iff, hfree]

/-- Of two values for one field the last one counts, also when other pairs stand in between. -/
theorem parse_of_repeated_status :
    let pairs : List Pair := [("status", "open"), ("inList[a.b]", "x,y"), ("page", "2"), ("status", "done")]
    let others : List Pair := [("page", "2"), ("status", "open"), ("status", "done"), ("inList[a.b]", "x,y")]
    ∃ query, parse pairs {} = .ok query ∧ parse others {} = .ok query ∧ ("status", "done") ∈ query.equality ∧
      ("a.b", "x,y") ∈ query.inList := by
  intro pairs others
  obtain ⟨-, hreads, hvalues, horder⟩ := parse_keeps_last_values pairs {}
  have hread : parse pairs {} = .ok (assemble pairs {} []) := parse_eq_ok_iff.mpr ⟨by decide, [], rfl, rfl⟩
  have hquery := hvalues _ hread
  have hsame : ∀ key, (others.filter fun pair => pair.1 = key) = pairs.filter fun pair => pair.1 = key := by
    intro key
    by_cases hstatus : "status" = key
    · subst hstatus
      decide
    · by_cases hpage : "page" = key
      · subst hpage
        decide
      · simp [pairs, others, List.filter_cons, hstatus, hpage]
  refine ⟨_, hread, (horder others hsame _).mpr hread, ?_, ?_⟩
  · exact (hquery.mem_equality_iff "status" "done").mpr ⟨Destination.ofKey_eq_iff.mp (by decide), by decide⟩
  · exact (hquery.mem_group_iff .inList "a.b" "x,y").mpr ⟨⟨by decide, by decide, by decide⟩, by decide⟩

end Query

end Listing
