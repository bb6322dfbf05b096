import Listing.Proofs.Compilation
import Listing.Proofs.PageRequest

/-!
# Requests of one category

The entries of one category are plain equalities, memberships of one kind in lists, or memberships of
one kind in lists of a field of array elements. A request of such entries alone is the conjunction of
what each of them asks for alone, except that entries about the elements of one array share a key:
of these only the one counts whose path comes last.
-/

namespace Listing

namespace Category

/-- The field on which the clause of an entry stands: for array elements that of the array. -/
def clauseField : Category → String → String
  | list .elementIn, path => (Path.segments path).headD path
  | list .elementNotIn, path => (Path.segments path).headD path
  | _, field => field

/-- The constraints of one category alone. -/
def only : Category → List Filter → Constraints
  | equality, filters => { equality := filters }
  | list .inList, filters => { inList := filters }
  | list .notInList, filters => { notInList := filters }
  | list .elementIn, filters => { elementIn := filters }
  | list .elementNotIn, filters => { elementNotIn := filters }

/-- Every pair of a request is an entry of the category. -/
def Covers (category : Category) (pairs : List Pair) : Prop :=
  ∀ pair ∈ pairs, ∃ field, Destination.ofKey pair.1 = category.destination field

variable {category : Category} {pairs : List Pair} {field : String}

/-- A request of one category has no entries of another one. -/
theorem entries_eq_nil (hentries : category.Covers pairs)
    {other : Category} (hne : other ≠ category) : other.entries pairs = [] := by
  have hnone : pairs.filterMap other.entryOf? = [] := by
    rw [List.filterMap_eq_nil_iff]
    intro pair hpair
    obtain ⟨field, hkey⟩ := hentries pair hpair
    rw [entryOf?, hkey, field?_destination]
    exact if_neg fun h => hne (destination_inj h).1.symm
  rw [entries, hnone]
  rfl

/-- A request of one category sets no parameter. -/
theorem lastValue_eq_none (hentries : category.Covers pairs)
    (parameter : Parameter) : Query.lastValue pairs parameter = none := by
  refine Query.lastValue_eq_none fun pair hpair hparameter => ?_
  obtain ⟨field, hkey⟩ := hentries pair hpair
  have hfield := field?_destination category field
  rw [← hkey, hparameter, Destination.ofKey_key] at hfield
  contradiction

/-- The clauses of one category alone are its filters under their keys. -/
theorem clauses_only (category : Category) (filters : List Filter) :
    (category.only filters).clauses = Constraints.keyed filters := by
  have hnil : Constraints.keyed [] = [] := rfl
  cases category with
  | equality => simp only [only, Constraints.clauses, hnil, List.append_nil]
  | list group => cases group <;> simp only [only, Constraints.clauses, hnil, List.append_nil, List.nil_append]

/-- No category brings in a search. -/
theorem search_only (category : Category) (filters : List Filter) : (category.only filters).search = none := by
  cases category with
  | equality => rfl
  | list group => cases group <;> rfl

/-- The constraints of one category alone have no filters in the others. -/
theorem only_eq_ofCategories (category : Category) (filters : List Filter) :
    category.only filters = .ofCategories (fun other => if other = category then filters else []) [] none := by
  cases category with
  | equality => rfl
  | list group => cases group <;> rfl

/-- A request of one category has constraints when its entries have filters, and they are these filters. -/
theorem constraints_assemble_eq_ok_iff (hentries : category.Covers pairs) {endpoint : Endpoint}
    (hbase : endpoint.baseFilter = []) (settings : Settings) {constraints : Constraints} :
    (Query.assemble pairs settings []).constraints endpoint settings = .ok constraints ↔
      ∃ filters, (category.entries pairs).mapM category.filterOf = .ok filters ∧
        constraints = category.only filters := by
  have hrequired (other : Category) : other.required endpoint = [] :=
    List.eq_nil_iff_forall_not_mem.mpr fun filter hfilter => by
      obtain ⟨entry, hentry, -⟩ := exists_of_mem_required hfilter
      exact absurd (hbase ▸ hentry) List.not_mem_nil
  have hsearch : (Query.assemble pairs settings []).searchTerm = "" :=
    congrArg (·.getD "") (lastValue_eq_none hentries .search)
  have hother {other : Category} (hne : other ≠ category) :
      (other.entries pairs).mapM other.filterOf = .ok [] := by
    rw [entries_eq_nil hentries hne]
    rfl
  rw [Query.constraints_eq_ok_iff_filters]
  simp only [filters_assemble, hrequired, List.append_nil, hsearch]
  constructor
  · intro h
    obtain ⟨filters, hfilters, rfl⟩ := h
    refine ⟨filters category, hfilters category, ?_⟩
    rw [only_eq_ofCategories]
    congr 1
    funext other
    by_cases hne : other = category
    · rw [if_pos hne, hne]
    · rw [if_neg hne]
      exact Except.ok.inj ((hfilters other).symm.trans (hother hne))
  · intro h
    obtain ⟨filters, hfilters, rfl⟩ := h
    refine ⟨fun other => if other = category then filters else [], fun other => ?_, only_eq_ofCategories _ _⟩
    by_cases hne : other = category
    · subst hne
      simpa using hfilters
    · simpa [hne] using hother hne

/-- The filter of an entry stands on its clause field. -/
theorem key_of_filterOf {entry : String × String} {filter : Filter} (h : category.filterOf entry = .ok filter) :
    filter.key = category.clauseField entry.1 := by
  have helement (kind : Membership) (h : Filter.elementCondition kind entry = .ok filter) :
      filter.key = (Path.segments entry.1).headD entry.1 := by
    obtain ⟨path, hpath, rfl⟩ := Outcome.map_eq_ok_iff.mp h
    rw [ElementPath.parse.eq_def] at hpath
    split at hpath
    · next array field hsplit =>
      split at hpath
      · contradiction
      · obtain rfl := Except.ok.inj hpath
        rw [Path.segments, hsplit]
        rfl
    · contradiction
  cases category with
  | equality => exact Except.ok.inj h ▸ rfl
  | list group =>
    cases group with
    | inList => exact Except.ok.inj h ▸ rfl
    | notInList => exact Except.ok.inj h ▸ rfl
    | elementIn => exact helement .isIn h
    | elementNotIn => exact helement .notIn h

/-- The clauses of entries stand on their clause fields. -/
theorem keys_keyed_of_filterOf {group : Keyed String} {filters : List Filter}
    (h : List.Forall₂ (fun entry filter => category.filterOf entry = .ok filter) group filters) :
    Keyed.keys (Constraints.keyed filters) = group.map fun entry => category.clauseField entry.1 := by
  rw [Constraints.keys_keyed]
  induction h with
  | nil => rfl
  | cons hfirst _ ih => rw [List.map_cons, List.map_cons, ih, key_of_filterOf hfirst]

/-- Of entries in the order of their fields, the last one on a clause field is the one with the greatest
field. -/
theorem last?_keyed_iff {group : Keyed String} {filters : List Filter} (hordered : Keyed.Ordered group)
    (h : List.Forall₂ (fun entry filter => category.filterOf entry = .ok filter) group filters)
    {key : String} {filter : Filter} :
    Keyed.last? (Constraints.keyed filters) key = some filter ↔
      ∃ entry ∈ group, category.filterOf entry = .ok filter ∧ category.clauseField entry.1 = key ∧
        ∀ other ∈ group, category.clauseField other.1 = key → other.1 ≤ entry.1 := by
  induction h with
  | nil => simp [Constraints.keyed, Keyed.last?]
  | @cons first found rest filters hfirst hrest ih =>
    obtain ⟨hbefore, hordered⟩ := List.pairwise_cons.mp hordered
    have hless (entry : String × String) (hentry : entry ∈ rest) : first.1 < entry.1 :=
      hbefore entry.1 (List.mem_map_of_mem hentry)
    have hnone : Keyed.last? (Constraints.keyed filters) key = none ↔
        ∀ entry ∈ rest, category.clauseField entry.1 ≠ key := by
      rw [Keyed.last?_eq_none_iff, keys_keyed_of_filterOf hrest, List.mem_map]
      grind
    have hkeyed : Constraints.keyed (found :: filters) = (found.key, found) :: Constraints.keyed filters := rfl
    rw [hkeyed, Keyed.last?_cons, key_of_filterOf hfirst, List.exists_mem_cons_iff]
    simp only [List.forall_mem_cons]
    constructor
    · intro hfilter
      cases hlast : Keyed.last? (Constraints.keyed filters) key with
      | none =>
        rw [hlast, Option.none_or, Option.ite_none_right_eq_some] at hfilter
        obtain ⟨hkey, hfound⟩ := hfilter
        exact .inl ⟨Option.some.inj hfound ▸ hfirst, hkey, fun _ => String.le_refl _,
          fun other hother hkey' => absurd hkey' (hnone.mp hlast other hother)⟩
      | some last =>
        rw [hlast, Option.some_or] at hfilter
        obtain ⟨entry, hentry, hread, hkey, hgreatest⟩ := (ih hordered).mp (hlast.trans hfilter)
        exact .inr ⟨entry, hentry, hread, hkey, fun _ => Std.le_of_lt (hless entry hentry), hgreatest⟩
    · rintro (⟨hread, hkey, -, hgreatest⟩ | ⟨entry, hentry, hread, hkey, -, hgreatest⟩)
      · have hlast := hnone.mpr fun entry hentry hkey' =>
          String.not_lt.mpr (hgreatest entry hentry hkey') (hless entry hentry)
        rw [hlast, Option.none_or, if_pos hkey]
        exact congrArg some (Except.ok.inj (hfirst.symm.trans hread))
      · rw [(ih hordered).mpr ⟨entry, hentry, hread, hkey, hgreatest⟩, Option.some_or]

variable {endpoint : Endpoint} {settings : Settings} {request : ListRequest}

/-- A request of one category is compiled when no pair is refused and every entry has a filter. -/
theorem ofPairs_eq_ok_iff (hentries : category.Covers pairs)
    (hbase : endpoint.baseFilter = []) :
    ListRequest.ofPairs pairs endpoint settings = .ok request ↔
      pairs.findSome? Query.refusal? = none ∧
        ∃ filters, (category.entries pairs).mapM category.filterOf = .ok filters ∧
          request = ⟨Query.assemble pairs settings [], (category.only filters).filter⟩ := by
  have hoverride : Query.overrideOf pairs = .ok [] := by
    rw [Query.overrideOf, lastValue_eq_none hentries]
  rw [ListRequest.ofPairs_eq_ok_iff, Query.parse_eq_ok_iff, hoverride]
  constructor
  · rintro ⟨⟨hrefusal, override, hnone, hquery⟩, constraints, hconstraints, hfilter⟩
    obtain rfl := Except.ok.inj hnone
    rw [← hquery, constraints_assemble_eq_ok_iff hentries hbase] at hconstraints
    obtain ⟨filters, hfilters, rfl⟩ := hconstraints
    refine ⟨hrefusal, filters, hfilters, ?_⟩
    rw [hquery, hfilter]
  · rintro ⟨hrefusal, filters, hfilters, rfl⟩
    exact ⟨⟨hrefusal, [], rfl, rfl⟩, category.only filters,
      (constraints_assemble_eq_ok_iff hentries hbase _).mpr ⟨filters, hfilters, rfl⟩, rfl⟩

/-- The filters of one category hold together when the last one under every key does. -/
theorem holds_only (category : Category) (filters : List Filter) (document : Json) :
    (category.only filters).filter.holds document = true ↔
      ∀ key filter, Keyed.last? (Constraints.keyed filters) key = some filter → filter.holds document = true := by
  rw [Constraints.holds_filter, clauses_only, search_only]
  simp

/-- A request of a single entry is compiled when its field is not refused and it has a filter, and asks for
that filter. -/
theorem ofPairs_singleton (settings : Settings) {pair : Pair}
    (hkey : Destination.ofKey pair.1 = category.destination field) (hbase : endpoint.baseFilter = [])
    (hrefusal : Query.refusal? pair = none) {filter : Filter} (hfilter : category.filterOf (field, pair.2) = .ok filter) :
    ∃ single, ListRequest.ofPairs [pair] endpoint settings = .ok single ∧
      ∀ document, single.filter.holds document = filter.holds document := by
  have hentries : category.Covers [pair] := List.forall_mem_singleton.mpr ⟨field, hkey⟩
  have hentry : category.entries [pair] = [(field, pair.2)] := by
    rw [entries, List.filterMap_cons, entryOf?_eq_some_iff.mpr ⟨hkey, rfl⟩]
    rfl
  refine ⟨⟨Query.assemble [pair] settings [], (category.only [filter]).filter⟩,
    (ofPairs_eq_ok_iff hentries hbase).mpr ⟨?_, [filter], ?_, rfl⟩, fun document => ?_⟩
  · rw [List.findSome?_singleton, hrefusal]
  · rw [hentry, Outcome.mapM_eq_ok_iff]
    exact .cons hfilter .nil
  · rw [Bool.eq_iff_iff, holds_only]
    have hlast (key : String) : Keyed.last? (Constraints.keyed [filter]) key =
        if filter.key = key then some filter else none := Keyed.last?_singleton _ _ _
    simp [hlast]

/-- An entry on a field decides over its clause field when no other entry on that has a greater field. -/
def Decides (category : Category) (pairs : List Pair) (field : String) : Prop :=
  ∀ pair ∈ pairs, ∀ other, Destination.ofKey pair.1 = category.destination other →
    category.clauseField other = category.clauseField field → other ≤ field

/-- Outside the groups of array elements every entry decides, having its clause field to itself. -/
theorem decides_of_plain (hplain : category = .equality ∨ category = .list .inList ∨ category = .list .notInList)
    (pairs : List Pair) (field : String) : category.Decides pairs field := by
  have hself (field : String) : category.clauseField field = field := by
    rcases hplain with rfl | rfl | rfl <;> rfl
  intro pair _ other _ hsame
  rw [hself, hself] at hsame
  exact hsame ▸ String.le_refl _

/-- Every entry of a compiled request of one category is compiled as a request of its own, to its filter. -/
theorem exists_single (hbase : endpoint.baseFilter = [])
    (hentries : category.Covers pairs)
    (hdistinct : (pairs.map Prod.fst).Nodup) (h : ListRequest.ofPairs pairs endpoint settings = .ok request)
    {pair : Pair} (hpair : pair ∈ pairs) (hkey : Destination.ofKey pair.1 = category.destination field) :
    ∃ filter single, category.filterOf (field, pair.2) = .ok filter ∧
      ListRequest.ofPairs [pair] endpoint settings = .ok single ∧
      ∀ document, single.filter.holds document = filter.holds document := by
  obtain ⟨hrefusal, filters, hfilters, -⟩ := (ofPairs_eq_ok_iff hentries hbase).mp h
  have hentry : (field, pair.2) ∈ category.entries pairs :=
    (mem_entries hdistinct).mpr ⟨pair, hpair, hkey, rfl⟩
  obtain ⟨filter, -, hfilter⟩ := Outcome.exists_of_mem_values hfilters hentry
  have hnone : Query.refusal? pair = none := List.findSome?_eq_none_iff.mp hrefusal pair hpair
  obtain ⟨single, hsingle, hholds⟩ := ofPairs_singleton settings hkey hbase hnone hfilter
  exact ⟨filter, single, hfilter, hsingle, hholds⟩

/-- A request of one category holds where its deciding entries hold, each as a request of its own. -/
theorem holds_iff_deciding (hbase : endpoint.baseFilter = [])
    (hentries : category.Covers pairs)
    (hdistinct : (pairs.map Prod.fst).Nodup) (h : ListRequest.ofPairs pairs endpoint settings = .ok request)
    (document : Json) :
    request.filter.holds document = true ↔
      ∀ pair ∈ pairs, ∀ field, Destination.ofKey pair.1 = category.destination field →
        category.Decides pairs field → ∀ single, ListRequest.ofPairs [pair] endpoint settings = .ok single →
          single.filter.holds document = true := by
  obtain ⟨-, filters, hfilters, rfl⟩ := (ofPairs_eq_ok_iff hentries hbase).mp h
  have hlast (key : String) (filter : Filter) : Keyed.last? (Constraints.keyed filters) key = some filter ↔ _ :=
    last?_keyed_iff (Keyed.ordered_sortedOfList _) (Outcome.mapM_eq_ok_iff.mp hfilters)
  rw [holds_only]
  constructor
  · intro hall pair hpair field hkey hdecides single hsingle
    obtain ⟨filter, compiled, hfilter, hcompiled, hholds⟩ := exists_single hbase hentries hdistinct h hpair hkey
    obtain rfl := Except.ok.inj (hcompiled.symm.trans hsingle)
    rw [hholds]
    refine hall (category.clauseField field) filter ((hlast _ _).mpr ⟨(field, pair.2),
      (mem_entries hdistinct).mpr ⟨pair, hpair, hkey, rfl⟩, hfilter, rfl, fun other hother hsame => ?_⟩)
    obtain ⟨pair', hpair', hkey', -⟩ := (mem_entries hdistinct).mp hother
    exact hdecides pair' hpair' other.1 hkey' hsame
  · intro hall key filter hfound
    obtain ⟨⟨field, value⟩, hentry, hfilter, rfl, hgreatest⟩ := (hlast _ _).mp hfound
    obtain ⟨pair, hpair, hkey, rfl⟩ := (mem_entries hdistinct).mp hentry
    obtain ⟨filter', single, hfilter', hsingle, hholds⟩ := exists_single hbase hentries hdistinct h hpair hkey
    obtain rfl := Except.ok.inj (hfilter.symm.trans hfilter')
    rw [← hholds]
    refine hall pair hpair field hkey (fun pair' hpair' other hkey' hsame => ?_) single hsingle
    exact hgreatest (other, pair'.2) ((mem_entries hdistinct).mpr ⟨pair', hpair', hkey', rfl⟩) hsame

/-- A request of entries of one category with distinct keys asks for what its deciding entries ask for,
each as a request of its own. Only an entry about elements of an array may not decide, when another one
about the elements of that array has a greater path; in the other categories every entry counts. -/
theorem holds_iff_deciding_entries_hold (hbase : endpoint.baseFilter = [])
    (hentries : category.Covers pairs)
    (hdistinct : (pairs.map Prod.fst).Nodup) (h : ListRequest.ofPairs pairs endpoint settings = .ok request) :
    (∀ pair ∈ pairs, ∃ single, ListRequest.ofPairs [pair] endpoint settings = .ok single) ∧
      (∀ document, request.filter.holds document = true ↔
        ∀ pair ∈ pairs, ∀ field, Destination.ofKey pair.1 = category.destination field →
          category.Decides pairs field → ∀ single, ListRequest.ofPairs [pair] endpoint settings = .ok single →
            single.filter.holds document = true) ∧
      (category = .equality ∨ category = .list .inList ∨ category = .list .notInList →
        ∀ document, request.filter.holds document = true ↔
          ∀ pair ∈ pairs, ∀ single, ListRequest.ofPairs [pair] endpoint settings = .ok single →
            single.filter.holds document = true) := by
  have hdeciding := holds_iff_deciding hbase hentries hdistinct h
  refine ⟨fun pair hpair => ?_, hdeciding, fun hplain document => ?_⟩
  · obtain ⟨field, hkey⟩ := hentries pair hpair
    obtain ⟨filter, single, -, hsingle, -⟩ := exists_single hbase hentries hdistinct h hpair hkey
    exact ⟨single, hsingle⟩
  · rw [hdeciding]
    constructor
    · intro hall pair hpair
      obtain ⟨field, hkey⟩ := hentries pair hpair
      exact hall pair hpair field hkey (decides_of_plain hplain pairs field)
    · exact fun hall pair hpair _ _ _ => hall pair hpair

/-- Two plain equalities both count. -/
theorem two_plain_equalities_count :
    let pairs : List Pair := [("status", "open"), ("colour", "red")]
    ∃ request, ListRequest.ofPairs pairs {} {} = .ok request ∧
      ∀ document, request.filter.holds document = true →
        ∀ pair ∈ pairs, ∀ single, ListRequest.ofPairs [pair] {} {} = .ok single →
          single.filter.holds document = true := by
  intro pairs
  have hrequest : ListRequest.ofPairs pairs {} {} = .ok _ :=
    ListRequest.ofPairs_eq_ok (by decide) rfl (Query.constraints_eq_ok_iff.mpr ⟨[], [], rfl, rfl, rfl⟩)
  have hentries : Covers .equality pairs :=
    List.forall_mem_cons.mpr ⟨⟨"status", by decide⟩, List.forall_mem_singleton.mpr ⟨"colour", by decide⟩⟩
  obtain ⟨-, -, hplain⟩ := holds_iff_deciding_entries_hold rfl hentries (by decide) hrequest
  exact ⟨_, hrequest, fun document => (hplain (.inl rfl) document).mp⟩

/-- Of two lists for fields of the elements of one array only the one with the greater path counts. -/
theorem element_lists_of_one_array :
    let colour : Pair := ("inListArrOfObj[items.colour]", "red")
    let sku : Pair := ("inListArrOfObj[items.sku]", "A1")
    let document : Json := .object [("items", .array [.object [("sku", .text "A1"), ("colour", .text "blue")]])]
    Covers (.list .elementIn) [colour, sku] ∧ ([colour, sku].map Prod.fst).Nodup ∧
      ∃ request single, ListRequest.ofPairs [colour, sku] {} {} = .ok request ∧
        ListRequest.ofPairs [colour] {} {} = .ok single ∧
        request.filter.holds document = true ∧ single.filter.holds document = false := by
  intro colour sku document
  have hcolour : Destination.ofKey colour.1 = destination (.list .elementIn) "items.colour" := by decide
  have hsku : Destination.ofKey sku.1 = destination (.list .elementIn) "items.sku" := by decide
  have hentries : Covers (.list .elementIn) [colour, sku] :=
    List.forall_mem_cons.mpr ⟨⟨_, hcolour⟩, List.forall_mem_singleton.mpr ⟨_, hsku⟩⟩
  have hpath : entries (.list .elementIn) [colour, sku] = [("items.colour", "red"), ("items.sku", "A1")] := by decide
  have hfirst : filterOf (.list .elementIn) ("items.colour", "red") =
      .ok (.element "items" "colour" .isIn [.text "red"]) := rfl
  have hsecond : filterOf (.list .elementIn) ("items.sku", "A1") =
      .ok (.element "items" "sku" .isIn [.text "A1"]) := rfl
  have hfilters : (entries (.list .elementIn) [colour, sku]).mapM (filterOf (.list .elementIn)) =
      .ok [.element "items" "colour" .isIn [.text "red"], .element "items" "sku" .isIn [.text "A1"]] := by
    rw [hpath, Outcome.mapM_eq_ok_iff]
    exact .cons hfirst (.cons hsecond .nil)
  have hrequest : ListRequest.ofPairs [colour, sku] {} {} = .ok ⟨_, _⟩ :=
    (ofPairs_eq_ok_iff hentries rfl).mpr ⟨by decide, _, hfilters, rfl⟩
  have hbase : ({} : Endpoint).baseFilter = [] := rfl
  obtain ⟨single, hsingle, hholds⟩ := ofPairs_singleton {} hcolour hbase (by decide) hfirst
  refine ⟨hentries, by decide, _, single, hrequest, hsingle, by decide, ?_⟩
  rw [hholds]
  decide

end Category

end Listing
