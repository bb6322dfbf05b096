import Listing.Proofs.AddedParameters
import Listing.Proofs.Answer
import Listing.Proofs.Compilation
import Listing.Proofs.Composition
import Listing.Proofs.SearchedText

/-!
# Searching for blanks

The values of the other parameters are trimmed before they are read, and the term of a search is not. So only an empty
term is the same as none. A term of blanks is searched for like any other, and since no letter has a blank for its lower
case and every blank is its own, it is found in the texts that have these blanks next to each other. Documents without
such a text in a searched field drop out of the answer.
-/

namespace Listing

namespace Text

/-! ### The lower case of blanks -/

/-- Neither the capital letters of a run nor their lower case letters are blanks. -/
theorem no_blank_in_runs : ∀ run ∈ lowerCaseRuns, ∀ range ∈ blankRanges,
    (run.2.1 < range.1 ∨ range.2 < run.1) ∧
      ((run.2.1 : Int) + run.2.2.2 < range.1 ∨ (range.2 : Int) < run.1 + run.2.2.2) := by
  decide +kernel

/-- A character is blank when its code point is in one of the ranges. -/
theorem isBlank_eq_true_iff {c : Char} :
    isBlank c = true ↔ ∃ range ∈ blankRanges, range.1 ≤ c.toNat ∧ c.toNat ≤ range.2 := by
  simp only [isBlank, inRanges, List.any_eq_true, Bool.and_eq_true, decide_eq_true_eq]

/-- The character with a code point has it, or is the one with code point zero when there is no such character. -/
theorem toNat_ofNat_eq_or (n : Nat) : (Char.ofNat n).toNat = n ∨ (Char.ofNat n).toNat = 0 := by
  by_cases hvalid : n.isValidChar
  · left
    rw [Char.ofNat, dif_pos hvalid]
    rfl
  · right
    rw [Char.ofNat, dif_neg hvalid]
    rfl

/-- A letter of a run is not blank, and neither is what the run moves it to. -/
theorem not_blank_of_run {run : Nat × Nat × Nat × Int} (hrun : run ∈ lowerCaseRuns) {c : Char}
    (hfirst : run.1 ≤ c.toNat) (hlast : c.toNat ≤ run.2.1) :
    isBlank c = false ∧ isBlank (Char.ofNat (c.toNat + run.2.2.2).toNat) = false := by
  simp only [← Bool.not_eq_true, isBlank_eq_true_iff, not_exists, not_and, Nat.not_le]
  constructor
  · intro range hrange hge
    obtain ⟨hapart, -⟩ := no_blank_in_runs run hrun range hrange
    omega
  · intro range hrange
    obtain ⟨-, hapart⟩ := no_blank_in_runs run hrun range hrange
    have hpositive : ∀ range ∈ blankRanges, 0 < range.1 := by decide
    have hstart := hpositive range hrange
    rcases toNat_ofNat_eq_or (c.toNat + run.2.2.2).toNat with h | h <;> omega

/-- The lower case of a character is blank when the character is, and then it is the character. -/
theorem lowerChar_blank (c : Char) :
    isBlank (lowerChar c) = isBlank c ∧ (isBlank c = true → lowerChar c = c) := by
  rw [lowerChar]
  split
  · next hascii =>
    have hcheck : ∀ n < 128, isBlank (Char.ofNat n).toLower = isBlank (Char.ofNat n) ∧
        (isBlank (Char.ofNat n) = true → (Char.ofNat n).toLower = Char.ofNat n) := by decide +kernel
    have hc := hcheck c.toNat hascii
    rwa [Char.ofNat_toNat] at hc
  · split
    · next run hrun =>
      have hrange := List.find?_some hrun
      simp only [Bool.and_eq_true, decide_eq_true_eq] at hrange
      obtain ⟨hblank, hlowered⟩ := not_blank_of_run (List.mem_of_find?_eq_some hrun) hrange.1.1 hrange.1.2
      simp [hblank, hlowered]
    · simp

variable {blanks : List Char}

/-- A blank is its own lower case wherever it stands. -/
theorem lowerAt_of_isBlank {c : Char} (h : isBlank c = true) (before after : List Char) :
    lowerAt before after c = [c] := by
  have hsigma : c ≠ 'Σ' := by
    rintro rfl
    exact absurd h (by decide)
  have hdotted : c ≠ 'İ' := by
    rintro rfl
    exact absurd h (by decide)
  rw [lowerAt, if_neg hsigma, if_neg hdotted, (lowerChar_blank c).2 h]

/-- The lower case of any other character has no blanks. -/
theorem not_isBlank_of_mem_lowerAt {c : Char} (h : isBlank c = false) {before after : List Char} :
    ∀ d ∈ lowerAt before after c, isBlank d = false := by
  rw [lowerAt]
  split
  · rw [List.forall_mem_singleton]
    split <;> decide
  · split
    · rw [List.forall_mem_cons, List.forall_mem_singleton]
      decide
    · rw [List.forall_mem_singleton, (lowerChar_blank c).1, h]

/-- Lower case is never empty for a character. -/
theorem lowerAt_ne_nil (before after : List Char) (c : Char) : lowerAt before after c ≠ [] := by
  rw [lowerAt]
  split
  · exact List.cons_ne_nil _ _
  · split <;> exact List.cons_ne_nil _ _

/-- The lower case of blanks is the blanks. -/
theorem lowerFrom_of_blanks (h : ∀ c ∈ blanks, isBlank c = true) (before : List Char) :
    lowerFrom before blanks = blanks := by
  induction blanks generalizing before with
  | nil => rfl
  | cons c rest ih =>
    obtain ⟨hc, hrest⟩ := List.forall_mem_cons.mp h
    rw [lowerFrom_cons, lowerAt_of_isBlank hc, ih hrest, List.singleton_append]

/-- Blanks begin the lower case of a text when they begin the text. -/
theorem blanks_prefix_lowerFrom_iff (h : ∀ c ∈ blanks, isBlank c = true) (before text : List Char) :
    blanks <+: lowerFrom before text ↔ blanks <+: text := by
  induction text generalizing blanks before with
  | nil => rfl
  | cons c rest ih =>
    cases blanks with
    | nil => simp
    | cons blank blanks =>
      obtain ⟨hblank, hblanks⟩ := List.forall_mem_cons.mp h
      rw [lowerFrom_cons]
      cases hc : isBlank c with
      | true =>
        rw [lowerAt_of_isBlank hc, List.singleton_append, List.cons_prefix_cons, List.cons_prefix_cons, ih hblanks]
      | false =>
        obtain ⟨first, others, hlowered⟩ := List.exists_cons_of_ne_nil (lowerAt_ne_nil before rest c)
        have hfirst : isBlank first = false :=
          not_isBlank_of_mem_lowerAt hc first (hlowered ▸ List.mem_cons_self)
        rw [hlowered, List.cons_append, List.cons_prefix_cons, List.cons_prefix_cons]
        grind

/-- Blanks are not looked for in what has none. -/
theorem blanks_infix_append_iff (h : ∀ c ∈ blanks, isBlank c = true) (hsome : blanks ≠ []) {front : List Char}
    (hfront : ∀ c ∈ front, isBlank c = false) (text : List Char) : blanks <:+: front ++ text ↔ blanks <:+: text := by
  induction front with
  | nil => rfl
  | cons c rest ih =>
    obtain ⟨hc, hrest⟩ := List.forall_mem_cons.mp hfront
    have hstart : ¬ blanks <+: c :: (rest ++ text) := by
      obtain ⟨blank, others, rfl⟩ := List.exists_cons_of_ne_nil hsome
      rw [List.cons_prefix_cons]
      rintro ⟨rfl, -⟩
      simp [hc] at h
    rw [List.cons_append, List.infix_cons_iff, ih hrest, or_iff_right hstart]

/-- Blanks stand in the lower case of a text when they stand in the text. -/
theorem blanks_infix_lowerFrom_iff (h : ∀ c ∈ blanks, isBlank c = true) (before text : List Char) :
    blanks <:+: lowerFrom before text ↔ blanks <:+: text := by
  by_cases hsome : blanks = []
  · simp [hsome]
  induction text generalizing before with
  | nil => rfl
  | cons c rest ih =>
    have hprefix := blanks_prefix_lowerFrom_iff h before (c :: rest)
    cases hc : isBlank c with
    | true =>
      rw [lowerFrom_cons, lowerAt_of_isBlank hc, List.singleton_append] at hprefix ⊢
      rw [List.infix_cons_iff, List.infix_cons_iff, hprefix, ih]
    | false =>
      have hplain : ∀ d ∈ [c], isBlank d = false := List.forall_mem_singleton.mpr hc
      rw [lowerFrom_cons, blanks_infix_append_iff h hsome (not_isBlank_of_mem_lowerAt hc), ih,
        ← blanks_infix_append_iff h hsome hplain rest, List.singleton_append]

end Text

/-! ### A search put into a request -/

/-- There is no search when there is nothing to look for or nowhere to look. -/
theorem Filter.search_eq_none_iff {term : String} {fields : List String} {maxLength : Nat} :
    search term fields maxLength = none ↔ term = "" ∨ fields = [] := by
  rw [search, ite_eq_left_iff]
  simp only [reduceCtorEq, imp_false, not_not]

/-- A search for blanks holds of the documents with a text in one of the fields that has these blanks in it. -/
theorem Filter.holds_search_of_blanks {term : String} (hblank : ∀ c ∈ term.toList, Text.isBlank c = true)
    {fields : List String} {maxLength : Nat} {filter : Filter} (hsearch : search term fields maxLength = some filter)
    (document : Json) :
    filter.holds document = true ↔
      ∃ field ∈ fields, ∃ s, .text s ∈ Path.candidates document field ∧ term.toList.take maxLength <:+: s.toList := by
  rw [search] at hsearch
  split at hsearch
  · contradiction
  · obtain rfl := Option.some.inj hsearch
    have htaken : ∀ c ∈ term.toList.take maxLength, Text.isBlank c = true :=
      fun c hc => hblank c (List.mem_of_mem_take hc)
    simp only [holds_any_contains_iff, String.toList_ofList, Text.lowerChars, Text.lowerFrom_of_blanks htaken,
      Text.blanks_infix_lowerFrom_iff htaken]

/-- A conjunction grows by a search exactly when there is one. -/
theorem Constraints.filter_search_eq_iff {constraints : Constraints} (hnone : constraints.search = none)
    (search : Option Filter) :
    { constraints with search }.filter = constraints.filter ↔ search = none := by
  have hfilter (search : Option Filter) :
      { constraints with search }.filter = .all (constraints.lastClauses ++ search.toList) := rfl
  have hwithout : constraints.filter = .all (constraints.lastClauses ++ []) := by
    rw [Constraints.filter, hnone]
    rfl
  rw [hfilter, hwithout, Filter.all.injEq, List.append_cancel_left_eq, Option.toList_eq_nil_iff]

/-- The term of a search changes nothing of the constraints of a query but the search. -/
theorem Query.constraints_searchTerm (query : Query) (searchTerm : String) (endpoint : Endpoint) (settings : Settings) :
    { query with searchTerm }.constraints endpoint settings =
      (query.constraints endpoint settings).map fun constraints =>
        { constraints with search := Filter.search searchTerm endpoint.searchFields settings.maxSearchLength } := by
  rw [constraints, constraints]
  cases Filter.elementConditions .isIn query.elementIn with
  | error e => rfl
  | ok elementIn =>
    cases Filter.elementConditions .notIn query.elementNotIn with
    | error e => rfl
    | ok elementNotIn => rfl

section

variable {before after : List Pair} {term : String} {endpoint : Endpoint} {settings : Settings} {request : ListRequest}

/-- To a request without a search, a pair with a term adds the search for it. -/
theorem ListRequest.ofPairs_insert_search (term : String) (habsent : ∀ pair ∈ before ++ after, pair.1 ≠ "q")
    (hrequest : ofPairs (before ++ after) endpoint settings = .ok request) :
    ∃ constraints : Constraints, constraints.search = none ∧ constraints.filter = request.filter ∧
      ofPairs (before ++ ("q", term) :: after) endpoint settings =
        .ok {
          query := { request.query with searchTerm := term }
          filter := { constraints with
            search := Filter.search term endpoint.searchFields settings.maxSearchLength }.filter } := by
  have hothers : ∀ pair ∈ before ++ after, pair.1 ≠ Parameter.search.key := habsent
  obtain ⟨hparse, constraints, hconstraints, hfilter⟩ := ofPairs_eq_ok_iff.mp hrequest
  have hnone : constraints.search = none := by
    obtain ⟨-, override, -, hquery⟩ := Query.parse_eq_ok_iff.mp hparse
    obtain ⟨elementIn, elementNotIn, -, -, rfl⟩ := Query.constraints_eq_ok_iff.mp hconstraints
    rw [Filter.search_eq_none_iff, ← hquery, Query.assemble, Query.lastValue_eq_none hothers]
    exact .inl rfl
  have hlast (other : Parameter) : Query.lastValue (before ++ ("q", term) :: after) other =
      if other = .search then some term else Query.lastValue (before ++ after) other :=
    Query.lastValue_insert_parameter (fun pair hpair => hothers pair (List.mem_append_right _ hpair)) other
  have hchange (override : List Clause) : Query.assemble (before ++ ("q", term) :: after) settings override =
      { Query.assemble (before ++ after) settings override with searchTerm := term } := by
    rw [Query.assemble_insert_parameter (Destination.ofKey_key .search)]
    simp only [hlast, reduceCtorEq, if_true, if_false, Option.getD_some, Query.assemble]
  have hsearched : Query.parse (before ++ ("q", term) :: after) settings =
      (Query.parse (before ++ after) settings).map fun query => { query with searchTerm := term } :=
    Query.parse_insert_parameter (Destination.ofKey_key .search) (by decide) hchange
  rw [hparse] at hsearched
  refine ⟨constraints, hnone, hfilter, ofPairs_eq_ok_iff.mpr ⟨hsearched, _, ?_, rfl⟩⟩
  rw [Query.constraints_searchTerm, hconstraints]
  rfl

/-- A search for blanks is a search like any other. To an accepted request without a search it may be added anywhere,
and the request is accepted still. Its filter stays the same exactly when the term is empty or there are no fields to
look into, and then every store answers it as before. Otherwise it holds of those documents only that have a text in one
of the fields with the blanks of the term in it, as far as these count. -/
theorem ListRequest.blank_search_looks_for_blanks (hblank : ∀ c ∈ term.toList, Text.isBlank c = true)
    (habsent : ∀ pair ∈ before ++ after, pair.1 ≠ "q")
    (hrequest : ofPairs (before ++ after) endpoint settings = .ok request) :
    ∃ searched, ofPairs (before ++ ("q", term) :: after) endpoint settings = .ok searched ∧
      (searched.filter = request.filter ↔ term = "" ∨ endpoint.searchFields = []) ∧
      (searched.filter = request.filter → ∀ (store : Store) (name : String),
        store.list name (before ++ ("q", term) :: after) endpoint settings =
          store.list name (before ++ after) endpoint settings) ∧
      (searched.filter ≠ request.filter → ∀ document, searched.filter.holds document = true ↔
        request.filter.holds document = true ∧
          ∃ field ∈ endpoint.searchFields, ∃ s, .text s ∈ Path.candidates document field ∧
            term.toList.take settings.maxSearchLength <:+: s.toList) := by
  obtain ⟨constraints, hnone, hfilter, hsearched⟩ := ofPairs_insert_search term habsent hrequest
  have hsame := constraints.filter_search_eq_iff hnone
    (Filter.search term endpoint.searchFields settings.maxSearchLength)
  refine ⟨_, hsearched, ?_, fun heq store name => ?_, fun hne document => ?_⟩
  · rw [← hfilter, hsame, Filter.search_eq_none_iff]
  · rw [Store.list, Store.list, hsearched, hrequest]
    dsimp only at heq ⊢
    rw [heq]
    rfl
  · cases hsearch : Filter.search term endpoint.searchFields settings.maxSearchLength with
    | none => exact absurd (hsame.mpr hsearch) (by rw [hfilter]; exact hne)
    | some search =>
      rw [← Filter.holds_search_of_blanks hblank hsearch, ← hfilter, Constraints.holds_filter, Constraints.holds_filter,
        hnone]
      simp [Constraints.clauses]

/-- A search for a tab and a space among open notes finds the one with both in its title, and not the one with a space
alone. -/
theorem ListRequest.tab_and_space_in_open_notes :
    let note (title : String) : Json := .object [("status", .text "open"), ("title", .text title)]
    let endpoint : Endpoint := { searchFields := ["title"] }
    ∃ searched, ofPairs [("q", "	 "), ("status", "open")] endpoint {} = .ok searched ∧
      searched.filter.holds (note "to	 do") = true ∧ searched.filter.holds (note "to do") = false := by
  intro note endpoint
  have hrequest : ofPairs ([] ++ [("status", "open")]) endpoint {} =
      .ok ⟨.assemble [("status", "open")] {} [], .all [.equals "status" (.text "open")]⟩ := rfl
  have hblank : ∀ c ∈ "\t ".toList, Text.isBlank c = true := List.all_eq_true.mp (by decide)
  have htitle (title : String) : Path.candidates (note title) "title" = [.text title] := rfl
  obtain ⟨searched, hsearched, hsame, -, hholds⟩ := blank_search_looks_for_blanks hblank (by decide) hrequest
  have hrestricted := hholds (mt hsame.mp (by decide))
  refine ⟨searched, hsearched, ?_, ?_⟩
  · have hfound : ['\t', ' '] <:+: "to\t do".toList := ⟨['t', 'o'], ['d', 'o'], rfl⟩
    refine (hrestricted (note "to\t do")).mpr ⟨rfl, "title", List.mem_singleton_self _, "to\t do", ?_, hfound⟩
    rw [htitle]
    exact List.mem_singleton_self _
  · rw [← Bool.not_eq_true, hrestricted]
    rintro ⟨-, field, hfield, title, hmem, hfound⟩
    obtain rfl : field = "title" := List.mem_singleton.mp hfield
    rw [htitle] at hmem
    obtain rfl : title = "to do" := Json.text.inj (List.mem_singleton.mp hmem)
    exact absurd (Text.occursIn_eq_true_iff.mpr hfound) (by decide)

/-- A store with Ada counts one document, and none when it is searched for a space in names. -/
theorem Store.ada_has_no_space :
    let store : Store := { ids := fun _ => "", documents := [("people", [.object [("name", .text "Ada")]])] }
    let endpoint : Endpoint := { searchFields := ["name"] }
    let count (pairs : List Pair) := (store.list "people" pairs endpoint {}).1.toOption.map (·.pageInfo.itemCount)
    count [] = some 1 ∧ count [("q", " ")] = some 0 := by
  decide +kernel

end

end Listing
