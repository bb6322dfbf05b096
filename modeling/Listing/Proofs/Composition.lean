import Listing.Filter.Constraints
import Listing.Filter.Holds
import Listing.Proofs.LastPerKey

/-!
# What a composed filter consists of

The clauses of a request form one sequence over all categories. The composed filter is the
conjunction of the last clause of every key, in the order in which the keys first occur, and of the
search. The search has no key, so it neither replaces a clause nor is replaced by one.
-/

namespace Listing

namespace Constraints

/-- The clauses that are last under their keys, in the order of the keys' first places. -/
def lastClauses (constraints : Constraints) : List Filter := (Keyed.ofList constraints.clauses).values

/-- A filter is among the last clauses exactly when it is the last one of some key. -/
theorem mem_lastClauses {constraints : Constraints} {clause : Filter} :
    clause ∈ constraints.lastClauses ↔ ∃ key, Keyed.last? constraints.clauses key = some clause := by
  rw [lastClauses, Keyed.values, List.mem_map]
  constructor
  · intro h
    obtain ⟨⟨key, value⟩, hentry, rfl⟩ := h
    refine ⟨key, ?_⟩
    rw [← Keyed.get?_ofList]
    exact Keyed.get?_of_mem (Keyed.nodup_keys_ofList _) hentry
  · intro h
    obtain ⟨key, hlast⟩ := h
    rw [← Keyed.get?_ofList] at hlast
    exact ⟨(key, clause), Keyed.mem_of_get? hlast, rfl⟩

/-- The composed filter holds exactly where the last clause of every key and the search hold. -/
theorem holds_filter (constraints : Constraints) (document : Json) :
    constraints.filter.holds document = true ↔
      (∀ key clause, Keyed.last? constraints.clauses key = some clause → clause.holds document = true) ∧
        ∀ search ∈ constraints.search, search.holds document = true := by
  have hterms : constraints.filter = .all (constraints.lastClauses ++ constraints.search.toList) := rfl
  rw [hterms, Filter.holds_all]
  constructor
  · intro h
    refine ⟨fun key clause hlast => ?_, fun search hsearch => ?_⟩
    · exact h clause (List.mem_append_left _ (mem_lastClauses.mpr ⟨key, hlast⟩))
    · exact h search (List.mem_append_right _ (Option.mem_toList.mpr hsearch))
  · intro h filter hfilter
    obtain ⟨hclauses, hsearch⟩ := h
    rcases List.mem_append.mp hfilter with hclause | hterm
    · obtain ⟨key, hlast⟩ := mem_lastClauses.mp hclause
      exact hclauses key filter hlast
    · exact hsearch filter (Option.mem_toList.mp hterm)

/-- A composed filter is the conjunction of the last clause of every key, one term for each key in
the order of first occurrence, and of the search after them; so a document satisfies it exactly when
it satisfies all of these, and a clause under `$or` and the search stand side by side. -/
theorem filter_eq_last_per_key_and_search (constraints : Constraints) :
    ∃ terms : List Filter,
      constraints.filter = .all (terms ++ constraints.search.toList) ∧
      List.Forall₂ (fun key term => Keyed.last? constraints.clauses key = some term)
        (Keyed.keys constraints.clauses).eraseDups terms ∧
      (∀ document : Json, constraints.filter.holds document = true ↔
        (∀ key clause, Keyed.last? constraints.clauses key = some clause → clause.holds document = true) ∧
          ∀ search ∈ constraints.search, search.holds document = true) ∧
      ∀ disjunction search, Keyed.last? constraints.clauses "$or" = some disjunction →
        constraints.search = some search →
          ∃ before after, constraints.filter = .all (before ++ disjunction :: after ++ [search]) := by
  refine ⟨constraints.lastClauses, rfl, Keyed.values_ofList _, constraints.holds_filter, ?_⟩
  intro disjunction search hdisjunction hsearch
  have hmem : disjunction ∈ constraints.lastClauses := mem_lastClauses.mpr ⟨"$or", hdisjunction⟩
  obtain ⟨before, after, hterms⟩ := List.append_of_mem hmem
  refine ⟨before, after, ?_⟩
  rw [filter, hsearch, Option.toList_some, ← hterms]
  rfl

/-- A disjunction in a filter document and a search both stay, next to a field that is constrained twice. -/
theorem filter_of_disjunction_and_search :
    let constraints : Constraints :=
      { equality := [.equals "colour" (.text "red")]
        override := [("$or", .any [.equals "size" .null]), ("colour", .compare "colour" .ne .null)]
        search := some (.any [.contains "name" "lamp"]) }
    ∃ before after, constraints.filter =
      .all (before ++ .any [.equals "size" .null] :: after ++ [.any [.contains "name" "lamp"]]) := by
  intro constraints
  obtain ⟨terms, -, -, -, hboth⟩ := filter_eq_last_per_key_and_search constraints
  exact hboth _ _ rfl rfl

end Constraints

end Listing
