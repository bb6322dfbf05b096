import Listing.Proofs.AddedParameters
import Listing.Proofs.Pages

/-!
# Requests for single pages

A reserved parameter at the end of a request changes the last value of that parameter and nothing
else. A request that names no page of its own therefore asks for any page when the number of the
page is put after it: the filter, the sort, the projection and the page size stay as they are.
-/

namespace Listing

/-- The pairs of a request with the number of a page after them. -/
def atPage (pairs : List Pair) (number : Nat) : List Pair := pairs ++ [("page", toString number)]

/-- The same query for another page. -/
def Query.atPage (query : Query) (number : Nat) : Query :=
  { query with pagination := query.pagination.atPage number }

/-- The same request for another page. -/
def ListRequest.atPage (request : ListRequest) (number : Nat) : ListRequest :=
  { request with query := request.query.atPage number }

/-- Neither a page nor a number of documents to skip is named. -/
def Unpaged (pairs : List Pair) : Prop := ∀ pair ∈ pairs, pair.1 ≠ "page" ∧ pair.1 ≠ "skip"

section

variable {pairs : List Pair} {number : Nat} {settings : Settings}

/-- Without parameters of its own a request is for the first page. -/
theorem Unpaged.lastValue_eq_none (hunpaged : Unpaged pairs) :
    Query.lastValue pairs .page = none ∧ Query.lastValue pairs .skip = none := by
  exact ⟨Query.lastValue_eq_none fun pair hpair => (hunpaged pair hpair).1,
    Query.lastValue_eq_none fun pair hpair => (hunpaged pair hpair).2⟩

/-- A query that names no page is the same query at every page. -/
theorem Query.assemble_atPage (hunpaged : Unpaged pairs) (hpos : 0 < number) (hnumber : number ≤ Text.maxCount)
    (override : List Clause) :
    assemble (Listing.atPage pairs number) settings override =
      (assemble (pairs ++ []) settings override).atPage number := by
  have hlater : ∀ later ∈ ([] : List Pair), later.1 ≠ Parameter.page.key := by simp
  have hlast (parameter : Parameter) : lastValue (pairs ++ [("page", toString number)]) parameter =
      if parameter = .page then some (toString number) else lastValue (pairs ++ []) parameter :=
    lastValue_insert_parameter hlater parameter
  obtain ⟨hnone, hskip⟩ := hunpaged.lastValue_eq_none
  have hpagination := Pagination.parse_toString hpos hnumber (lastValue pairs .limit) settings
  rw [Listing.atPage, assemble_insert_parameter (Destination.ofKey_key .page)]
  simp only [hlast, reduceCtorEq, if_true, if_false, List.append_nil, hskip, hpagination, Query.atPage, assemble, hnone]

/-- Reading the pairs of a request at a page fails or succeeds as reading those of the request. -/
theorem Query.parse_atPage (hunpaged : Unpaged pairs) (hpos : 0 < number) (hnumber : number ≤ Text.maxCount) :
    parse (Listing.atPage pairs number) settings = (parse pairs settings).map (·.atPage number) := by
  have hparse : parse (Listing.atPage pairs number) settings = (parse (pairs ++ []) settings).map (·.atPage number) :=
    parse_insert_parameter (Destination.ofKey_key .page) (by decide) (assemble_atPage hunpaged hpos hnumber)
  rwa [List.append_nil] at hparse

/-- Compiling a request at a page gives the compiled request at that page. -/
theorem ListRequest.ofPairs_atPage (hunpaged : Unpaged pairs) (hpos : 0 < number) (hnumber : number ≤ Text.maxCount)
    (endpoint : Endpoint) :
    ofPairs (Listing.atPage pairs number) endpoint settings =
      (ofPairs pairs endpoint settings).map (·.atPage number) := by
  rw [ofPairs, ofPairs, Query.parse_atPage hunpaged hpos hnumber]
  cases Query.parse pairs settings with
  | error e => rfl
  | ok query =>
    have hfilter : (query.atPage number).filter endpoint settings = query.filter endpoint settings := rfl
    change ((query.atPage number).filter endpoint settings >>= _) = _
    rw [hfilter]
    change _ = (query.filter endpoint settings >>= _).map _
    cases query.filter endpoint settings with
    | error e => rfl
    | ok filter => rfl

end

end Listing
