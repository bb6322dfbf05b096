import Listing.Filter.Basic

/-!
# The filter of a request

A request constrains documents in several categories. All clauses form one conjunction in which
every key occurs once: a later clause replaces an earlier one with its key and keeps the earlier
place. The search comes last as a term of its own and replaces nothing.
-/

namespace Listing

/-- A filter under the key that it occupies. -/
abbrev Clause := String × Filter

/-- The filters of a request by category. -/
structure Constraints where
  /-- Plain equalities, and after them those that the endpoint adds. -/
  equality : List Filter := []
  /-- Fields with a value inside a list. -/
  inList : List Filter := []
  /-- Fields with no value inside a list. -/
  notInList : List Filter := []
  /-- The clauses of the filter document that the request carries. -/
  override : List Clause := []
  /-- Array elements with a value inside a list. -/
  elementIn : List Filter := []
  /-- Array elements with no value inside a list. -/
  elementNotIn : List Filter := []
  /-- The search. -/
  search : Option Filter := none

namespace Constraints

/-- Filters under their own keys. -/
def keyed (filters : List Filter) : List Clause := filters.map fun filter => (filter.key, filter)

/-- All clauses in the order in which later ones replace earlier ones. -/
def clauses (constraints : Constraints) : List Clause :=
  keyed constraints.equality ++ keyed constraints.inList ++ keyed constraints.notInList ++ constraints.override ++
    keyed constraints.elementIn ++ keyed constraints.elementNotIn

/-- The filter of a request. -/
def filter (constraints : Constraints) : Filter :=
  .all ((Keyed.ofList constraints.clauses).values ++ constraints.search.toList)

end Constraints

end Listing
