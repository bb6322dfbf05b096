import Listing.Filter.Parameters
import Listing.Filter.Override
import Listing.Page
import Listing.Projection
import Listing.Query.Destination
import Listing.Sort

/-!
# The query of a list request

A request is a list of key and value pairs. Pairs with one destination count once, with the value
of the last of them, so a query is made of the last values of its parameters and of the fields
that it filters on. A pair whose field is written like an operator is refused, and after that a
filter document outside the accepted ones.
-/

namespace Listing

/-- A query pair: its key and its value. -/
abbrev Pair := String × String

/-- What a list request asks for. -/
structure Query where
  /-- The page. -/
  pagination : Pagination
  /-- The order of the documents. -/
  sort : SortKeys
  /-- The search term, empty when there is none. -/
  searchTerm : String
  /-- The clauses of the filter document. -/
  override : List Clause
  /-- The requested fields, all when there are none. -/
  projection : List String
  /-- Fields with lists that a value is in. -/
  inList : Keyed String
  /-- Fields with lists that no value is in. -/
  notInList : Keyed String
  /-- Fields of array elements with lists that a value is in. -/
  elementIn : Keyed String
  /-- Fields of array elements with lists that no value is in. -/
  elementNotIn : Keyed String
  /-- Fields with the value that they equal. -/
  equality : Keyed String

namespace Query

/-- The last value given for a reserved parameter. -/
def lastValue (pairs : List Pair) (parameter : Parameter) : Option String :=
  (pairs.findRev? fun pair => Destination.ofKey pair.1 = .parameter parameter).map Prod.snd

/-- The fields of a bracket group with their last values, in the order of the fields. -/
def groupOf (pairs : List Pair) (group : ListGroup) : Keyed String :=
  Keyed.sortedOfList <| pairs.filterMap fun pair =>
    match Destination.ofKey pair.1 with
    | .group other field => if other = group then some (field, pair.2) else none
    | _ => none

/-- The fields of plain equalities with their last values, in the order of the fields. -/
def equalityOf (pairs : List Pair) : Keyed String :=
  Keyed.sortedOfList <| pairs.filterMap fun pair =>
    match Destination.ofKey pair.1 with
    | .equality field => some (field, pair.2)
    | _ => none

/-- The refusal of a pair whose field is written like an operator. -/
def refusal? (pair : Pair) : Option Rejection :=
  match (Destination.ofKey pair.1).field? with
  | some field => if Path.namesOperator field then some (.operatorField field) else none
  | none => none

/-- The clauses of the last filter document of a request, none without one. -/
def overrideOf (pairs : List Pair) : Except Rejection (List Clause) :=
  match lastValue pairs .override with
  | some text => Override.parse text
  | none => .ok []

/-- The query of pairs whose filter document has the given clauses. -/
def assemble (pairs : List Pair) (settings : Settings) (override : List Clause) : Query where
  pagination :=
    .parse (lastValue pairs .page) (lastValue pairs .limit) (lastValue pairs .skip) settings
  sort := .parseOr (lastValue pairs .sort) settings.defaultSort
  searchTerm := (lastValue pairs .search).getD ""
  override := override
  projection := ((lastValue pairs .fields).map Projection.parse).getD []
  inList := groupOf pairs .inList
  notInList := groupOf pairs .notInList
  elementIn := groupOf pairs .elementIn
  elementNotIn := groupOf pairs .elementNotIn
  equality := equalityOf pairs

/-- Read the pairs of a request. -/
def parse (pairs : List Pair) (settings : Settings) : Except Failure Query :=
  match pairs.findSome? refusal? with
  | some cause => .error (.malformedFilter cause)
  | none => ((overrideOf pairs).mapError .malformedFilter).map (assemble pairs settings)

/-- The filters of a query by category, with what the endpoint adds. -/
def constraints (query : Query) (endpoint : Endpoint) (settings : Settings) :
    Except Failure Constraints := do
  let elementIn ← Filter.elementConditions .isIn query.elementIn
  let elementNotIn ← Filter.elementConditions .notIn query.elementNotIn
  return {
    equality :=
      Filter.equalities query.equality ++
        endpoint.baseFilter.map fun entry => Filter.equals entry.1 entry.2
    inList := Filter.memberships .isIn query.inList
    notInList := Filter.memberships .notIn query.notInList
    override := query.override
    elementIn
    elementNotIn
    search := Filter.search query.searchTerm endpoint.searchFields settings.maxSearchLength }

/-- The filter of a query at an endpoint. -/
def filter (query : Query) (endpoint : Endpoint) (settings : Settings) :
    Except Failure Filter :=
  (query.constraints endpoint settings).map Constraints.filter

end Query

end Listing
