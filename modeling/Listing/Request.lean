import Listing.Query
import Listing.Store

/-!
# Answering a list request

A request is compiled to a query and its filter before the store is asked. Then the store is asked
twice, for the number of matching documents and for those of the page.
-/

namespace Listing

/-- A list request that is ready for the store. -/
structure ListRequest where
  /-- What the request asks for. -/
  query : Query
  /-- The filter of the request at its endpoint. -/
  filter : Filter

namespace ListRequest

/-- Compile the pairs of a request. -/
def ofPairs (pairs : List Pair) (endpoint : Endpoint) (settings : Settings) :
    Except Failure ListRequest := do
  let query ← Query.parse pairs settings
  let filter ← query.filter endpoint settings
  return { query, filter }

/-- What is asked of the store to fill the page. -/
def selection (request : ListRequest) (endpoint : Endpoint) : Selection where
  filter := request.filter
  sort := request.query.sort
  skip := request.query.pagination.skip
  limit := request.query.pagination.limit
  projection := request.query.projection
  expansions := endpoint.expansions

/-- The page, given the number of matching documents and those of the page. -/
def page (request : ListRequest) (itemCount : Nat) (documents : List Json) : Page where
  documents := documents
  pageInfo := .of request.query.pagination itemCount

end ListRequest

/-- Answer a list request from a collection. The page is not asked for when counting fails. -/
def Store.list (store : Store) (name : String) (pairs : List Pair) (endpoint : Endpoint)
    (settings : Settings) : Except Failure Page × Store :=
  match ListRequest.ofPairs pairs endpoint settings with
  | .error e => (.error e, store)
  | .ok request =>
    match store.count name request.filter with
    | (.error reason, counted) => (.error (.storeOperation reason), counted)
    | (.ok itemCount, counted) =>
      match counted.find name (request.selection endpoint) with
      | (.error reason, found) => (.error (.storeOperation reason), found)
      | (.ok documents, found) => (.ok (request.page itemCount documents), found)

end Listing
