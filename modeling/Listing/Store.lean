import Listing.Filter.Holds
import Listing.Json.Compact
import Listing.Sort
import Listing.Store.Expansion

/-!
# A store of documents

A store keeps named collections of documents in the order in which they were inserted. A field of
a collection may be declared to refer to the documents of another one. Every operation is a
function from a store to its result and the store after it.

A store may be made to fail: then counting and finding give the failure, and everything else works.
-/

namespace Listing

/-- A store of documents. -/
structure Store where
  /-- Fresh identifiers: the one for the first document without an identifier, and so on. -/
  ids : Nat → String
  /-- The documents of each collection in the order of their insertion. -/
  documents : Keyed (List Json) := []
  /-- For each collection the fields that refer to others, with the collections they refer to. -/
  relations : Keyed (Keyed String) := []
  /-- The failure of counting and finding, if they fail. -/
  failure : Option String := none
  /-- How often documents were counted or found so far, failures included. -/
  operations : Nat := 0
  /-- How many fresh identifiers were used so far. -/
  drawn : Nat := 0

/-- What is asked of a store when documents are to be found. -/
structure Selection where
  /-- Which documents. -/
  filter : Filter
  /-- In which order. -/
  sort : SortKeys
  /-- How many of the first ones to leave out. -/
  skip : Nat
  /-- How many at most. -/
  limit : Nat
  /-- Which fields, all when the list is empty. -/
  projection : List String
  /-- Which references to expand. -/
  expansions : List String

namespace Store

/-- The documents of a collection. -/
def collection (store : Store) (name : String) : List Json :=
  (Keyed.get? store.documents name).getD []

/-- How many documents a collection holds. -/
def len (store : Store) (name : String) : Nat := (store.collection name).length

/-- The relations of a collection. -/
def relationsOf (store : Store) (name : String) : Keyed String :=
  (Keyed.get? store.relations name).getD []

/-- The entries under which a value is stored: its own when it is an object, else one entry. -/
def storedFields : Json → Keyed Json
  | .object fields => fields
  | value => [("value", value)]

/-- The identifier of a document as text. -/
def idText : Json → String
  | .text id => id
  | other => other.compact

/-- Insert a document at the end of a collection and give its identifier. A document without one
gets a fresh one. -/
def insert (store : Store) (name : String) (document : Json) : String × Store :=
  let fields := storedFields document
  match Keyed.get? fields idKey with
  | some id =>
    (idText id,
      { store with
        documents :=
          Keyed.insert store.documents name (store.collection name ++ [.object fields]) })
  | none =>
    let id := store.ids store.drawn
    let stored := Json.object (Keyed.insert fields idKey (.text id))
    (id,
      { store with
        documents := Keyed.insert store.documents name (store.collection name ++ [stored])
        drawn := store.drawn + 1 })

/-- Declare that a field of a collection refers to the documents of a target collection. -/
def relate (store : Store) (name field target : String) : Store :=
  { store with
    relations :=
      Keyed.insert store.relations name (Keyed.insert (store.relationsOf name) field target) }

/-- Begin to count or to find: the operation is counted, and fails if the store does. -/
def begin (store : Store) : Except String Unit × Store :=
  (match store.failure with
    | some reason => .error reason
    | none => .ok (),
    { store with operations := store.operations + 1 })

/-- The documents of a collection that satisfy a filter, in the order of their insertion. -/
def matching (store : Store) (name : String) (filter : Filter) : List Json :=
  (store.collection name).filter filter.holds

/-- Count the documents of a collection that satisfy a filter. -/
def count (store : Store) (name : String) (filter : Filter) : Except String Nat × Store :=
  let (begun, after) := store.begin
  (begun.map fun _ => (store.matching name filter).length, after)

/-- The part of the matching documents that is asked for, in the order of the sort. -/
def slice (store : Store) (name : String) (request : Selection) : List Json :=
  ((request.sort.sort (store.matching name request.filter)).drop request.skip).take request.limit

/-- A stored document as it is given out: the requested fields, with references expanded. -/
def present (store : Store) (name : String) (request : Selection) (document : Json) : Json :=
  Expansion.expand (store.relationsOf name) store.documents request.expansions
    (Projection.apply request.projection document)

/-- Find documents of a collection. -/
def find (store : Store) (name : String) (request : Selection) :
    Except String (List Json) × Store :=
  let (begun, after) := store.begin
  (begun.map fun _ => (store.slice name request).map (store.present name request), after)

end Store

end Listing
