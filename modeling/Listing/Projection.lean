import Listing.Path
import Listing.Text.Blank

/-!
# Projections

A request may ask for some fields only. The identifier always comes with them, and a dotted field
keeps its nesting.
-/

namespace Listing

/-- The key of the identifier of a document. -/
def idKey : String := "_id"

namespace Projection

/-- The field names of a comma list, trimmed, without empty ones, each at its first place. -/
def parse (fields : String) : List String :=
  (((Text.split ',' fields).map Text.trim).filter (· ≠ "")).eraseDups

/-- Put a value at the end of a path into the entries of an object. Objects on the way are made
when they are missing, also in the place of other values. -/
def insertAt (fields : Keyed Json) (path : List String) (value : Json) : Keyed Json :=
  match path with
  | [] => fields
  | [key] => Keyed.insert fields key value
  | key :: next :: keys =>
    let inner := ((Keyed.get? fields key).map Json.fields).getD []
    Keyed.insert fields key (.object (insertAt inner (next :: keys) value))

/-- Put the value at a path of a document into the entries of an object, if there is one. -/
def collect (document : Json) (fields : Keyed Json) (path : String) : Keyed Json :=
  match Path.lookup document path with
  | some value => insertAt fields (Path.segments path) value
  | none => fields

/-- The identifier and the requested fields of a document; all of it when none is requested. -/
def apply (paths : List String) (document : Json) : Json :=
  if paths = [] then document
  else
    let id : Keyed Json :=
      match document.field? idKey with
      | some id => [(idKey, id)]
      | none => []
    .object (paths.foldl (collect document) id)

end Projection

end Listing
