import Listing.Projection

/-!
# Expanding references

A field may hold identifiers of documents in another collection. Expanding it puts the documents
in their place. A single identifier that names no document becomes null, and in an array such
identifiers are left out.
-/

namespace Listing.Expansion

/-- Whether a document has an identifier equal to the given value. -/
def hasId (id document : Json) : Bool := (document.field? idKey).any (·.same id)

/-- The first document of a collection with an identifier. -/
def resolve (targets : List Json) (id : Json) : Option Json := targets.find? (hasId id)

/-- What takes the place of a value that refers to documents of a collection. -/
def expandValue (targets : List Json) : Json → Json
  | .array ids => .array (ids.filterMap (resolve targets))
  | .null => .null
  | id => (resolve targets id).getD .null

/-- Expand one field of an object, given the target collection of each field and the documents of
each collection. Without a target, or without the field, nothing changes. -/
def expandField (relations : Keyed String) (documents : Keyed (List Json)) (fields : Keyed Json)
    (field : String) : Keyed Json :=
  match Keyed.get? relations field, Keyed.get? fields field with
  | some target, some value =>
    Keyed.insert fields field (expandValue ((Keyed.get? documents target).getD []) value)
  | _, _ => fields

/-- Expand fields of a document, one after the other. -/
def expand (relations : Keyed String) (documents : Keyed (List Json)) (names : List String) :
    Json → Json
  | .object fields => .object (names.foldl (expandField relations documents) fields)
  | value => value

end Listing.Expansion
