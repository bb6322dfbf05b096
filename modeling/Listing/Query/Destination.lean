import Listing.Path

/-!
# Where a query pair goes

The key of a query pair decides alone what the pair means: one of the seven reserved parameters, a
field in one of the four bracket groups such as `inList[status]`, or an equality on the field that
the key names.
-/

namespace Listing

/-- The reserved parameters. -/
inductive Parameter where
  /-- The page. -/
  | page
  /-- The page size. -/
  | limit
  /-- How many documents to skip. -/
  | skip
  /-- The sort. -/
  | sort
  /-- The search term. -/
  | search
  /-- The filter document. -/
  | override
  /-- The projection. -/
  | fields
  deriving DecidableEq, Repr

/-- The reserved parameters with their keys. -/
def Parameter.named : List (String × Parameter) :=
  [("page", page), ("limit", limit), ("skip", skip), ("sort", sort), ("q", search),
   ("mongoQuery", override), ("fields", fields)]

/-- The bracket groups. -/
inductive ListGroup where
  /-- The field has a value inside a list. -/
  | inList
  /-- The field has no value inside a list. -/
  | notInList
  /-- A field of some array element has a value inside a list. -/
  | elementIn
  /-- A field of some array element has no value inside a list. -/
  | elementNotIn
  deriving DecidableEq, Repr

/-- The bracket groups with their names. -/
def ListGroup.named : List (String × ListGroup) :=
  [("inList", inList), ("notInList", notInList), ("inListArrOfObj", elementIn),
   ("notInListArrOfObj", elementNotIn)]

/-- What a query pair is for. -/
inductive Destination where
  /-- A reserved parameter. -/
  | parameter (parameter : Parameter)
  /-- A field of a bracket group. -/
  | group (group : ListGroup) (field : String)
  /-- An equality on a field. -/
  | equality (field : String)
  deriving DecidableEq, Repr

namespace Destination

/-- The field between brackets at the end of a key: not empty and without brackets of its own. -/
def bracketed? (rest : List Char) : Option String :=
  let field := rest.dropLast
  if rest.getLast? = some ']' ∧ field ≠ [] ∧ '[' ∉ field ∧ ']' ∉ field then
    some (String.ofList field)
  else none

/-- The group and field of a key such as `inList[status]`. -/
def group? (key : String) : Option (ListGroup × String) :=
  match Text.cutAt '[' key.toList with
  | none => none
  | some (name, rest) =>
    match bracketed? rest, ListGroup.named.lookup (String.ofList name) with
    | some field, some found => some (found, field)
    | _, _ => none

/-- What a key is for. -/
def ofKey (key : String) : Destination :=
  match Parameter.named.lookup key with
  | some reserved => .parameter reserved
  | none =>
    match group? key with
    | some (found, field) => .group found field
    | none => .equality key

/-- The field that a destination filters on, if it filters. -/
def field? : Destination → Option String
  | parameter _ => none
  | group _ field => some field
  | equality field => some field

end Destination

end Listing
