import Listing.Json.Loose
import Listing.Path
import Listing.Text.Blank
import Listing.Text.Split

/-!
# Sorting documents

A sort is a list of keys, the first the most important. It is written as field names separated by
spaces or commas, a minus sign before a name for descending order and an optional plus sign for
ascending order.
-/

namespace Listing

/-- The direction of a sort key. -/
inductive Direction where
  /-- Smaller values first. -/
  | ascending
  /-- Greater values first. -/
  | descending
  deriving DecidableEq, Repr

/-- A field to sort by. -/
structure SortKey where
  /-- The path of the field. -/
  field : String
  /-- The direction. -/
  direction : Direction
  deriving DecidableEq, Repr

/-- The keys of a sort in order of importance. -/
abbrev SortKeys := List SortKey

namespace SortKey

/-- The key that a token stands for, blanks at its ends aside; `none` without a field name. -/
def ofToken? (token : String) : Option SortKey :=
  let (direction, field) :=
    match Text.trimChars token.toList with
    | '-' :: field => (.descending, field)
    | '+' :: field => (.ascending, field)
    | field => (.ascending, field)
  if field = [] then none else some ⟨String.ofList field, direction⟩

/-- How a key orders two documents. -/
def compare (key : SortKey) (a b : Json) : Ordering :=
  let order := Json.sortOptions (Path.lookup a key.field) (Path.lookup b key.field)
  match key.direction with
  | .ascending => order
  | .descending => order.swap

end SortKey

namespace SortKeys

/-- Whether a character separates sort keys. -/
def isSeparator (c : Char) : Bool := c = ' ' || c = ','

/-- The keys that a text names. -/
def ofText (text : String) : SortKeys := (Text.splitBy isSeparator text).filterMap SortKey.ofToken?

/-- The keys that a text names, or `none` if it names none. -/
def parse? (text : String) : Option SortKeys := if ofText text = [] then none else some (ofText text)

/-- The keys of a parameter, or those of the default when it is absent or names none. -/
def parseOr (text : Option String) (default : String) : SortKeys :=
  (text.bind parse?).getD (ofText default)

/-- How a sort orders two documents: by the first key that tells them apart. -/
def compare : SortKeys → Json → Json → Ordering
  | [], _, _ => .eq
  | key :: keys, a, b => (key.compare a b).then (compare keys a b)

/-- A number for the direction in a sort document. -/
def directionNumber : Direction → Json
  | .ascending => .number (.natural ⟨1, by decide⟩)
  | .descending => .number (.negative ⟨0, by decide⟩)

/-- The sort as a document: the direction under each field, a repeated field in its first place
with its last direction. -/
def document (keys : SortKeys) : Json :=
  .object (Keyed.ofList (keys.map fun key => (key.field, directionNumber key.direction)))

/-- Documents in the order of a sort, those that it does not tell apart in their given order. -/
def sort (keys : SortKeys) (documents : List Json) : List Json :=
  documents.mergeSort fun a b => (compare keys a b).isLE

end SortKeys

end Listing
