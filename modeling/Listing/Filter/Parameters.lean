import Listing.Failure
import Listing.Filter.Basic
import Listing.Text.Split

/-!
# Conditions from query parameters

Each parameter that filters becomes one leaf: an equality with its value, or a membership test
against the comma-separated strings of its value, on a field or on a field of array elements.
-/

namespace Listing

/-- The strings of a comma list as operands. Empty strings are kept. -/
def commaOperands (list : String) : List Json := (Text.split ',' list).map .text

/-- A field inside the elements of an array, written `arrayField.subField`. -/
structure ElementPath where
  /-- The field that holds the array. -/
  array : String
  /-- The field of each element. -/
  field : String
  deriving DecidableEq, Repr

/-- Read the path of a field inside array elements: exactly two keys, neither of them empty. -/
def ElementPath.parse (path : String) : Except Failure ElementPath :=
  match Text.split '.' path with
  | [array, field] =>
    if array = "" ∨ field = "" then .error (.invalidFieldPath path) else .ok ⟨array, field⟩
  | _ => .error (.invalidFieldPath path)

namespace Filter

/-- One equality for each entry. -/
def equalities (group : Keyed String) : List Filter :=
  group.map fun entry => equals entry.1 (.text entry.2)

/-- One membership test for each entry, against its comma list. -/
def memberships (kind : Membership) (group : Keyed String) : List Filter :=
  group.map fun entry => membership entry.1 kind (commaOperands entry.2)

/-- The test of array elements that an entry stands for. -/
def elementCondition (kind : Membership) (entry : String × String) : Except Failure Filter :=
  (ElementPath.parse entry.1).map fun path => element path.array path.field kind (commaOperands entry.2)

/-- One test of array elements for each entry, or the failure of the first bad path. -/
def elementConditions (kind : Membership) (group : Keyed String) : Except Failure (List Filter) :=
  group.mapM (elementCondition kind)

/-- The search for a term in any of the fields. There is none without a term or without fields,
and only the first `maxLength` characters of the term count. -/
def search (term : String) (fields : List String) (maxLength : Nat) : Option Filter :=
  if term = "" ∨ fields = [] then none
  else
    let needle := String.ofList (term.toList.take maxLength)
    some (any (fields.map fun field => contains field needle))

end Filter

end Listing
