import Listing.Json.SyntaxError

/-!
# Failures of a list request

A request fails because its filter is malformed, because a key of an array-element group does not
name a field inside an array, or because the store failed. Each failure has a short kind and a
message for the client, and is answered with the same status.
-/

namespace Listing

/-- Why a filter is refused. -/
inductive Rejection where
  /-- The filter document is not JSON. -/
  | notJson (error : Json.SyntaxError)
  /-- The filter document is not an object. -/
  | notObject
  /-- Too many combinations inside one another. -/
  | tooDeep
  /-- A condition on the empty field. -/
  | emptyField
  /-- An operator that combines nothing. -/
  | unsupportedOperator (operator : String)
  /-- A combination without a list of parts. -/
  | noBranches (operator : String)
  /-- A combination with a part that is not an object. -/
  | branchNotObject (operator : String)
  /-- An object as condition that does not consist of operators. -/
  | notOperators (field : String)
  /-- An array as condition. -/
  | arrayValue (field : String)
  /-- A membership operator without a list. -/
  | notList (operator field : String)
  /-- An array or object as operand. -/
  | notScalar (operator field : String)
  /-- An operator that is unknown on fields. -/
  | unsupportedCondition (operator field : String)
  /-- A parameter whose field is an operator. -/
  | operatorField (field : String)
  /-- A reason in words. -/
  | stated (reason : String)
  deriving DecidableEq, Repr

/-- The wording of a refusal. -/
def Rejection.message : Rejection → String
  | notJson error => error.message
  | notObject => "expected a JSON object"
  | tooDeep => "filter is nested too deeply"
  | emptyField => "empty field name"
  | unsupportedOperator op => "unsupported operator '" ++ op ++ "'"
  | noBranches op => "'" ++ op ++ "' expects a non-empty array"
  | branchNotObject op => "'" ++ op ++ "' entries must be objects"
  | notOperators field =>
    "condition on '" ++ field ++ "' must use operators; nested documents are not supported"
  | arrayValue field => "array value for '" ++ field ++ "'; use $in"
  | notList op field => "'" ++ op ++ "' on '" ++ field ++ "' expects an array"
  | notScalar op field => "'" ++ op ++ "' on '" ++ field ++ "' expects scalar values"
  | unsupportedCondition op field => "unsupported operator '" ++ op ++ "' on '" ++ field ++ "'"
  | operatorField field =>
    "'" ++ field ++ "' is not a field name; operators are only accepted in mongoQuery"
  | stated reason => reason

/-- Why a list request fails. -/
inductive Failure where
  /-- A filter is malformed. -/
  | malformedFilter (cause : Rejection)
  /-- A key of an array-element group is not an array field and a field inside it. -/
  | invalidFieldPath (path : String)
  /-- The store failed to count or to find. -/
  | storeOperation (reason : String)
  deriving DecidableEq, Repr

namespace Failure

/-- The short name of the kind of failure. -/
def kind : Failure → String
  | malformedFilter _ => "malformed_filter"
  | invalidFieldPath _ => "invalid_field_path"
  | storeOperation _ => "store_operation"

/-- The message for the client. -/
def message : Failure → String
  | malformedFilter cause => "Malformed filter: " ++ cause.message
  | invalidFieldPath path => "Invalid field path '" ++ path ++ "': expected 'arrayField.subField'"
  | storeOperation reason => reason

/-- The status with which a failure is answered, whatever its kind. -/
def status (_ : Failure) : Nat := 500

end Failure

end Listing
