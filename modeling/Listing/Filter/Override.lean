import Listing.Failure
import Listing.Filter.Constraints
import Listing.Json.Reader
import Listing.Path

/-!
# The filter document of a request

A request may carry a whole filter document. Only a closed set of operators is accepted: implicit
equality and the comparisons with scalar operands, membership in a list of scalars, and
combinations of at least one document, with at most eight combinations around any document.
Everything else is refused before the store is asked, with the first cause in document order.
-/

namespace Listing.Override

/-- How many combinations may stand around a document. -/
def maxNesting : Nat := 8

/-- An operand that has to be a scalar. -/
def scalarOperand (field operator : String) (operand : Json) : Except Rejection Json :=
  if operand.isScalar then .ok operand else .error (.notScalar operator field)

/-- The filter that an operator and its operand put on a field. -/
def condition (field operator : String) (operand : Json) : Except Rejection Filter :=
  if operator = "$eq" then (scalarOperand field operator operand).map (.equals field)
  else if operator = "$in" ∨ operator = "$nin" then
    match operand with
    | .array operands =>
      (operands.mapM (scalarOperand field operator)).map
        (.membership field (if operator = "$in" then .isIn else .notIn))
    | _ => .error (.notList operator field)
  else
    match Comparison.ofOperator? operator with
    | some op => (scalarOperand field operator operand).map (.compare field op)
    | none => .error (.unsupportedCondition operator field)

/-- The filter that the entry of a field stands for. -/
def fieldCondition (field : String) (value : Json) : Except Rejection Filter :=
  match value with
  | .object operators =>
    if operators.isEmpty ∨ ¬ operators.all fun entry => Path.isOperator entry.1 then
      .error (.notOperators field)
    else (operators.mapM fun entry => condition field entry.1 entry.2).map Filter.conjoin
  | .array _ => .error (.arrayValue field)
  | operand => .ok (.equals field operand)

/-- The filter that an entry stands for when its key is not a combination. -/
def leaf (key : String) (value : Json) : Except Rejection Filter :=
  if key = "" then .error .emptyField
  else if Path.isOperator key then .error (.unsupportedOperator key)
  else fieldCondition key value

mutual

/-- The clauses that the entries of a document stand for, each under its key, given how many
combinations are around the document. -/
def clauses (nesting : Nat) : List (String × Json) → Except Rejection (List Clause)
  | [] => .ok []
  | (key, value) :: rest => do
    let filter ←
      if key = "$and" then (parts nesting key value).map .all
      else if key = "$or" then (parts nesting key value).map .any
      else leaf key value
    let others ← clauses nesting rest
    .ok ((key, filter) :: others)

/-- The filters that a combination is made of. -/
def parts (nesting : Nat) (operator : String) : Json → Except Rejection (List Filter)
  | .array documents =>
    if documents.isEmpty then .error (.noBranches operator) else partList nesting operator documents
  | _ => .error (.noBranches operator)

/-- The filters that the documents of a combination stand for. -/
def partList (nesting : Nat) (operator : String) : List Json → Except Rejection (List Filter)
  | [] => .ok []
  | document :: rest => do
    let filter ← part nesting operator document
    let others ← partList nesting operator rest
    .ok (filter :: others)

/-- The filter that a document inside a combination stands for. -/
def part (nesting : Nat) (operator : String) : Json → Except Rejection Filter
  | .object fields =>
    if maxNesting < nesting + 1 then .error .tooDeep
    else (clauses (nesting + 1) fields).map fun clauses => Filter.conjoin (clauses.map Prod.snd)
  | _ => .error (.branchNotObject operator)

end

/-- The filter that an entry of a document stands for, given how many combinations are around the
document. -/
def entryFilter (nesting : Nat) (key : String) (value : Json) : Except Rejection Filter :=
  if key = "$and" then (parts nesting key value).map .all
  else if key = "$or" then (parts nesting key value).map .any
  else leaf key value

/-- The clauses of a document are read entry by entry. -/
theorem clauses_cons (nesting : Nat) (key : String) (value : Json) (rest : List (String × Json)) :
    clauses nesting ((key, value) :: rest) =
      entryFilter nesting key value >>= fun filter =>
        clauses nesting rest >>= fun others => .ok ((key, filter) :: others) := by
  rw [clauses, entryFilter]
  split
  · rfl
  · split <;> rfl

/-- The clauses of a filter document. -/
def ofJson : Json → Except Rejection (List Clause)
  | .object fields => clauses 0 fields
  | _ => .error .notObject

/-- The clauses of a filter document given as text. -/
def parse (text : String) : Except Rejection (List Clause) := do
  let document ← (Json.parse text).mapError .notJson
  ofJson document

end Listing.Override
