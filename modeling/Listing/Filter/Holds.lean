import Listing.Filter.Basic
import Listing.Json.Loose
import Listing.Path
import Listing.Text.Lower

/-!
# When a document satisfies a filter

A condition on a path holds when one of the candidate values satisfies it; a negated condition
holds when none satisfies the positive one, so it also holds of documents without the field.
-/

namespace Listing

/-- Whether an order between a value and an operand agrees with a comparison. -/
def Comparison.accepts : Comparison → Ordering → Bool
  | ne, order => order != .eq
  | gt, order => order == .gt
  | gte, order => order != .lt
  | lt, order => order == .lt
  | lte, order => order != .gt

namespace Filter

open Json

/-- Whether some value is loosely equal to the operand. -/
def someEqual (values : List Json) (operand : Json) : Bool :=
  values.any fun value => equalsOperand value operand

/-- Whether some value agrees with a comparison, or, for `ne`, none equals the operand. -/
def compares (values : List Json) (op : Comparison) (operand : Json) : Bool :=
  match op with
  | .ne => !someEqual values operand
  | op => values.any fun value => (compareOperand? value operand).any op.accepts

/-- Whether some value is among the operands, or, for `notIn`, none is. -/
def membershipHolds (values : List Json) (kind : Membership) (operands : List Json) : Bool :=
  let hit := values.any fun value => operands.any (equalsOperand value)
  match kind with
  | .isIn => hit
  | .notIn => !hit

/-- Whether a value is a string that contains a text, both in lower case. -/
def containsText (needle : String) : Json → Bool
  | .text s => Text.occursIn (Text.lowerChars needle.toList) (Text.lowerChars s.toList)
  | _ => false

mutual

/-- Whether a document satisfies a filter. -/
def holds : Filter → Json → Bool
  | all filters, document => allHold filters document
  | any filters, document => someHolds filters document
  | equals path operand, document => someEqual (Path.candidates document path) operand
  | compare path op operand, document => compares (Path.candidates document path) op operand
  | membership path kind operands, document => membershipHolds (Path.candidates document path) kind operands
  | element path field kind operands, document =>
    match Path.lookup document path with
    | some (.array elements) =>
      elements.any fun inner => membershipHolds (Path.candidates inner field) kind operands
    | _ => false
  | contains path needle, document => (Path.candidates document path).any (containsText needle)

/-- Whether a document satisfies every filter of a list. -/
def allHold : List Filter → Json → Bool
  | [], _ => true
  | filter :: rest, document => filter.holds document && allHold rest document

/-- Whether a document satisfies some filter of a list. -/
def someHolds : List Filter → Json → Bool
  | [], _ => false
  | filter :: rest, document => filter.holds document || someHolds rest document

end

/-- Every filter of a list holds when each does. -/
theorem allHold_eq_all (filters : List Filter) (document : Json) :
    allHold filters document = filters.all (·.holds document) := by
  induction filters with
  | nil => rfl
  | cons filter rest ih => simp [allHold, ih]

/-- Some filter of a list holds when one does. -/
theorem someHolds_eq_any (filters : List Filter) (document : Json) :
    someHolds filters document = filters.any (·.holds document) := by
  induction filters with
  | nil => rfl
  | cons filter rest ih => simp [someHolds, ih]

/-- A conjunction holds of a document when each of its filters does. -/
theorem holds_all (filters : List Filter) (document : Json) :
    (all filters).holds document = true ↔ ∀ filter ∈ filters, filter.holds document = true := by
  rw [holds, allHold_eq_all, List.all_eq_true]

/-- A disjunction holds of a document when one of its filters does. -/
theorem holds_any (filters : List Filter) (document : Json) :
    (any filters).holds document = true ↔ ∃ filter ∈ filters, filter.holds document = true := by
  rw [holds, someHolds_eq_any, List.any_eq_true]

end Filter

end Listing
