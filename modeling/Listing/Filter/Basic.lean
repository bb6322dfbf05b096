import Listing.Json.Basic

/-!
# Filters over documents

A filter is a tree: leaves constrain the values at one field path, conjunctions and disjunctions
combine filters. The empty conjunction holds of every document.
-/

namespace Listing

/-- Comparisons other than equality. -/
inductive Comparison where
  /-- Different from the operand. -/
  | ne
  /-- Greater than the operand. -/
  | gt
  /-- Greater than or equal to the operand. -/
  | gte
  /-- Less than the operand. -/
  | lt
  /-- Less than or equal to the operand. -/
  | lte
  deriving DecidableEq, Repr

namespace Comparison

/-- The operator of a comparison in a filter document. -/
def operator : Comparison → String
  | ne => "$ne"
  | gt => "$gt"
  | gte => "$gte"
  | lt => "$lt"
  | lte => "$lte"

/-- The comparison that an operator names. -/
def ofOperator? (operator : String) : Option Comparison :=
  if operator = "$ne" then some ne
  else if operator = "$gt" then some gt
  else if operator = "$gte" then some gte
  else if operator = "$lt" then some lt
  else if operator = "$lte" then some lte
  else none

/-- An operator names the comparison that it was written for. -/
theorem ofOperator?_operator (op : Comparison) : ofOperator? op.operator = some op := by
  cases op <;> decide

end Comparison

/-- Whether a value has to be inside or outside a set. -/
inductive Membership where
  /-- Inside. -/
  | isIn
  /-- Outside. -/
  | notIn
  deriving DecidableEq, Repr

/-- The operator of a membership test in a filter document. -/
def Membership.operator : Membership → String
  | isIn => "$in"
  | notIn => "$nin"

/-- A condition on documents. -/
inductive Filter where
  /-- Every filter of a list holds. -/
  | all (filters : List Filter)
  /-- Some filter of a list holds. -/
  | any (filters : List Filter)
  /-- The path has a value loosely equal to the operand. -/
  | equals (path : String) (operand : Json)
  /-- The path compares with the operand. -/
  | compare (path : String) (op : Comparison) (operand : Json)
  /-- The path has a value among the operands, or has none among them. -/
  | membership (path : String) (kind : Membership) (operands : List Json)
  /-- The path holds an array, and in some element of it a field is inside or outside the
  operands. -/
  | element (path : String) (field : String) (kind : Membership) (operands : List Json)
  /-- The path has a string that contains a text, letter case aside. -/
  | contains (path : String) (needle : String)
  deriving Repr, Inhabited

namespace Filter

/-- The filter itself when it is alone, else the conjunction. -/
def conjoin : List Filter → Filter
  | [filter] => filter
  | filters => all filters

/-- The filter that holds of every document. -/
def everything : Filter := all []

/-- Whether a filter is the empty conjunction. -/
def isEverything : Filter → Bool
  | all [] => true
  | _ => false

/-- The key under which a filter stands among the clauses of a request: its field path, or the
operator of a combination. -/
def key : Filter → String
  | all _ => "$and"
  | any _ => "$or"
  | equals path _ => path
  | compare path _ _ => path
  | membership path _ _ => path
  | element path _ _ _ => path
  | contains path _ => path

mutual

/-- The paths that the conditions of a filter look at, those inside array elements included. -/
def fields : Filter → List String
  | all filters => fieldsOfAll filters
  | any filters => fieldsOfAll filters
  | equals path _ => [path]
  | compare path _ _ => [path]
  | membership path _ _ => [path]
  | element path field _ _ => [path, field]
  | contains path _ => [path]

/-- The paths that the conditions of some filters look at. -/
def fieldsOfAll : List Filter → List String
  | [] => []
  | filter :: rest => fields filter ++ fieldsOfAll rest

end

/-- The paths of a list of filters are those of each of them. -/
theorem fieldsOfAll_eq_flatMap (filters : List Filter) : fieldsOfAll filters = filters.flatMap fields := by
  induction filters with
  | nil => rfl
  | cons filter rest ih => simp [fieldsOfAll, ih]

/-- The paths of a part are among those of its conjunction. -/
theorem mem_fields_all {filters : List Filter} {filter : Filter} (hfilter : filter ∈ filters) {field : String}
    (hfield : field ∈ filter.fields) : field ∈ (all filters).fields := by
  rw [fields, fieldsOfAll_eq_flatMap]
  exact List.mem_flatMap.mpr ⟨filter, hfilter, hfield⟩

/-- The paths of a part are among those of its disjunction. -/
theorem mem_fields_any {filters : List Filter} {filter : Filter} (hfilter : filter ∈ filters) {field : String}
    (hfield : field ∈ filter.fields) : field ∈ (any filters).fields := by
  rw [fields, fieldsOfAll_eq_flatMap]
  exact List.mem_flatMap.mpr ⟨filter, hfilter, hfield⟩

/-- Induction over a filter, with the induction hypothesis for every filter of a combination. -/
@[induction_eliminator]
theorem induction {motive : Filter → Prop}
    (all : ∀ filters, (∀ filter ∈ filters, motive filter) → motive (.all filters))
    (any : ∀ filters, (∀ filter ∈ filters, motive filter) → motive (.any filters))
    (equals : ∀ path operand, motive (.equals path operand))
    (compare : ∀ path op operand, motive (.compare path op operand))
    (membership : ∀ path kind operands, motive (.membership path kind operands))
    (element : ∀ path field kind operands, motive (.element path field kind operands))
    (contains : ∀ path needle, motive (.contains path needle)) (filter : Filter) : motive filter :=
  match filter with
  | .all filters =>
    all filters fun inner _ => induction all any equals compare membership element contains inner
  | .any filters =>
    any filters fun inner _ => induction all any equals compare membership element contains inner
  | .equals path operand => equals path operand
  | .compare path op operand => compare path op operand
  | .membership path kind operands => membership path kind operands
  | .element path field kind operands => element path field kind operands
  | .contains path needle => contains path needle

end Filter

end Listing
