import Listing.Filter.Basic

/-!
# Filters as documents

A filter is written as a JSON object in the syntax of document stores. The entries of the parts of
a conjunction are put side by side in one object as long as no key repeats; otherwise the
conjunction is written out under `$and`, so that no entry is lost.
-/

namespace Listing.Filter

/-- Whether a character has a meaning of its own in a search pattern. -/
def isPatternCharacter (c : Char) : Bool :=
  ['\\', '.', '+', '*', '?', '(', ')', '|', '[', ']', '{', '}', '^', '$', '-', '/'].contains c

/-- A pattern that stands for a text: a backslash before every character with a meaning. -/
def escapeChars : List Char → List Char
  | [] => []
  | c :: rest => if isPatternCharacter c then '\\' :: c :: escapeChars rest else c :: escapeChars rest

/-- A pattern that stands for a string. -/
def escapePattern (text : String) : String := String.ofList (escapeChars text.toList)

/-- An operand as the condition on a field. An object would read as operators and is wrapped. -/
def equalityCondition (operand : Json) : Json :=
  match operand with
  | .object _ => .single "$eq" operand
  | _ => operand

/-- The entries of a conjunction whose parts have the given entries. -/
def mergeEntries (parts : List (Keyed Json)) : Keyed Json :=
  if (Keyed.keys parts.flatten).Nodup then parts.flatten
  else [("$and", .array (parts.map .object))]

mutual

/-- The entries of the document that stands for a filter. -/
def entries : Filter → Keyed Json
  | all filters => mergeEntries (entriesOfAll filters)
  | any filters => [("$or", .array ((entriesOfAll filters).map .object))]
  | equals path operand => [(path, equalityCondition operand)]
  | compare path op operand => [(path, .single op.operator operand)]
  | membership path kind operands => [(path, .single kind.operator (.array operands))]
  | element path field kind operands =>
    [(path, .single "$elemMatch" (.single field (.single kind.operator (.array operands))))]
  | contains path needle =>
    [(path, .object [("$regex", .text (escapePattern needle)), ("$options", .text "i")])]

/-- The entries of each filter of a list. -/
def entriesOfAll : List Filter → List (Keyed Json)
  | [] => []
  | filter :: rest => entries filter :: entriesOfAll rest

end

/-- The document that stands for a filter. -/
def document (filter : Filter) : Json := .object filter.entries

theorem entriesOfAll_eq_map (filters : List Filter) : entriesOfAll filters = filters.map entries := by
  induction filters with
  | nil => rfl
  | cons filter rest ih => simp [entriesOfAll, ih]

/-- Every document is the concatenation of its parts or a single entry, so its keys are distinct. -/
theorem nodup_keys_entries (filter : Filter) : (Keyed.keys filter.entries).Nodup := by
  cases filter with
  | all filters =>
    simp only [entries, mergeEntries]
    split
    · assumption
    · simp [Keyed.keys]
  | _ => simp [entries, Keyed.keys]

end Listing.Filter
