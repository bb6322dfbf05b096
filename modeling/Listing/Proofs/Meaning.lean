import Listing.Filter.Document
import Listing.Filter.Holds

/-!
# The meaning of filter documents

What a filter document says about a document can be read off it directly: an object is the
conjunction of its entries, `$and` and `$or` combine documents, and a field is tested by the
operators under it, or else by loose equality. Writing a filter as a document keeps its meaning,
also where the parts of a conjunction are put side by side in one object.
-/

namespace Listing.FilterDocument

/-- The text that a pattern stands for: a backslash is taken away and the character after it kept. -/
def unescapeChars : List Char → List Char
  | [] => []
  | '\\' :: c :: rest => c :: unescapeChars rest
  | c :: rest => c :: unescapeChars rest

/-- Whether a pattern among some operators ignores letter case. -/
def ignoresCase (operators : Keyed Json) : Bool :=
  match Keyed.get? operators "$options" with
  | some (.text options) => options = "i"
  | _ => false

/-- Whether a value is a string that contains the text of a pattern. -/
def matchesPattern (ignoreCase : Bool) (pattern : String) : Json → Bool
  | .text s =>
    let needle := unescapeChars pattern.toList
    if ignoreCase then Text.occursIn (Text.lowerChars needle) (Text.lowerChars s.toList)
    else Text.occursIn needle s.toList
  | _ => false

/-- Whether some values satisfy an operator other than `$elemMatch` with its operand. The options of
a pattern are no condition of their own, and an unknown operator is satisfied by nothing. -/
def valuesSatisfy (values : List Json) (ignoreCase : Bool) (operator : String) (operand : Json) : Bool :=
  match operator, operand with
  | "$eq", operand => Filter.someEqual values operand
  | "$ne", operand => Filter.compares values .ne operand
  | "$gt", operand => Filter.compares values .gt operand
  | "$gte", operand => Filter.compares values .gte operand
  | "$lt", operand => Filter.compares values .lt operand
  | "$lte", operand => Filter.compares values .lte operand
  | "$in", .array operands => Filter.membershipHolds values .isIn operands
  | "$nin", .array operands => Filter.membershipHolds values .notIn operands
  | "$regex", .text pattern => values.any (matchesPattern ignoreCase pattern)
  | "$options", _ => true
  | _, _ => false

mutual

/-- Whether a document satisfies a filter document, which has to be an object. -/
def holds : Json → Json → Bool
  | .object entries, document => entriesHold entries document
  | _, _ => false
termination_by structural filter => filter

/-- Whether a document satisfies every entry of a filter document. -/
def entriesHold : List (String × Json) → Json → Bool
  | [], _ => true
  | (key, value) :: rest, document => entryHolds key value document && entriesHold rest document
termination_by structural entries => entries

/-- Whether a document satisfies an entry: a combination of the listed filter documents, or a
condition on the field that the key names. -/
def entryHolds (key : String) : Json → Json → Bool
  | .array parts, document =>
    if key = "$and" then allHold parts document
    else if key = "$or" then someHolds parts document
    else !Path.isOperator key && Filter.someEqual (Path.candidates document key) (.array parts)
  | .object operators, document =>
    !Path.isOperator key && operatorsHold key (ignoresCase operators) operators document
  | operand, document => !Path.isOperator key && Filter.someEqual (Path.candidates document key) operand
termination_by structural value => value

/-- Whether a document satisfies every one of some filter documents. -/
def allHold : List Json → Json → Bool
  | [], _ => true
  | part :: rest, document => holds part document && allHold rest document
termination_by structural parts => parts

/-- Whether a document satisfies one of some filter documents. -/
def someHolds : List Json → Json → Bool
  | [], _ => false
  | part :: rest, document => holds part document || someHolds rest document
termination_by structural parts => parts

/-- Whether a field satisfies every operator. For `$elemMatch` the field has to hold an array with an
element that satisfies the operand as a filter document. -/
def operatorsHold (path : String) (ignoreCase : Bool) : List (String × Json) → Json → Bool
  | [], _ => true
  | (operator, operand) :: rest, document =>
    (if operator = "$elemMatch" then
      match Path.lookup document path with
      | some (.array elements) => elements.any fun element => holds operand element
      | _ => false
    else valuesSatisfy (Path.candidates document path) ignoreCase operator operand) &&
      operatorsHold path ignoreCase rest document
termination_by structural operators => operators

end

/-- The entries of two documents are satisfied together when both documents are. -/
theorem entriesHold_append (entries more : List (String × Json)) (document : Json) :
    entriesHold (entries ++ more) document = (entriesHold entries document && entriesHold more document) := by
  induction entries with
  | nil => rfl
  | cons entry rest ih =>
    obtain ⟨key, value⟩ := entry
    rw [List.cons_append, entriesHold, entriesHold, ih, Bool.and_assoc]

/-- Entries put side by side are satisfied when those of every part are. -/
theorem entriesHold_flatten (parts : List (Keyed Json)) (document : Json) :
    entriesHold parts.flatten document = parts.all (entriesHold · document) := by
  induction parts with
  | nil => rfl
  | cons part rest ih => rw [List.flatten_cons, entriesHold_append, ih, List.all_cons]

/-- All of some objects hold when the entries of each do. -/
theorem allHold_objects (parts : List (Keyed Json)) (document : Json) :
    allHold (parts.map .object) document = parts.all (entriesHold · document) := by
  induction parts with
  | nil => rfl
  | cons part rest ih => rw [List.map_cons, allHold, holds, ih, List.all_cons]

/-- Some of some objects holds when the entries of one do. -/
theorem someHolds_objects (parts : List (Keyed Json)) (document : Json) :
    someHolds (parts.map .object) document = parts.any (entriesHold · document) := by
  induction parts with
  | nil => rfl
  | cons part rest ih => rw [List.map_cons, someHolds, holds, ih, List.any_cons]

/-- A document with one entry is satisfied when that entry is. -/
theorem entriesHold_singleton (key : String) (value document : Json) :
    entriesHold [(key, value)] document = entryHolds key value document := by
  rw [entriesHold, entriesHold, Bool.and_true]

/-- Merging the entries of a conjunction loses none of them, whether they are put side by side or
listed under `$and`. -/
theorem entriesHold_mergeEntries (parts : List (Keyed Json)) (document : Json) :
    entriesHold (Filter.mergeEntries parts) document = parts.all (entriesHold · document) := by
  rw [Filter.mergeEntries]
  split
  · exact entriesHold_flatten parts document
  · rw [entriesHold_singleton, entryHolds, if_pos rfl, allHold_objects]

/-- A field with a single operator other than `$elemMatch` is tested by that operator. -/
theorem entryHolds_single {key operator : String} (hkey : Path.isOperator key = false)
    (hoperator : operator ≠ "$elemMatch") (operand document : Json) :
    entryHolds key (.single operator operand) document =
      valuesSatisfy (Path.candidates document key) (ignoresCase [(operator, operand)]) operator operand := by
  rw [Json.single, entryHolds, hkey, Bool.not_false, Bool.true_and, operatorsHold, if_neg hoperator,
    operatorsHold, Bool.and_true]

/-- Taking the backslashes out of an escaped text gives the text back. -/
theorem unescapeChars_escapeChars (text : List Char) : unescapeChars (Filter.escapeChars text) = text := by
  induction text with
  | nil => rfl
  | cons c rest ih =>
    rw [Filter.escapeChars]
    by_cases h : Filter.isPatternCharacter c = true
    · rw [if_pos h, unescapeChars, ih]
    · have hne : c ≠ '\\' := fun heq => h (heq ▸ by decide)
      rw [if_neg h, unescapeChars.eq_3 _ _ (fun _ _ heq => absurd heq hne), ih]

/-- The pattern written for a text matches, letter case aside, what contains the text. -/
theorem matchesPattern_escapePattern (needle : String) (value : Json) :
    matchesPattern true (Filter.escapePattern needle) value = Filter.containsText needle value := by
  cases value with
  | text s =>
    rw [matchesPattern, Filter.escapePattern, String.toList_ofList, unescapeChars_escapeChars, if_pos rfl,
      Filter.containsText]
  | _ => rfl

/-- A field with an operand that is no object has a document that asks for loose equality, and one
with an object asks for it by `$eq`. -/
theorem entryHolds_equalityCondition {key : String} (hkey : Path.isOperator key = false) (operand document : Json) :
    entryHolds key (Filter.equalityCondition operand) document =
      Filter.someEqual (Path.candidates document key) operand := by
  cases operand with
  | object fields =>
    rw [Filter.equalityCondition, entryHolds_single hkey (by decide)]
    rfl
  | array elements =>
    have hand : key ≠ "$and" := fun heq => absurd (heq ▸ hkey) (by decide)
    have hor : key ≠ "$or" := fun heq => absurd (heq ▸ hkey) (by decide)
    rw [Filter.equalityCondition, entryHolds, if_neg hand, if_neg hor, hkey, Bool.not_false, Bool.true_and]
    intro fields heq
    contradiction
  | _ =>
    rw [Filter.equalityCondition, entryHolds, hkey, Bool.not_false, Bool.true_and]
    all_goals
      intros
      contradiction

/-- An array field is tested by `$elemMatch` element by element. -/
theorem entryHolds_elemMatch {key : String} (hkey : Path.isOperator key = false) (inner document : Json) :
    entryHolds key (.single "$elemMatch" inner) document =
      match Path.lookup document key with
      | some (.array elements) => elements.any fun element => holds inner element
      | _ => false := by
  rw [Json.single, entryHolds, hkey, Bool.not_false, Bool.true_and, operatorsHold, if_pos rfl, operatorsHold,
    Bool.and_true]

/-- A membership test on a field means the same as the document that is written for it. -/
theorem entryHolds_membership {key : String} (hkey : Path.isOperator key = false) (kind : Membership)
    (operands : List Json) (document : Json) :
    entryHolds key (.single kind.operator (.array operands)) document =
      Filter.membershipHolds (Path.candidates document key) kind operands := by
  cases kind <;> exact entryHolds_single hkey (by decide) (.array operands) document

/-- The pattern of a search on a field is tested letter case aside. -/
theorem entryHolds_pattern {key : String} (hkey : Path.isOperator key = false) (needle : String) (document : Json) :
    entryHolds key (.object [("$regex", .text (Filter.escapePattern needle)), ("$options", .text "i")]) document =
      (Path.candidates document key).any (Filter.containsText needle) := by
  have hoptions : ignoresCase [("$regex", .text (Filter.escapePattern needle)), ("$options", .text "i")] = true := by
    rfl
  have hpattern : valuesSatisfy (Path.candidates document key) true "$regex" (.text (Filter.escapePattern needle)) =
      (Path.candidates document key).any (Filter.containsText needle) :=
    congrArg (Path.candidates document key).any (funext (matchesPattern_escapePattern needle))
  rw [entryHolds, hkey, Bool.not_false, Bool.true_and, hoptions, operatorsHold, if_neg (by decide), hpattern,
    operatorsHold, if_neg (by decide), operatorsHold, Bool.and_true, valuesSatisfy, Bool.and_true]

/-- The entries that are written for a filter are satisfied by the documents that satisfy it. -/
theorem entriesHold_entries (filter : Filter) (hfields : ∀ field ∈ filter.fields, Path.isOperator field = false)
    (document : Json) : entriesHold filter.entries document = filter.holds document := by
  induction filter generalizing document with
  | all filters ih =>
    have hparts (part : Filter) (hpart : part ∈ filters) :
        entriesHold part.entries document = part.holds document :=
      ih part hpart (fun field hfield => hfields field (Filter.mem_fields_all hpart hfield)) document
    rw [Filter.entries, entriesHold_mergeEntries, Filter.entriesOfAll_eq_map, List.all_map, Bool.eq_iff_iff,
      List.all_eq_true, Filter.holds_all]
    exact forall₂_congr fun part hpart => by rw [Function.comp_apply, hparts part hpart]
  | any filters ih =>
    have hparts (part : Filter) (hpart : part ∈ filters) :
        entriesHold part.entries document = part.holds document :=
      ih part hpart (fun field hfield => hfields field (Filter.mem_fields_any hpart hfield)) document
    rw [Filter.entries, entriesHold_singleton, entryHolds, if_neg (by decide), if_pos rfl, someHolds_objects,
      Filter.entriesOfAll_eq_map, List.any_map, Bool.eq_iff_iff, List.any_eq_true, Filter.holds_any]
    exact exists_congr fun part => and_congr_right fun hpart => by rw [Function.comp_apply, hparts part hpart]
  | equals path operand =>
    rw [Filter.entries, entriesHold_singleton, entryHolds_equalityCondition (hfields path List.mem_cons_self),
      Filter.holds]
  | compare path op operand =>
    have hpath := hfields path List.mem_cons_self
    rw [Filter.entries, entriesHold_singleton, Filter.holds]
    cases op <;> exact entryHolds_single hpath (by decide) operand document
  | membership path kind operands =>
    rw [Filter.entries, entriesHold_singleton, entryHolds_membership (hfields path List.mem_cons_self), Filter.holds]
  | element path field kind operands =>
    have hpath := hfields path List.mem_cons_self
    have hfield := hfields field (List.mem_cons_of_mem _ List.mem_cons_self)
    have hinner (inner : Json) : holds (.single field (.single kind.operator (.array operands))) inner =
        Filter.membershipHolds (Path.candidates inner field) kind operands := by
      rw [Json.single, holds, entriesHold_singleton, entryHolds_membership hfield]
    rw [Filter.entries, entriesHold_singleton, entryHolds_elemMatch hpath, Filter.holds]
    cases Path.lookup document path with
    | none => rfl
    | some value =>
      cases value with
      | array elements => exact congrArg elements.any (funext hinner)
      | _ => rfl
  | contains path needle =>
    rw [Filter.entries, entriesHold_singleton, entryHolds_pattern (hfields path List.mem_cons_self), Filter.holds]

/-- The document that is written for a filter is satisfied by exactly the documents that satisfy the
filter, as long as none of its fields reads as an operator. The document of a conjunction has no key
twice and is satisfied when those of all its parts are, whatever keys the parts are written under. -/
theorem holds_document_iff (filter : Filter) (hfields : ∀ field ∈ filter.fields, Path.isOperator field = false) :
    (∀ document, holds filter.document document = true ↔ filter.holds document = true) ∧
      ∀ filters, (Keyed.keys (Filter.all filters).entries).Nodup ∧
        ∀ document, holds (Filter.all filters).document document = true ↔
          ∀ part ∈ filters, holds part.document document = true := by
  constructor
  · intro document
    rw [Filter.document, holds, entriesHold_entries filter hfields]
  · intro filters
    refine ⟨Filter.nodup_keys_entries _, fun document => ?_⟩
    rw [Filter.document, holds, Filter.entries, entriesHold_mergeEntries, Filter.entriesOfAll_eq_map, List.all_map,
      List.all_eq_true]
    rfl

/-- A conjunction whose parts share a field, with a disjunction, a condition on array elements and a
search for a text with a pattern character in it, has a document that some document satisfies. -/
theorem holds_document_of_shared_field :
    holds
      (Filter.all [.equals "colour" (.text "red"), .compare "colour" .ne .null,
        .any [.membership "size" .isIn [.text "S"], .all []], .element "lines" "sku" .notIn [.text "A-1"],
        .contains "name" "a.b"]).document
      (.object [("name", .text "Aa.bb"), ("colour", .text "red"),
        ("lines", .array [.object [("sku", .text "A-2")]])]) = true :=
  ((holds_document_iff _ (by decide)).1 _).mpr (by decide)

end Listing.FilterDocument
