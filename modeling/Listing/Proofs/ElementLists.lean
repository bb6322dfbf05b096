import Listing.Filter.Holds
import Listing.Filter.Parameters
import Listing.Proofs.Candidates

/-!
# Lists on a field of array elements

A list of strings can be asked for on a field of the elements of an array, which are then tested one by
one, or on the dotted path of the field, where the values in all elements are tested together. Both walks
open the elements in the same way, except that an element without the field counts as having the null
value there, which no string equals. So both ask for the same documents when the field has to be inside
the list, and differ when it has to be outside: one element outside is enough for the first test, while the
second one allows no value inside.
-/

namespace Listing

/-- Two keys without points, neither of them empty, are the path of a field inside array elements. -/
theorem ElementPath.parse_append_point {array field : String} (harray : array ≠ "" ∧ '.' ∉ array.toList)
    (hfield : field ≠ "" ∧ '.' ∉ field.toList) : parse (array ++ "." ++ field) = .ok ⟨array, field⟩ := by
  have hsplit : Text.split '.' (array ++ "." ++ field) = [array, field] :=
    Path.segments_append_point harray.2 hfield.2
  simp [parse, hsplit, harray.1, hfield.1]

namespace Filter

open Listing.Path

/-- The test of array elements that two keys without points ask for, neither of them empty. -/
theorem elementCondition_append_point {array field : String} (harray : array ≠ "" ∧ '.' ∉ array.toList)
    (hfield : field ≠ "" ∧ '.' ∉ field.toList) (kind : Membership) (list : String) :
    elementCondition kind (array ++ "." ++ field, list) = .ok (element array field kind (commaOperands list)) := by
  rw [elementCondition, ElementPath.parse_append_point harray hfield]
  rfl

/-- Whether a value equals one of some strings. -/
def isAmong (strings : List String) (value : Json) : Bool :=
  strings.any fun s => value.equalsOperand (.text s)

/-- The null value equals no string. -/
theorem isAmong_null (strings : List String) : isAmong strings .null = false := by
  simp [isAmong, Json.equalsOperand, Json.same]

/-- Some value is inside a list of strings when one of the values equals one of them. -/
theorem membershipHolds_isIn (values : List Json) (strings : List String) :
    membershipHolds values .isIn (strings.map .text) = values.any (isAmong strings) := by
  rw [membershipHolds]
  exact List.any_congr rfl fun value => List.any_map

/-- A negated membership test is the negation of the positive one. -/
theorem membershipHolds_notIn (values operands : List Json) :
    membershipHolds values .notIn operands = !membershipHolds values .isIn operands := rfl

section

variable {document : Json} {array field : String} {elements : List Json}

/-- The candidates of a dotted path are inside a list of strings when those of the field in some element are. -/
theorem holds_isIn_dotted (harray : '.' ∉ array.toList) (hfield : '.' ∉ field.toList)
    (h : document.field? array = some (.array elements)) (strings : List String) :
    (membership (array ++ "." ++ field) .isIn (strings.map .text)).holds document =
      elements.any fun inner => membershipHolds (candidates inner field) .isIn (strings.map .text) := by
  have hpath : (segments (array ++ "." ++ field)).take maxDepth = [array, field] := by
    rw [segments_append_point harray hfield]
    rfl
  have hinner : (segments field).take maxDepth = [field] := by
    rw [segments_of_not_mem hfield]
    rfl
  calc (membership (array ++ "." ++ field) .isIn (strings.map .text)).holds document
      = (reach [array, field] document).any (isAmong strings) := by
        rw [holds, membershipHolds_isIn, any_candidates (isAmong_null strings), hpath]
    _ = elements.any fun inner => (reach [field] inner).any (isAmong strings) := by
        rw [reach_of_field? h, reach_array, List.any_flatMap]
    _ = elements.any fun inner => membershipHolds (candidates inner field) .isIn (strings.map .text) := by
        refine List.any_congr rfl fun inner => ?_
        rw [membershipHolds_isIn, any_candidates (isAmong_null strings), hinner]

/-- A test of array elements holds when some element passes it. -/
theorem holds_element (hkey : array ≠ "") (harray : '.' ∉ array.toList)
    (h : document.field? array = some (.array elements)) (field : String) (kind : Membership) (operands : List Json) :
    (element array field kind operands).holds document =
      elements.any fun inner => membershipHolds (candidates inner field) kind operands := by
  rw [holds, lookup_of_not_mem hkey harray, h]

/-- A test of array elements fails where there is no array. -/
theorem holds_element_of_no_array (hkey : array ≠ "") (harray : '.' ∉ array.toList)
    (h : ∀ elements, document.field? array ≠ some (.array elements)) (field : String) (kind : Membership)
    (operands : List Json) : (element array field kind operands).holds document = false := by
  rw [holds, lookup_of_not_mem hkey harray]
  split
  · next elements helements => exact absurd helements (h elements)
  · rfl

end

/-- Parameters for a field inside array elements ask for tests of the elements. These agree with the tests of the
dotted path of the field when it has to be in a list of strings. The field has to be outside the list in some element
only, so that test fails when every element has a value in the list, and in an array that is not empty it follows from
the test that allows no value in the list anywhere. Where there is no array neither test of elements holds. -/
theorem element_lists_agree_with_dotted_lists {array field : String} (harray : array ≠ "" ∧ '.' ∉ array.toList)
    (hfield : field ≠ "" ∧ '.' ∉ field.toList) (document : Json) (strings : List String) :
    let path := array ++ "." ++ field
    let operands := strings.map Json.text
    (∀ kind list, elementCondition kind (path, list) = .ok (element array field kind (commaOperands list))) ∧
    (∀ elements, document.field? array = some (.array elements) →
      ((element array field .isIn operands).holds document = true ↔
        (membership path .isIn operands).holds document = true) ∧
      ((element array field .notIn operands).holds document = false ↔
        ∀ inner ∈ elements, ∃ value ∈ candidates inner field, ∃ s ∈ strings, value.equalsOperand (.text s) = true) ∧
      (elements ≠ [] → (membership path .notIn operands).holds document = true →
        (element array field .notIn operands).holds document = true)) ∧
    ((∀ elements, document.field? array ≠ some (.array elements)) →
      ∀ kind, (element array field kind operands).holds document = false) := by
  intro path operands
  refine ⟨fun kind list => elementCondition_append_point harray hfield kind list, fun elements helements => ?_,
    fun hnone kind => holds_element_of_no_array harray.1 harray.2 hnone field kind operands⟩
  have helement := holds_element harray.1 harray.2 helements field
  have hdotted := holds_isIn_dotted harray.2 hfield.2 helements strings
  refine ⟨?_, ?_, fun hnonempty hnotIn => ?_⟩
  · rw [helement, hdotted]
  · rw [helement, List.any_eq_false]
    refine forall₂_congr fun inner _ => ?_
    rw [membershipHolds_notIn, Bool.not_eq_true, Bool.not_eq_false', membershipHolds_isIn, List.any_eq_true]
    simp only [isAmong, List.any_eq_true]
  · -- no element has a value in the list, so the first one has none
    have hout : (membership path .isIn operands).holds document = false := by
      rw [holds, membershipHolds_notIn, Bool.not_eq_true'] at hnotIn
      rw [holds, hnotIn]
    obtain ⟨inner, hinner⟩ := List.exists_mem_of_ne_nil elements hnonempty
    rw [hdotted, List.any_eq_false] at hout
    rw [helement, List.any_eq_true]
    have hinnerOut : membershipHolds (candidates inner field) .isIn operands = false :=
      Bool.eq_false_iff.mpr (hout inner hinner)
    exact ⟨inner, hinner, by rw [membershipHolds_notIn, hinnerOut, Bool.not_false]⟩

/-- Among items one of which is in a nested list, some have a stock number in a list and others have none. -/
theorem stock_lists_of_mixed_items :
    let sku (value : Json) : Json := .single "sku" value
    let nested : Json := .array [.array [sku (.array [.text "B2"])]]
    let document : Json := .single "items" (.array [sku (.text "A1"), .null, nested])
    let operands := ["B2", "C3"].map Json.text
    (element "items" "sku" .isIn operands).holds document = true ∧
      (element "items" "sku" .notIn operands).holds document = true ∧
      (element "colours" "sku" .notIn operands).holds document = false := by
  intro sku nested document operands
  have hitems : "items" ≠ "" ∧ '.' ∉ "items".toList := by decide
  have hcolours : "colours" ≠ "" ∧ '.' ∉ "colours".toList := by decide
  have hsku : "sku" ≠ "" ∧ '.' ∉ "sku".toList := by decide
  obtain ⟨-, harray, -⟩ := element_lists_agree_with_dotted_lists hitems hsku document ["B2", "C3"]
  obtain ⟨-, -, hnoArray⟩ := element_lists_agree_with_dotted_lists hcolours hsku document ["B2", "C3"]
  obtain ⟨hisIn, hnotIn, -⟩ := harray _ rfl
  have hmissing : document.field? "colours" = none := rfl
  refine ⟨hisIn.mpr (by decide), ?_, hnoArray (by simp [hmissing]) .notIn⟩
  rw [← Bool.not_eq_false, hnotIn]
  -- the null value in the list has no stock number
  intro hall
  obtain ⟨value, hvalue, s, -, hequal⟩ := hall .null (by simp)
  obtain rfl : value = .null := List.mem_singleton.mp hvalue
  exact absurd hequal (by simp [Json.equalsOperand, Json.same])

end Filter

end Listing
