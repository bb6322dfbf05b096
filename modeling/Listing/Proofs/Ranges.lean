import Listing.Proofs.Traces
import Mathlib.Data.List.Basic

/-!
# Ranges and equality

Equality with an operand and comparison with it follow rules of their own: equality starts from values that
are the same, and only it reads a string as a truth value. The rules fit together for every operand that is a
number, a truth value or a string that spells no truth value: a value equals such an operand exactly when it
compares as equal with it. So a range that includes its end is the range without it together with the
equality, over all the values that a condition is tested against.
-/

namespace Listing

/-- Numbers that are the same have the same place in the order of doubles. -/
theorem Number.key_toDouble_of_same {m n : Number} (h : m.same n = true) : m.toDouble.key = n.toDouble.key := by
  cases m <;> cases n
  case natural.natural m n => rw [of_decide_eq_true h]
  case negative.negative m n => rw [of_decide_eq_true h]
  case double.double d e => exact of_decide_eq_true h
  all_goals contradiction

namespace Json

/-- Whether an operand can bound a range: numbers, truth values, and strings other than those that spell
truth values. -/
def IsBound : Json → Prop
  | number _ => True
  | bool _ => True
  | text s => s ≠ "true" ∧ s ≠ "false"
  | _ => False

/-- A value equals a number when it compares as equal with it. -/
theorem equalsOperand_number_iff (value : Json) (n : Number) :
    value.equalsOperand (number n) = true ↔ value.compareOperand? (number n) = some .eq := by
  cases value with
  | number m =>
    have hsame : m.same n = true → m.toDouble.key = n.toDouble.key := Number.key_toDouble_of_same
    simpa [equalsOperand, same, compareOperand?, Std.LawfulEqOrd.compare_eq_iff_eq] using hsame
  | _ => simp [equalsOperand, same, compareOperand?]

/-- A value equals a truth value when it compares as equal with it. -/
theorem equalsOperand_bool_iff (value : Json) (b : Bool) :
    value.equalsOperand (bool b) = true ↔ value.compareOperand? (bool b) = some .eq := by
  cases value with
  | bool a => simp [equalsOperand, same, compareOperand?]
  | _ => simp [equalsOperand, same, compareOperand?]

/-- A value equals a string that spells no truth value when it compares as equal with it. -/
theorem equalsOperand_text_iff (value : Json) {s : String} (h : s ≠ "true" ∧ s ≠ "false") :
    value.equalsOperand (text s) = true ↔ value.compareOperand? (text s) = some .eq := by
  cases value with
  | number m => simp [equalsOperand, same, compareOperand?]
  | text a => simp [equalsOperand, same, compareOperand?]
  | bool a => cases a <;> simp [equalsOperand, same, compareOperand?, h]
  | _ => simp [equalsOperand, same, compareOperand?]

/-- A value equals the bound of a range when it compares as equal with it. -/
theorem equalsOperand_iff_of_isBound {operand : Json} (h : operand.IsBound) (value : Json) :
    value.equalsOperand operand = true ↔ value.compareOperand? operand = some .eq := by
  cases operand with
  | number n => exact equalsOperand_number_iff value n
  | bool b => exact equalsOperand_bool_iff value b
  | text s => exact equalsOperand_text_iff value h
  | _ => exact h.elim

end Json

namespace Filter

open Listing.Path

variable {operand : Json} {path : String} {document : Json}

/-- A range that includes its end is the range without it together with the equality, when a comparison that it
accepts is one that the range without its end accepts or says that the two are equal. -/
theorem holds_range_iff (h : operand.IsBound) {op strict : Comparison} (hop : op ≠ .ne) (hstrict : strict ≠ .ne)
    (haccepts : ∀ order, op.accepts order = (strict.accepts order || order == .eq)) :
    (compare path op operand).holds document = true ↔
      (compare path strict operand).holds document = true ∨ (equals path operand).holds document = true := by
  have htests := testsValues_candidates path document
  rw [htests.range op hop, htests.range strict hstrict, htests.equals, ← exists_or]
  refine exists_congr fun value => ?_
  rw [← and_or_left, Json.equalsOperand_iff_of_isBound h]
  refine and_congr_right fun _ => ?_
  cases value.compareOperand? operand with
  | none => simp
  | some order => simp [haccepts]

/-- When a single value is tested, a range holds if it accepts how the value compares with the operand. -/
theorem holds_range_of_single {value : Json} (hvalue : candidates document path = [value]) {order : Ordering}
    (horder : value.compareOperand? operand = some order) {op : Comparison} (hop : op ≠ .ne) :
    (compare path op operand).holds document = op.accepts order := by
  rw [Bool.eq_iff_iff, (testsValues_candidates path document).range op hop, hvalue]
  simp [horder]

/-- When a single value is tested, an equality holds if the value compares as equal with the operand. -/
theorem holds_equals_of_single (h : operand.IsBound) {value : Json} (hvalue : candidates document path = [value])
    {order : Ordering} (horder : value.compareOperand? operand = some order) :
    (equals path operand).holds document = (order == .eq) := by
  rw [Bool.eq_iff_iff, (testsValues_candidates path document).equals, hvalue]
  simp [Json.equalsOperand_iff_of_isBound h, horder]

/-- Ranges are made of their parts. To be at least an operand is to be greater or equal to it, to be at most the
operand is to be less or equal, and to differ from it is not to be equal; and when a single value is tested that
can be compared with the operand, exactly one of less, equal and greater holds. -/
theorem ranges_made_of_parts (h : operand.IsBound) (document : Json) (path : String) :
    ((compare path .gte operand).holds document = true ↔
      (compare path .gt operand).holds document = true ∨ (equals path operand).holds document = true) ∧
    ((compare path .lte operand).holds document = true ↔
      (compare path .lt operand).holds document = true ∨ (equals path operand).holds document = true) ∧
    ((compare path .ne operand).holds document = true ↔ ¬ (equals path operand).holds document = true) ∧
    ∀ value, candidates document path = [value] → (value.compareOperand? operand).isSome →
      [(compare path .lt operand).holds document, (equals path operand).holds document,
        (compare path .gt operand).holds document].count true = 1 := by
  refine ⟨holds_range_iff h (by decide) (by decide) (by decide),
    holds_range_iff h (by decide) (by decide) (by decide), ?_, fun value hvalue hsome => ?_⟩
  · have htests := testsValues_candidates path document
    rw [htests.ne, htests.equals]
  · obtain ⟨order, horder⟩ := Option.isSome_iff_exists.mp hsome
    rw [holds_range_of_single hvalue horder (by decide), holds_range_of_single hvalue horder (by decide),
      holds_equals_of_single h hvalue horder]
    cases order <;> rfl

/-- Among several prices one equals an operand that is a string; the price of a single article is equal to it as
well, and neither below nor above. -/
theorem prices_of_two :
    let two : Json := .number (.natural 2)
    let document : Json := .object [("prices", .array [.number (.natural 3), .text "two", two]), ("price", two)]
    let operand : Json := .text " 2.0"
    operand.IsBound ∧ (compare "prices" .gte operand).holds document = true ∧
      (compare "prices" .lte operand).holds document = true ∧
      (compare "prices" .ne operand).holds document = false ∧
      [(compare "price" .lt operand).holds document, (equals "price" operand).holds document,
        (compare "price" .gt operand).holds document].count true = 1 := by
  intro two document operand
  have hbound : operand.IsBound := ⟨by decide, by decide⟩
  obtain ⟨hgte, hlte, hne, -⟩ := ranges_made_of_parts hbound document "prices"
  obtain ⟨-, -, -, hsingle⟩ := ranges_made_of_parts hbound document "price"
  have hequal : (equals "prices" operand).holds document = true := by decide +kernel
  refine ⟨hbound, hgte.mpr (.inr hequal), hlte.mpr (.inr hequal), ?_, hsingle two rfl (by decide +kernel)⟩
  exact Bool.eq_false_iff.mpr fun h => hne.mp h hequal

end Filter

end Listing
