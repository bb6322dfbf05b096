import Listing.Page

/-!
# Counts in parameters

A parameter gives a count when its text, without blanks at the ends, is a decimal of a number that is counted. The
digits are ASCII digits, there is at least one, and a plus sign may stand before them. No other text gives a count,
whatever digits or signs of other scripts it has in it.
-/

namespace Listing

namespace Text

/-- A text is a decimal of a number: its ASCII digits, perhaps after a plus sign. -/
def IsDecimal (text : List Char) (n : Nat) : Prop :=
  ∃ digits, (text = digits ∨ text = '+' :: digits) ∧ digits ≠ [] ∧ (∀ c ∈ digits, c.isDigit = true) ∧
    n = Nat.ofDigitChars 10 digits 0

/-- A run of digits denotes the number that they are the digits of. -/
theorem digits?_eq_some_iff {text : List Char} {n : Nat} :
    digits? text = some n ↔ text ≠ [] ∧ (∀ c ∈ text, c.isDigit = true) ∧ n = Nat.ofDigitChars 10 text 0 := by
  rw [digits?, Option.ite_none_right_eq_some, List.all_eq_true, digitsValue, ← Nat.ofDigitChars_eq_foldl, and_assoc,
    Option.some_inj, eq_comm (a := n)]

/-- Digits stay as they are when a plus sign is dropped. -/
theorem dropPlus_of_isDigit {text : List Char} (h : ∀ c ∈ text, c.isDigit = true) : dropPlus text = text := by
  rw [dropPlus]
  intro rest heq
  exact absurd (h '+' (heq ▸ List.mem_cons_self)) (by decide)

/-- A text without a leading plus sign is kept, and from one with it the rest is kept. -/
theorem eq_dropPlus_or (text : List Char) : text = dropPlus text ∨ text = '+' :: dropPlus text := by
  unfold dropPlus
  split
  · exact .inr rfl
  · exact .inl rfl

/-- A count is read from the decimals of the numbers that are counted. -/
theorem count?_eq_some_iff {text : List Char} {n : Nat} : count? text = some n ↔ IsDecimal text n ∧ n ≤ maxCount := by
  rw [count?, Option.filter_eq_some_iff, digits?_eq_some_iff, decide_eq_true_eq]
  refine and_congr_left fun _ => ?_
  constructor
  · rintro ⟨hne, hdigits, hvalue⟩
    exact ⟨dropPlus text, eq_dropPlus_or text, hne, hdigits, hvalue⟩
  · rintro ⟨digits, rfl | rfl, hne, hdigits, hvalue⟩
    · rw [dropPlus_of_isDigit hdigits]
      exact ⟨hne, hdigits, hvalue⟩
    · exact ⟨hne, hdigits, hvalue⟩

end Text

namespace Pagination

/-- A text gives a count when it is a decimal of it, blanks at its ends aside. -/
def Gives (text : String) (n : Nat) : Prop := Text.IsDecimal (Text.trimChars text.toList) n ∧ n ≤ Text.maxCount

/-- The count of a text is the one that it gives. -/
theorem count?_eq_some_iff {text : String} {n : Nat} : count? text = some n ↔ Gives text n := Text.count?_eq_some_iff

/-- A text without a count gives none. -/
theorem count?_eq_none_iff {text : String} : count? text = none ↔ ∀ n, ¬ Gives text n := by
  simp only [Option.eq_none_iff_forall_ne_some, ne_eq, count?_eq_some_iff]

/-- A text has no positive count when it gives no count but zero. -/
theorem positive?_eq_none_iff {text : String} : positive? text = none ↔ ∀ n, 0 < n → ¬ Gives text n := by
  simp only [positive?, Option.filter_eq_none_iff, count?_eq_some_iff, decide_eq_true_eq]
  exact forall_congr' fun n => ⟨fun h hpos hgives => h hgives hpos, fun h hgives hpos => h hpos hgives⟩

end Pagination

end Listing
