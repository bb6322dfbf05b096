import Listing.Proofs.Decimals
import Listing.Proofs.Pages
import Listing.Proofs.Paths
import Listing.Proofs.Ranges
import Mathlib.Data.List.TakeDrop
import Mathlib.Data.List.TakeWhile

/-!
# Conditions on integers

An integer in a document is compared with an integer operand, or with the decimals of one, through the doubles
nearest to the two. So the conditions hold as they would for the integers that these doubles stand for: they keep
the order of the integers, and they are exact for integers of at most 53 binary digits, but a larger integer is
not told apart from the others that share its double.
-/

namespace Listing

/-! ### Reading decimals -/

/-- Digits have no letter case. -/
theorem Text.toLower_of_isDigit {c : Char} (h : c.isDigit = true) : c.toLower = c := by
  simp only [Char.isDigit, Bool.and_eq_true, decide_eq_true_eq] at h
  exact dif_neg fun hupper => absurd (UInt32.le_trans hupper.1 h.2) (by decide)

/-- A natural number of 64 bits without an exponent has the nearest double. -/
theorem Double.ofDecimal?_zero (negative : Bool) {n : Nat} (hn : n < naturalBound) :
    ofDecimal? negative n 0 = some (ofNat negative n) := by
  have hwhole : n * tenPow (0 : Int).toNat = n := Nat.mul_one n
  rw [ofDecimal?_eq_nearest? negative hn (by decide), hwhole]
  exact (nearest?_natural negative hn).trans (congrArg some (ofNat_natural negative hn).symm)

namespace Reading

/-- The decimals of a natural number are read without a point or an exponent. -/
theorem decimal?_toDigits (n : Nat) : decimal? (Nat.toDigits 10 n) = some (n, 0) := by
  have hall : ∀ c ∈ Nat.toDigits 10 n, c.isDigit = true := fun _ hc => Text.isDigit_of_mem_toDigits hc
  have hspan : (Nat.toDigits 10 n).span Char.isDigit = (Nat.toDigits 10 n, []) := by
    rw [List.span_eq_takeWhile_dropWhile, List.takeWhile_eq_self_iff.mpr hall, List.dropWhile_eq_nil_iff.mpr hall]
  rw [decimal?, hspan]
  dsimp only
  rw [if_neg fun hnone => Nat.toDigits_ne_nil hnone.1, List.append_nil, Text.digitsValue_toDigits]
  rfl

/-- The decimals of a natural number have no sign. -/
theorem splitSign_toDigits (n : Nat) : splitSign (Nat.toDigits 10 n) = (false, Nat.toDigits 10 n) := by
  have hhead {c : Char} {rest : List Char} (heq : Nat.toDigits 10 n = c :: rest) : c.isDigit = true :=
    Text.isDigit_of_mem_toDigits (heq ▸ List.mem_cons_self)
  rw [splitSign]
  · exact fun rest heq => absurd (hhead heq) (by decide)
  · exact fun rest heq => absurd (hhead heq) (by decide)

/-- Decimals are no word, in whatever letter case. -/
theorem map_toLower_toDigits_ne (n : Nat) {word : List Char} (letter : Char) (hletter : letter ∈ word)
    (hword : letter.isDigit = false) : (Nat.toDigits 10 n).map Char.toLower ≠ word := by
  rintro rfl
  obtain ⟨c, hc, rfl⟩ := List.mem_map.mp hletter
  have hdigit := Text.isDigit_of_mem_toDigits hc
  rw [Text.toLower_of_isDigit hdigit, hdigit] at hword
  contradiction

/-- Decimals with a sign are read as the double nearest to what they denote. -/
theorem ofChars?_of_splitSign {text : List Char} {negative : Bool} {n : Nat}
    (hsign : splitSign text = (negative, Nat.toDigits 10 n)) (hn : n < naturalBound) :
    ofChars? text = some (.finite (Double.ofNat negative n)) := by
  have hinfinity : ¬ ((Nat.toDigits 10 n).map Char.toLower = "inf".toList ∨
      (Nat.toDigits 10 n).map Char.toLower = "infinity".toList) := by
    rw [not_or]
    constructor <;> exact map_toLower_toDigits_ne n 'i' (by decide) (by decide)
  have hnan : (Nat.toDigits 10 n).map Char.toLower ≠ "nan".toList :=
    map_toLower_toDigits_ne n 'n' (by decide) (by decide)
  rw [ofChars?, hsign]
  dsimp only
  rw [if_neg hinfinity, if_neg hnan, decimal?_toDigits, Option.map_some]
  dsimp only
  rw [Double.ofDecimal?_zero negative hn]

end Reading

namespace Number

/-- The decimals of an integer of 64 bits are read as its double. -/
theorem reading?_toString {m : Number} {a : Int} (h : m.integer? = some a) :
    Json.reading? (toString a) = some (.finite m.toDouble) := by
  have hdigit {n : Nat} : ∀ c ∈ Nat.toDigits 10 n, Text.isBlank c = false :=
    fun _ hc => Text.isBlank_of_isDigit (Text.isDigit_of_mem_toDigits hc)
  cases m with
  | natural n =>
    obtain rfl := Option.some.inj h
    have htext : (toString ((n : Nat) : Int)).toList = Nat.toDigits 10 n := Nat.toList_repr
    rw [Json.reading?, htext, Text.trimChars_of_not_blank hdigit]
    exact Reading.ofChars?_of_splitSign (Reading.splitSign_toDigits n) n.isLt
  | negative n =>
    obtain rfl := Option.some.inj h
    have htext : (toString (-((n + 1 : Nat) : Int))).toList = '-' :: Nat.toDigits 10 (n + 1) := by
      show ("-" ++ (n + 1 : Nat).repr).toList = _
      rw [String.toList_append, Nat.toList_repr]
      rfl
    have hblank : ∀ c ∈ '-' :: Nat.toDigits 10 (n + 1), Text.isBlank c = false :=
      List.forall_mem_cons.mpr ⟨by decide, hdigit⟩
    rw [Json.reading?, htext, Text.trimChars_of_not_blank hblank]
    exact Reading.ofChars?_of_splitSign rfl (succ_lt_naturalBound n)
  | double d => contradiction

end Number

/-! ### Conditions -/

namespace Filter

open Listing.Path

/-- Conditions on a path with an operand that hold as they do between one integer and another. -/
structure ComparesAs (document : Json) (path : String) (operand : Json) (x y : Int) : Prop where
  /-- An equality holds when the integers are equal. -/
  equals : (equals path operand).holds document = true ↔ x = y
  /-- To be less than the operand is for the first integer to be less than the second. -/
  lt : (compare path .lt operand).holds document = true ↔ x < y
  /-- To be greater than the operand is for the first integer to be greater than the second. -/
  gt : (compare path .gt operand).holds document = true ↔ y < x

/-- A single value that compares with an operand as two integers do is tested as these integers are. -/
theorem comparesAs_of_single {document value operand : Json} {path : String} (h : operand.IsBound)
    (hvalue : candidates document path = [value]) {x y : Int}
    (horder : value.compareOperand? operand = some (Ord.compare x y)) : ComparesAs document path operand x y := by
  constructor
  · rw [holds_equals_of_single h hvalue horder, beq_iff_eq, Std.LawfulEqOrd.compare_eq_iff_eq]
  · rw [holds_range_of_single hvalue horder (by decide)]
    simp [Comparison.accepts, Int.compare_eq_lt]
  · rw [holds_range_of_single hvalue horder (by decide)]
    simp [Comparison.accepts, Int.compare_eq_gt]

/-- A field with an integer is compared with another integer, as a number or in decimals, and sorted against it as
the integers are that their doubles stand for. Rounding to these keeps the order of integers, and changes none with
at most 53 binary digits, so with such integers all of this is exact. -/
theorem integers_compare_as_nearest {m n : Number} {a b : Int} (hm : m.integer? = some a) (hn : n.integer? = some b)
    {document : Json} {path : String} (hfield : lookup document path = some (.number m)) :
    ComparesAs document path (.number n) (nearestInt a) (nearestInt b) ∧
    ComparesAs document path (.text (toString b)) (nearestInt a) (nearestInt b) ∧
    Json.sortValues (.number m) (.number n) = Ord.compare (nearestInt a) (nearestInt b) ∧
    (a ≤ b → nearestInt a ≤ nearestInt b) ∧
    (a.natAbs ≤ 2 ^ 53 → nearestInt a = a) ∧ (b.natAbs ≤ 2 ^ 53 → nearestInt b = b) := by
  have hvalue : candidates document path = [.number m] := candidates_of_lookup hfield
  have hreading := Number.reading?_toString hn
  have hnumber : (Json.number m).compareOperand? (.number n) = some (Ord.compare (nearestInt a) (nearestInt b)) :=
    congrArg some (Number.compare_key hm hn)
  have htext : (Json.number m).compareOperand? (.text (toString b)) =
      some (Ord.compare (nearestInt a) (nearestInt b)) := by
    rw [← hnumber]
    show (Json.reading? (toString b)).bind (Reading.compare? m.toDouble) = _
    rw [hreading]
    rfl
  have hword {word : String} (hnone : Json.reading? word = none) : toString b ≠ word := by
    intro heq
    rw [heq, hnone] at hreading
    contradiction
  have hnumberBound : (Json.number n).IsBound := trivial
  have htextBound : (Json.text (toString b)).IsBound := ⟨hword (by decide), hword (by decide)⟩
  have hsort : Json.sortValues (.number m) (.number n) = Ord.compare (nearestInt a) (nearestInt b) := by
    rw [← Number.compare_totalKey hm hn]
    exact Ordering.eq_then
  exact ⟨comparesAs_of_single hnumberBound hvalue hnumber, comparesAs_of_single htextBound hvalue htext, hsort,
    nearestInt_mono, nearestInt_of_natAbs_le, nearestInt_of_natAbs_le⟩

/-- The least number of 53 binary digits and the next one below it are told apart. -/
theorem order_numbers_compared :
    let document : Json := .single "order" (.single "number" (.number (.negative 9007199254740990)))
    let below : Int := -9007199254740992
    (compare "order.number" .gt (.number (.negative 9007199254740991))).holds document = true ∧
      (equals "order.number" (.text (toString below))).holds document = false := by
  intro document below
  have hlookup : lookup document "order.number" = some (.number (.negative 9007199254740990)) := rfl
  obtain ⟨hnumber, htext, -, -, hexact, hexactBelow⟩ :=
    integers_compare_as_nearest (a := -9007199254740991) (b := below) (n := .negative 9007199254740991) (by decide)
      (by decide) hlookup
  rw [hexact (by decide), hexactBelow (by decide)] at hnumber htext
  exact ⟨hnumber.gt.mpr (by decide), Bool.eq_false_iff.mpr fun h => absurd (htext.equals.mp h) (by decide)⟩

/-- An identifier of 54 binary digits is found by the one after it, as a number and in decimals, and neither comes
before the other. -/
theorem next_identifier_matches :
    let id : Number := .natural 9007199254740992
    let next : Number := .natural 9007199254740993
    let document : Json := .single "id" (.number id)
    id.integer? = some 9007199254740992 ∧ next.integer? = some 9007199254740993 ∧
      (equals "id" (.number next)).holds document = true ∧
      (equals "id" (.text "9007199254740993")).holds document = true ∧
      (compare "id" .lt (.number next)).holds document = false ∧
      Json.sortValues (.number id) (.number next) = .eq := by
  decide +kernel

end Filter

end Listing
