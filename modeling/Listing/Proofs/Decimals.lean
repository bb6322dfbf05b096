import Listing.Number.Scaling
import Listing.Proofs.NearestDoubles

/-!
# The doubles of decimals

Rounding depends on the quotient only, so a decimal that is scaled step by step has the nearest double as soon as
the steps before the last one are exact. They are for a significand of at most 53 binary digits and for the powers
of ten up to the 22nd, the largest one with so few binary digits behind its zeros: such decimals are read alike in
a JSON text and in a text that is compared with a number.
-/

namespace Listing.Double

/-! ### Rounding a quotient -/

/-- A common factor of numerator and denominator does not change the nearest rank. -/
theorem nearestRank_mul_mul (num den : Nat) {factor : Nat} (h : 0 < factor) :
    nearestRank (num * factor) (den * factor) = nearestRank num den := by
  rw [nearestRank, Nat.mul_div_mul_right _ _ h, Nat.mul_right_comm den, roundHalfEven_mul_mul _ _ h, nearestRank]

/-- A common factor of numerator and denominator does not change the nearest double. -/
theorem nearest?_mul_mul (negative : Bool) (num den : Nat) {factor : Nat} (h : 0 < factor) :
    nearest? negative (num * factor) (den * factor) = nearest? negative num den := by
  have hrank : nearestRank (num * factor * twoPow 1074) (den * factor) = nearestRank (num * twoPow 1074) den := by
    rw [Nat.mul_right_comm, nearestRank_mul_mul _ _ h]
  simp only [nearest?, hrank]

/-- Nothing is nearer to zero than zero. -/
theorem nearest?_zero (negative : Bool) (den : Nat) : nearest? negative 0 den = some ⟨negative, 0, by decide⟩ := by
  have hrank : nearestRank (0 * twoPow 1074) den = 0 := by
    rw [Nat.zero_mul, nearestRank, Nat.zero_div, roundHalfEven, Nat.zero_div, Nat.zero_mod]
    simp
  simp only [nearest?, hrank]
  rfl

/-- A decimal with a significand of 64 bits and a moderate exponent has the double nearest to its value. -/
theorem ofDecimal?_eq_nearest? (negative : Bool) {n : Nat} {exponent : Int} (hn : n < naturalBound)
    (hexponent : exponent.natAbs ≤ 300) :
    ofDecimal? negative n exponent = nearest? negative (n * tenPow exponent.toNat) (tenPow (-exponent).toNat) := by
  rcases Nat.eq_zero_or_pos n with rfl | hpos
  · rw [Nat.zero_mul, nearest?_zero, ofDecimal?, if_pos (.inl rfl)]
  · have hlength : (Nat.toDigits 10 n).length ≤ 20 :=
      (Nat.length_toDigits_le_iff (by decide) (by decide)).mpr (hn.trans (by decide))
    have hsmall : ¬ (n = 0 ∨ exponent + (Nat.toDigits 10 n).length < -330) := by omega
    have hlarge : ¬ (330 : Int) < exponent + (Nat.toDigits 10 n).length := by omega
    rw [ofDecimal?, if_neg hsmall, if_neg hlarge]

/-! ### Scaling -/

/-- The powers of ten up to the 22nd are doubles. -/
theorem units_powerOfTen {places : Nat} (h : places ≤ 22) :
    units (powerOfTen places).rank = tenPow places * twoPow 1074 := by
  have hall : ∀ places ≤ 22, units (powerOfTen places).rank = tenPow places * twoPow 1074 := by decide +kernel
  exact hall places h

section

variable (negative : Bool) {n places : Nat} (hn : n ≤ 2 ^ 53) (hplaces : places ≤ 22)

include hn

/-- A number of at most 53 binary digits is a double. -/
theorem units_ofNat_of_le : units (ofNat negative n).rank = n * twoPow 1074 := by
  rw [units_ofNat negative (hn.trans_lt (by decide)), nearestNat_of_le hn]

include hplaces

/-- The product with an exact power of ten is the double nearest to the exact product. -/
theorem times?_powerOfTen :
    (ofNat negative n).times? (powerOfTen places) = nearest? negative (n * tenPow places) 1 := by
  have hfactor : 0 < twoPow 1074 * twoPow 1074 := Nat.mul_pos (twoPow_pos _) (twoPow_pos _)
  have hscaled := nearest?_mul_mul negative (n * tenPow places) 1 hfactor
  rw [times?, negative_ofNat negative (hn.trans_lt (by decide)), units_ofNat_of_le negative hn,
    units_powerOfTen hplaces, Nat.mul_mul_mul_comm, ← hscaled, Nat.one_mul]

/-- The quotient by an exact power of ten is the double nearest to the exact quotient. -/
theorem over?_powerOfTen :
    (ofNat negative n).over? (powerOfTen places) = nearest? negative n (tenPow places) := by
  rw [over?, negative_ofNat negative (hn.trans_lt (by decide)), units_ofNat_of_le negative hn, units_powerOfTen hplaces]
  exact nearest?_mul_mul negative _ _ (twoPow_pos _)

end

/-- A decimal whose significand has at most 53 binary digits and whose point is moved by at most 22 places has the
nearest double when it is scaled step by step. -/
theorem ofParts?_eq_ofDecimal? (negative : Bool) {n : Nat} {exponent : Int} (hn : n ≤ 2 ^ 53)
    (hexponent : exponent.natAbs ≤ 22) : ofParts? negative n exponent = ofDecimal? negative n exponent := by
  rw [ofDecimal?_eq_nearest? negative (hn.trans_lt (by decide)) (hexponent.trans (by decide))]
  cases exponent with
  | ofNat places =>
    have hplaces : places ≤ 22 := hexponent
    have hone : tenPow (-Int.ofNat places).toNat = 1 := by
      rw [Int.ofNat_eq_natCast, Int.toNat_neg_natCast]
    rw [ofParts?, if_pos (hplaces.trans (by decide)), hone]
    exact times?_powerOfTen negative hn hplaces
  | negSucc places =>
    have hplaces : places + 1 ≤ 22 := hexponent
    have hrounds : places / maxPlaces = 0 := Nat.div_eq_of_lt (show places < 308 by omega)
    have hleft : places % maxPlaces = places := Nat.mod_eq_of_lt (show places < 308 by omega)
    have hwhole : n * tenPow (Int.negSucc places).toNat = n := Nat.mul_one n
    rw [ofParts?, hrounds, hleft, shrink?, over?_powerOfTen negative hn hplaces, hwhole]
    rfl

-- with 57 binary digits the significand is rounded before the point is moved
example : ofParts? false 90071992547409930 (-1) ≠ ofDecimal? false 90071992547409930 (-1) := by
  decide +kernel

end Listing.Double
