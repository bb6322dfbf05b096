import Listing.Json.Basic
import Mathlib.Algebra.Order.Ring.Int
import Mathlib.Order.Monotone.Basic
import Mathlib.Tactic.Ring

/-!
# The doubles nearest to integers

The rank of a double is its place in the order of magnitudes, and not a magnitude itself. The magnitudes of the
ranks increase, so doubles are ordered as the numbers that they stand for. The double of an integer stands for the
nearest multiple of a power of two, the spacing of doubles around that integer, which divides the integer as long
as it has at most 53 binary digits.
-/

namespace Listing

namespace Double

/-! ### Rounding -/

/-- Rounding goes down by at most half the denominator, or up by at most half of it. -/
theorem roundHalfEven_cases (num den : Nat) :
    roundHalfEven num den = num / den ∧ 2 * (num % den) ≤ den ∨
      roundHalfEven num den = num / den + 1 ∧ den ≤ 2 * (num % den) := by
  simp only [roundHalfEven]
  split
  · omega
  · split <;> omega

/-- A common factor of numerator and denominator does not change how they are rounded. -/
theorem roundHalfEven_mul_mul (num den : Nat) {factor : Nat} (h : 0 < factor) :
    roundHalfEven (num * factor) (den * factor) = roundHalfEven num den := by
  have hlt (a b : Nat) : a * factor < b * factor ↔ a < b := Nat.mul_lt_mul_right h
  simp only [roundHalfEven, Nat.mul_div_mul_right _ _ h, Nat.mul_mod_mul_right, ← Nat.mul_assoc, hlt]

/-- Larger numbers are not rounded to smaller ones. -/
theorem roundHalfEven_mono (den : Nat) : Monotone (roundHalfEven · den) := by
  intro num other hle
  have hnum := roundHalfEven_cases num den
  have hother := roundHalfEven_cases other den
  rcases (Nat.div_le_div_right hle : num / den ≤ other / den).lt_or_eq with hlt | heq
  · show roundHalfEven num den ≤ roundHalfEven other den
    omega
  · -- with one quotient the larger number has the larger remainder
    have hdiv := Nat.div_add_mod num den
    have hdiv' := Nat.div_add_mod other den
    rw [← heq] at hdiv'
    have hmod : num % den ≤ other % den := by omega
    simp only [roundHalfEven, ← heq]
    grind

/-! ### Powers of two -/

/-- Powers of two are positive. -/
theorem twoPow_pos (exponent : Nat) : 0 < twoPow exponent := Nat.two_pow_pos exponent

/-- Exponents of two are added by multiplication. -/
theorem twoPow_add (exponent other : Nat) : twoPow (exponent + other) = twoPow exponent * twoPow other :=
  Nat.pow_add 2 exponent other

/-- The next power of two is twice as large. -/
theorem twoPow_succ (exponent : Nat) : twoPow (exponent + 1) = 2 * twoPow exponent := Nat.pow_succ'

/-- A number is no smaller than the power of its leading binary digit. -/
theorem twoPow_log2_le {n : Nat} (hn : n ≠ 0) : twoPow n.log2 ≤ n := Nat.log2_self_le hn

/-- A number is less than the power behind its leading binary digit. -/
theorem lt_twoPow_log2 (n : Nat) : n < twoPow (n.log2 + 1) := Nat.lt_log2_self

/-! ### Magnitudes -/

/-- A rank that is made of a scale and a significand is taken apart again. -/
theorem scale_significand_add (scale part : Nat) (h : part < binade) :
    Double.scale ((scale + 1) * binade + part) = scale ∧ significand ((scale + 1) * binade + part) = binade + part := by
  have hpos : 0 < binade := by decide
  have hdiv : ((scale + 1) * binade + part) / binade = scale + 1 := by
    rw [Nat.add_comm, Nat.add_mul_div_right _ _ hpos, Nat.div_eq_of_lt h, Nat.zero_add]
  have hmod : ((scale + 1) * binade + part) % binade = part := by
    rw [Nat.mul_add_mod_self_right, Nat.mod_eq_of_lt h]
  have hlarge : ¬ (scale + 1) * binade + part < binade := by
    rw [Nat.add_one_mul]
    omega
  rw [Double.scale, hdiv, significand, if_neg hlarge, hmod]
  exact ⟨rfl, rfl⟩

/-- The magnitude of a rank that is made of a scale and a significand. -/
theorem units_scale_add (scale : Nat) {significand : Nat} (hlow : binade ≤ significand)
    (hhigh : significand ≤ 2 * binade) : units (scale * binade + significand) = significand * twoPow scale := by
  rcases hhigh.lt_or_eq with hlt | rfl
  · have hrank : scale * binade + significand = (scale + 1) * binade + (significand - binade) := by
      rw [Nat.add_one_mul]
      omega
    obtain ⟨hscale, hsignificand⟩ := scale_significand_add scale (significand - binade) (by omega)
    rw [hrank, units, hscale, hsignificand, Nat.add_sub_cancel' hlow]
  · -- twice the least significand is the least significand on the next scale
    have hrank : scale * binade + 2 * binade = (scale + 1 + 1) * binade + 0 := by ring
    obtain ⟨hscale, hsignificand⟩ := scale_significand_add (scale + 1) 0 (by decide)
    rw [hrank, units, hscale, hsignificand]
    rw [twoPow_succ]
    ring

/-- The first ranks are magnitudes themselves. -/
theorem units_of_lt {rank : Nat} (h : rank < binade) : units rank = rank := by
  have hscale : rank / binade = 0 := Nat.div_eq_of_lt h
  rw [units, significand, if_pos h, scale, hscale]
  exact Nat.mul_one rank

/-- The least rank is no magnitude at all. -/
theorem units_zero : units 0 = 0 := units_of_lt (by decide)

/-- Magnitudes increase with the rank. -/
theorem units_strictMono : StrictMono units := by
  refine strictMono_nat_of_lt_succ fun rank => ?_
  by_cases h : rank < binade
  · rw [units_of_lt h]
    by_cases hnext : rank + 1 < binade
    · rw [units_of_lt hnext]
      exact Nat.lt_succ_self rank
    · have hone : units (0 * binade + (rank + 1)) = (rank + 1) * twoPow 0 :=
        units_scale_add 0 (by omega) (by omega)
      rw [Nat.zero_mul, Nat.zero_add] at hone
      rw [hone]
      exact (Nat.lt_succ_self rank).trans_eq (Nat.mul_one _).symm
  · -- the next rank has the next significand on the same scale
    have hmod : rank % binade < binade := Nat.mod_lt rank (by decide)
    have hdiv : 1 ≤ rank / binade := (Nat.one_le_div_iff (by decide)).mpr (Nat.not_lt.mp h)
    have hrank : rank = (rank / binade - 1) * binade + (binade + rank % binade) := by
      rw [← Nat.add_assoc, ← Nat.add_one_mul, Nat.sub_add_cancel hdiv, Nat.div_add_mod']
    rw [hrank, Nat.add_assoc, units_scale_add _ (by omega) (by omega), units_scale_add _ (by omega) (by omega)]
    exact Nat.mul_lt_mul_of_pos_right (Nat.lt_succ_self _) (twoPow_pos _)

/-! ### Natural numbers -/

/-- How far apart the doubles around a natural number are, where they are no closer than natural numbers. -/
def spacing (n : Nat) : Nat := twoPow (n.log2 - 52)

/-- The multiple of its spacing nearest to a natural number, a tie going to the even multiple. -/
def nearestNat (n : Nat) : Nat := roundHalfEven n (spacing n) * spacing n

/-- A natural number that is a multiple of its spacing is not rounded. -/
theorem nearestNat_of_dvd {n : Nat} (h : spacing n ∣ n) : nearestNat n = n := by
  obtain ⟨multiple, hmultiple⟩ := h
  have hround : roundHalfEven (multiple * spacing n) (spacing n) = multiple :=
    roundHalfEven_mul_left multiple (spacing n) (twoPow_pos _)
  rw [Nat.mul_comm, ← hmultiple] at hround
  rw [nearestNat, hround, Nat.mul_comm, ← hmultiple]

/-- A natural number with at most 53 binary digits, or one more than that, is not rounded. -/
theorem nearestNat_of_le {n : Nat} (h : n ≤ 2 * binade) : nearestNat n = n := by
  apply nearestNat_of_dvd
  rcases h.lt_or_eq with hlt | rfl
  · have hlog : n.log2 - 52 = 0 := by
      rcases Nat.eq_zero_or_pos n with rfl | hpos
      · rfl
      · have hlog := (Nat.log2_lt hpos.ne').mpr (show n < 2 ^ 53 from hlt)
        omega
    rw [spacing, hlog]
    exact Nat.one_dvd n
  · exact ⟨binade, by decide +kernel⟩

/-- The significand of a natural number on its scale is the multiple of its spacing that is nearest to it. -/
theorem significand_mul_eq (n k : Nat) :
    roundHalfEven (n * twoPow (52 + k)) (twoPow (n.log2 + k)) * twoPow (n.log2 + k) =
      nearestNat n * twoPow (52 + k) := by
  rcases Nat.le_total n.log2 52 with hlog | hlog
  · -- with few digits there is nothing to round
    obtain ⟨zeros, hzeros⟩ := Nat.exists_eq_add_of_le hlog
    have hshift : n * twoPow (52 + k) = n * twoPow zeros * twoPow (n.log2 + k) := by
      rw [Nat.mul_assoc, ← twoPow_add, hzeros]
      congr 2
      omega
    have hspacing : spacing n = 1 := by
      rw [spacing, Nat.sub_eq_zero_of_le hlog]
    rw [hshift, roundHalfEven_mul_left _ _ (twoPow_pos _), nearestNat_of_dvd (hspacing ▸ Nat.one_dvd n)]
    exact hshift.symm
  · have hscale : twoPow (n.log2 + k) = spacing n * twoPow (52 + k) := by
      rw [spacing, ← twoPow_add]
      congr 1
      omega
    rw [hscale, roundHalfEven_mul_mul _ _ (twoPow_pos _), nearestNat, Nat.mul_assoc]

section

variable {n : Nat} (hn : n ≠ 0) (k : Nat)

include hn

/-- A number with zeros behind its binary digits has so many binary digits more. -/
theorem log2_mul_twoPow : (n * twoPow k).log2 = n.log2 + k := by
  refine (Nat.log2_eq_iff (Nat.mul_ne_zero hn (twoPow_pos k).ne')).mpr ⟨?_, ?_⟩
  · show twoPow (n.log2 + k) ≤ n * twoPow k
    rw [twoPow_add]
    exact Nat.mul_le_mul_right _ (twoPow_log2_le hn)
  · show n * twoPow k < twoPow (n.log2 + k + 1)
    rw [Nat.add_right_comm, twoPow_add]
    exact Nat.mul_lt_mul_of_pos_right (lt_twoPow_log2 n) (twoPow_pos k)

/-- The leading 53 binary digits of a natural number are rounded to a significand. -/
theorem significand_bounds :
    binade ≤ roundHalfEven (n * twoPow (52 + k)) (twoPow (n.log2 + k)) ∧
      roundHalfEven (n * twoPow (52 + k)) (twoPow (n.log2 + k)) ≤ 2 * binade := by
  have hbinade : twoPow 52 = binade := rfl
  have hlow : binade ≤ n * twoPow (52 + k) / twoPow (n.log2 + k) := by
    rw [Nat.le_div_iff_mul_le (twoPow_pos _)]
    calc binade * twoPow (n.log2 + k) = twoPow n.log2 * twoPow (52 + k) := by
          rw [twoPow_add, twoPow_add, hbinade, Nat.mul_left_comm]
      _ ≤ n * twoPow (52 + k) := Nat.mul_le_mul_right _ (twoPow_log2_le hn)
  have hhigh : n * twoPow (52 + k) / twoPow (n.log2 + k) < 2 * binade := by
    rw [Nat.div_lt_iff_lt_mul (twoPow_pos _)]
    calc n * twoPow (52 + k) < twoPow (n.log2 + 1) * twoPow (52 + k) :=
          Nat.mul_lt_mul_of_pos_right (lt_twoPow_log2 n) (twoPow_pos _)
      _ = 2 * binade * twoPow (n.log2 + k) := by
          rw [twoPow_succ, twoPow_add, twoPow_add, hbinade]
          ring
  rcases roundHalfEven_cases (n * twoPow (52 + k)) (twoPow (n.log2 + k)) with ⟨hround, -⟩ | ⟨hround, -⟩ <;> omega

/-- The double of a natural number has the scale of its leading binary digit. -/
theorem nearestRank_eq :
    nearestRank (n * twoPow (52 + k)) 1 =
      (n.log2 + k) * binade + roundHalfEven (n * twoPow (52 + k)) (twoPow (n.log2 + k)) := by
  have hscale : (n * twoPow (52 + k) / 1).log2 - 52 = n.log2 + k := by
    rw [Nat.div_one, log2_mul_twoPow hn]
    omega
  rw [nearestRank, hscale, Nat.one_mul]

end

/-- The double of a natural number stands for the multiple of its spacing that is nearest to it. -/
theorem units_nearestRank (n : Nat) {exponent : Nat} (hexponent : 52 ≤ exponent) :
    units (nearestRank (n * twoPow exponent) 1) = nearestNat n * twoPow exponent := by
  obtain ⟨k, rfl⟩ := Nat.exists_eq_add_of_le hexponent
  rcases Nat.eq_zero_or_pos n with rfl | hpos
  · have hrank : nearestRank 0 1 = 0 := rfl
    rw [nearestNat_of_le (Nat.zero_le _), Nat.zero_mul, hrank, units_zero]
  · obtain ⟨hlow, hhigh⟩ := significand_bounds hpos.ne' k
    rw [nearestRank_eq hpos.ne', units_scale_add _ hlow hhigh, significand_mul_eq]

/-- Zero is not rounded. -/
theorem nearestNat_zero : nearestNat 0 = 0 := nearestNat_of_le (Nat.zero_le _)

/-- Larger natural numbers are not rounded to smaller ones. -/
theorem nearestNat_mono : Monotone nearestNat := by
  intro m n hle
  rcases Nat.eq_zero_or_pos m with rfl | hm
  · rw [nearestNat_zero]
    exact Nat.zero_le _
  have hn : 0 < n := hm.trans_le hle
  have hlog : m.log2 ≤ n.log2 := (Nat.le_log2 hn.ne').mpr ((twoPow_log2_le hm.ne').trans hle)
  have hrank : nearestRank (m * twoPow 52) 1 ≤ nearestRank (n * twoPow 52) 1 := by
    rw [nearestRank_eq hm.ne' 0, nearestRank_eq hn.ne' 0]
    rcases hlog.lt_or_eq with hlt | heq
    · -- a number with more digits has the larger rank whatever its significand is
      have hmsig := (significand_bounds hm.ne' 0).2
      have hnsig := (significand_bounds hn.ne' 0).1
      have hscale : (m.log2 + 0) * binade + binade ≤ (n.log2 + 0) * binade := by
        rw [← Nat.add_one_mul]
        exact Nat.mul_le_mul_right binade hlt
      omega
    · rw [heq]
      exact Nat.add_le_add_left (roundHalfEven_mono _ (Nat.mul_le_mul_right _ hle)) _
  have hunits := units_strictMono.monotone hrank
  rw [units_nearestRank m le_rfl, units_nearestRank n le_rfl] at hunits
  exact Nat.le_of_mul_le_mul_right hunits (twoPow_pos 52)

/-- The double of a natural number of 64 bits is finite. -/
theorem nearestRank_lt {n : Nat} (h : n < naturalBound) : nearestRank (n * twoPow 1074) 1 < rankBound := by
  rcases Nat.eq_zero_or_pos n with rfl | hpos
  · rw [Nat.zero_mul]
    decide
  have hlog : n.log2 ≤ 63 := Nat.le_of_lt_succ ((Nat.log2_lt hpos.ne').mpr h)
  have hexponent : 1074 = 52 + 1022 := rfl
  rw [hexponent, nearestRank_eq hpos.ne']
  calc (n.log2 + 1022) * binade + roundHalfEven (n * twoPow (52 + 1022)) (twoPow (n.log2 + 1022))
      ≤ (63 + 1022) * binade + 2 * binade :=
        Nat.add_le_add (Nat.mul_le_mul_right binade (Nat.add_le_add_right hlog 1022))
          (significand_bounds hpos.ne' 1022).2
    _ < rankBound := by decide

/-- A natural number of 64 bits has a finite double nearest to it. -/
theorem nearest?_natural (negative : Bool) {n : Nat} (h : n < naturalBound) :
    nearest? negative n 1 = some ⟨negative, nearestRank (n * twoPow 1074) 1, nearestRank_lt h⟩ :=
  dif_pos (nearestRank_lt h)

/-- The double of a natural number of 64 bits is the nearest one. -/
theorem ofNat_natural (negative : Bool) {n : Nat} (h : n < naturalBound) :
    ofNat negative n = ⟨negative, nearestRank (n * twoPow 1074) 1, nearestRank_lt h⟩ := by
  rw [ofNat, nearest?_natural negative h, Option.getD_some]

/-- The magnitude of the double of a natural number of 64 bits. -/
theorem units_ofNat (negative : Bool) {n : Nat} (h : n < naturalBound) :
    units (ofNat negative n).rank = nearestNat n * twoPow 1074 := by
  rw [ofNat_natural negative h]
  exact units_nearestRank n (by decide)

/-- The sign of the double of a natural number of 64 bits is the given one. -/
theorem negative_ofNat (negative : Bool) {n : Nat} (h : n < naturalBound) : (ofNat negative n).negative = negative := by
  rw [ofNat_natural negative h]

/-- The place of the double of a natural number of 64 bits among the doubles. -/
theorem key_ofNat (negative : Bool) {n : Nat} (h : n < naturalBound) :
    (ofNat negative n).key = if negative then -((ofNat negative n).rank : Int) else (ofNat negative n).rank := by
  rw [key, negative_ofNat negative h]

/-! ### Integers -/

/-- A function of natural numbers, continued to negative integers with their sign. -/
def signed (f : Nat → Nat) : Int → Int
  | .ofNat n => f n
  | .negSucc n => -f (n + 1)

/-- On natural numbers a continued function is the function itself. -/
theorem signed_natCast (f : Nat → Nat) (n : Nat) : signed f n = f n := rfl

/-- On the negative of a natural number a continued function changes its sign, if it is zero at zero. -/
theorem signed_neg {f : Nat → Nat} (hzero : f 0 = 0) (n : Nat) : signed f (-n) = -f n := by
  cases n with
  | zero => simp [signed, hzero]
  | succ n => rfl

/-- A function that increases on natural numbers increases on integers. -/
theorem signed_lt_signed {f : Nat → Nat} (h : StrictMono f) {a b : Int} (hlt : a < b) : signed f a < signed f b := by
  cases a with
  | ofNat m =>
    cases b with
    | ofNat n => exact Int.ofNat_lt.mpr (h (Int.ofNat_lt.mp hlt))
    | negSucc n => contradiction
  | negSucc m =>
    cases b with
    | ofNat n =>
      have hpos : f 0 < f (m + 1) := h (Nat.succ_pos m)
      simp only [signed]
      omega
    | negSucc n => exact Int.neg_lt_neg (Int.ofNat_lt.mpr (h (by omega)))

/-- A function that does not decrease on natural numbers does not decrease on integers. -/
theorem signed_le_signed {f : Nat → Nat} (h : Monotone f) {a b : Int} (hle : a ≤ b) : signed f a ≤ signed f b := by
  cases a with
  | ofNat m =>
    cases b with
    | ofNat n => exact Int.ofNat_le.mpr (h (Int.ofNat_le.mp hle))
    | negSucc n =>
      have hlt : Int.negSucc n < m := Int.lt_of_lt_of_le (Int.negSucc_lt_zero n) (Int.natCast_nonneg m)
      exact absurd hle (Int.not_le.mpr hlt)
  | negSucc m =>
    cases b with
    | ofNat n =>
      simp only [signed]
      omega
    | negSucc n => exact Int.neg_le_neg (Int.ofNat_le.mpr (h (by omega)))

/-- An increasing function of integers does not change how they compare. -/
theorem compare_map_eq {f : Int → Int} (h : ∀ a b, a < b → f a < f b) (a b : Int) :
    compare (f a) (f b) = compare a b := by
  rcases Int.lt_trichotomy a b with hlt | rfl | hgt
  · rw [Int.compare_eq_lt.mpr hlt, Int.compare_eq_lt.mpr (h a b hlt)]
  · rw [Std.compare_self, Std.compare_self]
  · rw [Int.compare_eq_gt.mpr hgt, Int.compare_eq_gt.mpr (h b a hgt)]

end Double

/-- The integer that a number is written as, if it is written as one. -/
def Number.integer? : Number → Option Int
  | natural n => some n
  | negative n => some (-(n + 1 : Nat))
  | double _ => none

/-- The integer that the double of an integer stands for: the multiple of the spacing nearest to it. -/
def nearestInt (a : Int) : Int := Double.signed Double.nearestNat a

/-- Rounding integers to their doubles keeps their order. -/
theorem nearestInt_mono {a b : Int} (hle : a ≤ b) : nearestInt a ≤ nearestInt b :=
  Double.signed_le_signed Double.nearestNat_mono hle

/-- An integer with at most 53 binary digits is its own double. -/
theorem nearestInt_of_natAbs_le {a : Int} (h : a.natAbs ≤ 2 ^ 53) : nearestInt a = a := by
  cases a with
  | ofNat n => exact congrArg Int.ofNat (Double.nearestNat_of_le h)
  | negSucc n => exact congrArg (fun magnitude : Nat => -(magnitude : Int)) (Double.nearestNat_of_le h)

namespace Number

variable {m n : Number} {a b : Int}

/-- The magnitude of a negative integer of 64 bits fits 64 bits. -/
theorem succ_lt_naturalBound (n : Fin negativeBound) : (n : Nat) + 1 < naturalBound :=
  (Nat.succ_le_of_lt n.isLt).trans_lt (by decide)

/-- The double of an integer of 64 bits is nearest to it. -/
theorem signed_units_key (h : m.integer? = some a) :
    Double.signed Double.units m.toDouble.key = nearestInt a * twoPow 1074 := by
  cases m with
  | natural n =>
    obtain rfl := Option.some.inj h
    rw [toDouble, Double.key_ofNat false n.isLt, if_neg Bool.false_ne_true, Double.signed_natCast,
      Double.units_ofNat false n.isLt, nearestInt, Double.signed_natCast, Nat.cast_mul]
  | negative n =>
    obtain rfl := Option.some.inj h
    have hlt := succ_lt_naturalBound n
    rw [toDouble, Double.key_ofNat true hlt, if_pos rfl, Double.signed_neg Double.units_zero,
      Double.units_ofNat true hlt, nearestInt, Double.signed_neg Double.nearestNat_zero, Nat.cast_mul, neg_mul]
  | double d => contradiction

/-- Integers of 64 bits compare as doubles in the way the integers nearest to them do. -/
theorem compare_key (hm : m.integer? = some a) (hn : n.integer? = some b) :
    compare m.toDouble.key n.toDouble.key = compare (nearestInt a) (nearestInt b) := by
  have hpos : (0 : Int) < twoPow 1074 := Int.natCast_pos.mpr (Double.twoPow_pos _)
  calc compare m.toDouble.key n.toDouble.key
      = compare (nearestInt a * twoPow 1074) (nearestInt b * twoPow 1074) := by
        rw [← signed_units_key hm, ← signed_units_key hn,
          Double.compare_map_eq fun _ _ => Double.signed_lt_signed Double.units_strictMono]
    _ = compare (nearestInt a) (nearestInt b) :=
        Double.compare_map_eq (fun _ _ hlt => Int.mul_lt_mul_of_pos_right hlt hpos) _ _

/-- The double of a positive number is not zero. -/
theorem rank_ofNat_pos (negative : Bool) {n : Nat} (hpos : 0 < n) (h : n < naturalBound) :
    0 < (Double.ofNat negative n).rank := by
  have hone : 1 ≤ Double.nearestNat n := by
    rw [← Double.nearestNat_of_le (show 1 ≤ 2 * Double.binade by decide)]
    exact Double.nearestNat_mono hpos
  have hunits : 0 < Double.units (Double.ofNat negative n).rank := by
    rw [Double.units_ofNat negative h]
    exact Nat.mul_pos hone (Double.twoPow_pos _)
  rw [← Double.units_zero] at hunits
  exact Double.units_strictMono.lt_iff_lt.mp hunits

/-- The total order has the negative zero below the positive one, and no integer is the negative zero. -/
theorem totalKey_eq (h : m.integer? = some a) :
    m.toDouble.totalKey = if m.toDouble.key < 0 then m.toDouble.key - 1 else m.toDouble.key := by
  cases m with
  | natural n =>
    rw [toDouble, Double.key_ofNat false n.isLt, Double.totalKey, Double.negative_ofNat false n.isLt,
      if_neg Bool.false_ne_true, if_neg Bool.false_ne_true, if_neg (Int.not_lt.mpr (Int.natCast_nonneg _))]
  | negative n =>
    have hlt := succ_lt_naturalBound n
    have hrank : 0 < (Double.ofNat true (n + 1)).rank := rank_ofNat_pos true (Nat.succ_pos n) hlt
    rw [toDouble, Double.key_ofNat true hlt, Double.totalKey, Double.negative_ofNat true hlt,
      if_pos rfl, if_pos rfl, if_pos (by omega)]
  | double d => contradiction

/-- Integers of 64 bits are sorted as doubles in the way the integers nearest to them are. -/
theorem compare_totalKey (hm : m.integer? = some a) (hn : n.integer? = some b) :
    compare m.toDouble.totalKey n.toDouble.totalKey = compare (nearestInt a) (nearestInt b) := by
  have hbelow (key other : Int) (hlt : key < other) :
      (if key < 0 then key - 1 else key) < if other < 0 then other - 1 else other := by
    split <;> split <;> omega
  rw [totalKey_eq hm, totalKey_eq hn, Double.compare_map_eq hbelow, compare_key hm hn]

end Number

end Listing
