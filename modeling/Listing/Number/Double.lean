/-!
# Finite doubles

A finite 64-bit binary floating point number, described by its sign and by the rank of its
magnitude: the nonnegative finite doubles in increasing order are numbered `0, 1, 2, …`. Order and
equality of doubles are then order and equality of integers, and rounding to the nearest double
is exact arithmetic on natural numbers.

Magnitudes are measured in units of the smallest positive double, `2 ^ -1074`.
-/

namespace Listing

/-- How many nonnegative doubles share a scale: `2 ^ 52`. -/
abbrev Double.binade : Nat := 4503599627370496

/-- How many finite doubles there are that are not negative. -/
abbrev Double.rankBound : Nat := 2047 * Double.binade

/-- The power of two with an exponent. -/
abbrev twoPow (exponent : Nat) : Nat := Nat.pow 2 exponent

/-- The power of ten with an exponent. -/
abbrev tenPow (exponent : Nat) : Nat := Nat.pow 10 exponent

/-- A finite double: its sign and the rank of its magnitude among the nonnegative finite doubles.
Zero has two forms. -/
structure Double where
  /-- Whether the sign bit is set. -/
  negative : Bool
  /-- The number of smaller nonnegative doubles. -/
  rank : Nat
  /-- The largest finite double has the last rank. -/
  rank_lt : rank < Double.rankBound
  deriving DecidableEq, Repr

namespace Double

/-- The sign and magnitude as one integer, so that both zeros coincide: numerical order. -/
def key (d : Double) : Int := if d.negative then -(d.rank : Int) else d.rank

/-- As `key`, but with the negative zero just below the positive one: the total order. -/
def totalKey (d : Double) : Int := if d.negative then -(d.rank : Int) - 1 else d.rank

/-- The significand of the nonnegative double of a rank. -/
def significand (rank : Nat) : Nat := if rank < binade then rank else binade + rank % binade

/-- The power of two by which the significand of a rank is multiplied, in units. -/
def scale (rank : Nat) : Nat := rank / binade - 1

/-- The magnitude of a rank in units of the smallest positive double. -/
def units (rank : Nat) : Nat := significand rank * twoPow (scale rank)

/-- The quotient rounded to the nearest natural number, a half going to the even neighbour. -/
def roundHalfEven (num den : Nat) : Nat :=
  let quotient := num / den
  let twice := 2 * (num % den)
  if twice < den then quotient
  else if den < twice then quotient + 1
  else quotient + quotient % 2

/-- The rank of the double nearest to `num / den` units, a tie going to the even significand. It
lies beyond every finite double when the value does. -/
def nearestRank (num den : Nat) : Nat :=
  let scale := (num / den).log2 - 52
  scale * binade + roundHalfEven num (den * twoPow scale)

/-- The double of a sign nearest to the magnitude `num / den`, or `none` when that is infinite. -/
def nearest? (negative : Bool) (num den : Nat) : Option Double :=
  let rank := nearestRank (num * twoPow 1074) den
  if h : rank < rankBound then some ⟨negative, rank, h⟩ else none

/-- The double of a sign nearest to a natural number, the largest one for numbers beyond it. -/
def ofNat (negative : Bool) (n : Nat) : Double :=
  (nearest? negative n 1).getD ⟨negative, rankBound - 1, by decide⟩

/-- The double of a sign nearest to `digits * 10 ^ exponent`, or `none` when that is infinite.
Exponents far outside the range of doubles are decided without computing the power. -/
def ofDecimal? (negative : Bool) (digits : Nat) (exponent : Int) : Option Double :=
  let magnitude := exponent + ((Nat.toDigits 10 digits).length : Int)
  if digits = 0 ∨ magnitude < -330 then some ⟨negative, 0, by decide⟩
  else if 330 < magnitude then none
  else nearest? negative (digits * tenPow exponent.toNat) (tenPow (-exponent).toNat)

/-- A quotient without remainder is not rounded. -/
theorem roundHalfEven_mul_left (n den : Nat) (h : 0 < den) : roundHalfEven (n * den) den = n := by
  simp [roundHalfEven, Nat.mul_mod_left, Nat.mul_div_cancel _ h, h]

end Double

end Listing
