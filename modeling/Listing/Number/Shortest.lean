import Listing.Number.Double

/-!
# The shortest decimal that reads back

A double is written with the fewest digits that still determine it: the decimals that round to a
double form an interval around it, and the written one is on the coarsest decimal grid with a
point in that interval. Of two such points the nearer is taken, and of two equally near the one
with an even last digit.
-/

namespace Listing.Double

/-- A decimal magnitude, `digits * 10 ^ exponent`. -/
structure Decimal where
  /-- The digits, read as one natural number. -/
  digits : Nat
  /-- The power of ten that multiplies them. -/
  exponent : Int
  deriving DecidableEq, Repr

/-- Numerator and denominator of `n / 2` units on the decimal grid with the given exponent. -/
def onGrid (n : Nat) (exponent : Int) : Nat × Nat :=
  (n * tenPow (-exponent).toNat, twoPow 1075 * tenPow exponent.toNat)

/-- Whether `digits * 10 ^ exponent` rounds to the nonnegative double of a rank. The ends of the
interval, halfway to the neighbours, belong to it when the significand is even. -/
def readsBack (rank : Nat) (exponent : Int) (digits : Nat) : Bool :=
  let low := onGrid (units rank + units (rank - 1)) exponent
  let high := onGrid (units rank + units (rank + 1)) exponent
  if rank % 2 = 0 then decide (low.1 ≤ digits * low.2) && decide (digits * high.2 ≤ high.1)
  else decide (low.1 < digits * low.2) && decide (digits * high.2 < high.1)

/-- The neighbour of the double of a rank on a decimal grid that reads back, if there is one. -/
def onGrid? (rank : Nat) (exponent : Int) : Option Decimal :=
  let (num, den) := onGrid (2 * units rank) exponent
  let below := num / den
  let nearest := roundHalfEven num den
  let other := if nearest = below then below + 1 else below
  if readsBack rank exponent nearest then some ⟨nearest, exponent⟩
  else if readsBack rank exponent other then some ⟨other, exponent⟩
  else none

/-- The exponent of the leading decimal digit of the positive double of a rank. -/
def leadingExponent (rank : Nat) : Int :=
  ((Nat.toDigits 10 (units rank * tenPow 400 / twoPow 1074)).length : Int) - 401

/-- Move the zeros at the end of the digits into the exponent; `bound` limits their number. -/
def Decimal.stripZeros : Nat → Decimal → Decimal
  | 0, d => d
  | bound + 1, d =>
    if d.digits % 10 = 0 ∧ d.digits ≠ 0 then stripZeros bound ⟨d.digits / 10, d.exponent + 1⟩ else d

/-- The shortest decimal that reads back as the positive double of a rank. Seventeen digits are
always enough. -/
def shortest (rank : Nat) : Decimal :=
  let lead := leadingExponent rank
  let found := (List.range 17).findSome? fun (n : Nat) => onGrid? rank (lead - n)
  (found.getD ⟨0, 0⟩).stripZeros 20

/-- Zeros for padding. -/
def zeros (count : Int) : List Char := List.replicate count.toNat '0'

/-- Decimal digits of a natural number. -/
def digitChars (n : Nat) : List Char := Nat.toDigits 10 n

/-- The text of a decimal magnitude. A leading digit between the fifth place after the point and
the sixteenth before it is written in place, with at least one digit on either side of the point;
any other magnitude gets an exponent, whose sign is always written. -/
def Decimal.chars (d : Decimal) : List Char :=
  let digits := digitChars d.digits
  let lead := d.exponent + (digits.length : Int) - 1
  if -5 ≤ lead ∧ lead < 16 then
    if 0 ≤ d.exponent then digits ++ zeros d.exponent ++ ['.', '0']
    else if 0 ≤ lead then
      digits.take (lead + 1).toNat ++ '.' :: digits.drop (lead + 1).toNat
    else '0' :: '.' :: (zeros (-lead - 1) ++ digits)
  else
    let fraction := if digits.length ≤ 1 then [] else '.' :: digits.drop 1
    let sign := if lead < 0 then '-' else '+'
    digits.take 1 ++ fraction ++ 'e' :: sign :: digitChars lead.natAbs

/-- The text of a double. -/
def chars (d : Double) : List Char :=
  let magnitude := if d.rank = 0 then ['0', '.', '0'] else (shortest d.rank).chars
  if d.negative then '-' :: magnitude else magnitude

example : (shortest 1).chars = "5e-324".toList := by decide +kernel
example : (ofNat false 5).chars = "5.0".toList := by decide +kernel

end Listing.Double
