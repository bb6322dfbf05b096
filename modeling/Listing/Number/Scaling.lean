import Listing.Number.Double

/-!
# Decimals by scaling

A decimal in a JSON text is not rounded once. Its significand is rounded to a double, which is then
multiplied or divided by a power of ten that is a double too, and every such step rounds again. The
result is the nearest double when the significand and the power are exact, as in `0.1` and
`12.5e3`; for other decimals it may be a neighbour of it. A decimal that is compared with a number
is not read in this way but by `Double.ofDecimal?`, which gives the nearest double.
-/

namespace Listing.Double

/-- The largest power of ten by which a double is scaled in one step. -/
def maxPlaces : Nat := 308

/-- The double nearest to a power of ten. -/
def powerOfTen (places : Nat) : Double := ofNat false (tenPow places)

/-- The product with the magnitude of a factor, rounded once, or `none` when it is infinite. -/
def times? (d factor : Double) : Option Double :=
  nearest? d.negative (units d.rank * units factor.rank) (twoPow 1074 * twoPow 1074)

/-- The quotient by the magnitude of a divisor, rounded once, or `none` when it is infinite. -/
def over? (d divisor : Double) : Option Double :=
  nearest? d.negative (units d.rank) (units divisor.rank)

/-- Move the point to the left by `maxPlaces` in each of some rounds, and then by the places that are
left. Once it is zero a double stays as it is, however many rounds are to come. -/
def shrink? (places : Nat) : (rounds : Nat) → Double → Option Double
  | 0, d => d.over? (powerOfTen places)
  | rounds + 1, d =>
    if d.rank = 0 then some d else (d.over? (powerOfTen maxPlaces)).bind (shrink? places rounds)

/-- The double of a sign for `significand * 10 ^ exponent`, computed step by step, or `none` when it
is infinite. No power beyond the largest one is tried to make a double larger. -/
def ofParts? (negative : Bool) (significand : Nat) : (exponent : Int) → Option Double
  | .ofNat places =>
    let d := ofNat negative significand
    if places ≤ maxPlaces then d.times? (powerOfTen places)
    else if d.rank = 0 then some d
    else none
  | .negSucc places =>
    shrink? (places % maxPlaces + 1) (places / maxPlaces) (ofNat negative significand)

end Listing.Double
