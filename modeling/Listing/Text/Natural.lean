/-!
# Natural numbers in parameters

A count is written with ASCII digits, an optional plus sign before them, and fits 64 bits.
-/

namespace Listing.Text

/-- The largest count, `2 ^ 64 - 1`. -/
def maxCount : Nat := 18446744073709551615

/-- The natural number that a run of ASCII digits denotes. -/
def digitsValue (digits : List Char) : Nat :=
  digits.foldl (fun n c => 10 * n + (c.toNat - '0'.toNat)) 0

/-- The number that a nonempty run of ASCII digits denotes. -/
def digits? (text : List Char) : Option Nat :=
  if text ≠ [] ∧ text.all Char.isDigit then some (digitsValue text) else none

/-- Drop a leading plus sign. -/
def dropPlus : List Char → List Char
  | '+' :: rest => rest
  | text => text

/-- Read a count: digits after an optional plus sign, at most `maxCount`. -/
def count? (text : List Char) : Option Nat := (digits? (dropPlus text)).filter (· ≤ maxCount)

/-- A count never exceeds the largest one. -/
theorem le_maxCount_of_count? {text : List Char} {n : Nat} (h : count? text = some n) :
    n ≤ maxCount := by
  simpa using (Option.filter_eq_some_iff.mp h).2

end Listing.Text
