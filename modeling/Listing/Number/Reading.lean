import Listing.Number.Double
import Listing.Text.Natural

/-!
# Decimals in text

The numbers that a text may hold when it is compared with a number: a decimal with optional sign,
point and exponent, or one of the words for infinity and not-a-number in any letter case.
-/

namespace Listing

/-- What a decimal text denotes: a finite double, an infinity or not a number. -/
inductive Reading where
  /-- The nearest finite double. -/
  | finite (value : Double)
  /-- Infinity, or a decimal too large for a finite double. -/
  | infinite (negative : Bool)
  /-- Not a number, which is unordered with every number. -/
  | notNumber
  deriving DecidableEq, Repr

namespace Reading

open Text

/-- Split off a leading sign; `true` stands for minus. -/
def splitSign : List Char → Bool × List Char
  | '-' :: rest => (true, rest)
  | '+' :: rest => (false, rest)
  | text => (false, text)

/-- The exponent after a mantissa: nothing, or `e` and an optionally signed run of digits. -/
def exponent? : List Char → Option Int
  | [] => some 0
  | c :: rest =>
    if c = 'e' ∨ c = 'E' then
      let (negative, digits) := splitSign rest
      (digits? digits).map fun n => if negative then -(n : Int) else n
    else none

/-- The digits and the exponent of an unsigned decimal. A point may stand at either end of the
digits, but there has to be a digit. -/
def decimal? (text : List Char) : Option (Nat × Int) :=
  let (whole, rest) := text.span Char.isDigit
  let (fraction, rest) :=
    match rest with
    | '.' :: rest => rest.span Char.isDigit
    | _ => ([], rest)
  if whole = [] ∧ fraction = [] then none
  else (exponent? rest).map fun e => (digitsValue (whole ++ fraction), e - fraction.length)

/-- Read a text as a number. -/
def ofChars? (text : List Char) : Option Reading :=
  let (negative, body) := splitSign text
  let word := body.map Char.toLower
  if word = "inf".toList ∨ word = "infinity".toList then some (.infinite negative)
  else if word = "nan".toList then some .notNumber
  else
    (decimal? body).map fun (digits, exponent) =>
      match Double.ofDecimal? negative digits exponent with
      | some value => .finite value
      | none => .infinite negative

/-- How a double compares with a reading; `none` when the reading is not a number. -/
def compare? (value : Double) : Reading → Option Ordering
  | .finite other => some (compare value.key other.key)
  | .infinite negative => some (if negative then .gt else .lt)
  | .notNumber => none

end Reading

end Listing
