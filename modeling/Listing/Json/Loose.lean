import Listing.Json.Basic
import Listing.Number.Reading
import Listing.Text.Blank

/-!
# Comparing a document value with an operand

Operands that come from a query string are strings, so a string also stands for the number or the
truth value that it spells. Numbers of different kinds are compared as doubles.
-/

namespace Listing.Json

/-- What a string operand denotes as a number, blanks at its ends aside. -/
def reading? (s : String) : Option Reading := Reading.ofChars? (Text.trimChars s.toList)

/-- Whether a document value equals an operand: the same value, numbers equal as doubles, or a
string that spells the number or the truth value. -/
def equalsOperand (value operand : Json) : Bool :=
  value.same operand ||
    match value, operand with
    | number a, number b => a.toDouble.key = b.toDouble.key
    | number a, text s => (reading? s).bind (Reading.compare? a.toDouble) = some .eq
    | bool a, text s => s = if a then "true" else "false"
    | _, _ => false

/-- How a document value compares with an operand of a type that goes with it, numbers and spelled
numbers by size, strings by code point and `false` before `true`; `none` for any other pair. -/
def compareOperand? (value operand : Json) : Option Ordering :=
  match value, operand with
  | number a, number b => some (compare a.toDouble.key b.toDouble.key)
  | number a, text s => (reading? s).bind (Reading.compare? a.toDouble)
  | text a, text b => some (compare a b)
  | bool a, bool b => some (compare a b)
  | _, _ => none

/-- The place of a value's type when documents are sorted. -/
def kindRank : Json → Nat
  | null => 0
  | number _ => 1
  | text _ => 2
  | object _ => 3
  | array _ => 4
  | bool _ => 5

/-- How two present values are sorted: by type first, then numbers by the total order of doubles,
strings by code point and `false` before `true`. Objects are all alike, and so are arrays. -/
def sortValues (a b : Json) : Ordering :=
  (compare a.kindRank b.kindRank).then <|
    match a, b with
    | number m, number n => compare m.toDouble.totalKey n.toDouble.totalKey
    | text m, text n => compare m n
    | bool m, bool n => compare m n
    | _, _ => .eq

/-- How two values that may be missing are sorted: a missing one comes first. -/
def sortOptions : Option Json → Option Json → Ordering
  | none, none => .eq
  | none, some _ => .lt
  | some _, none => .gt
  | some a, some b => sortValues a b

end Listing.Json
