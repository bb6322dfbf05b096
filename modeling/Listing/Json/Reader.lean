import Listing.Json.Basic
import Listing.Json.SyntaxError
import Listing.Number.Scaling
import Listing.Text.Natural

/-!
# Reading JSON text

A reader takes the text that is left and gives what it has read with the text after it, or a
fault. White space is the space, the tab and the two line ends only. At most 127 arrays and
objects may stand inside one another.

When a key is repeated in an object, its entry keeps the first place and the last value.
-/

namespace Listing.Json

/-- Something that reads the beginning of a text. -/
abbrev Reader (α : Type) := List Char → Except Fault (α × List Char)

/-- Whether a character may stand between the parts of a JSON text. -/
def isSpace (c : Char) : Bool := c = ' ' || c = '\t' || c = '\n' || c = '\r'

/-- Drop the white space at the beginning. -/
def skipSpace (input : List Char) : List Char := input.dropWhile isSpace

/-- A fault at the first character of a text; at the end of the text it has no character. -/
def fail {α : Type} (cause : Cause) (rest : List Char) : Except Fault α :=
  .error { cause, rest, seen := if rest.isEmpty then 0 else 1 }

/-- Read a literal word after its first letter. -/
def word (value : Json) : List Char → Reader Json
  | [], input => .ok (value, input)
  | _ :: _, [] => fail .endInValue []
  | c :: cs, d :: input => if c = d then word value cs input else fail .expectedWord (d :: input)

/-! ## Strings -/

/-- The value of a hexadecimal digit in either case. -/
def hexValue? (c : Char) : Option Nat :=
  if c.isDigit then some (c.toNat - '0'.toNat)
  else if 'a' ≤ c ∧ c ≤ 'f' then some (c.toNat - 'a'.toNat + 10)
  else if 'A' ≤ c ∧ c ≤ 'F' then some (c.toNat - 'A'.toNat + 10)
  else none

/-- Read four hexadecimal digits. Four bytes are taken before any of them is looked at. -/
def hexUnit (input : List Char) : Except Fault (Nat × List Char) :=
  if byteCount (input.take 4) < 4 then fail .endInString []
  else
    match (input.take 4).mapM hexValue? with
    | some digits => .ok (digits.foldl (fun n d => 16 * n + d) 0, input.drop 4)
    | none => .error ⟨.invalidEscape, input, 4⟩

/-- Whether a 16-bit unit is the first half of a surrogate pair. -/
def isHighSurrogate (n : Nat) : Bool := 0xD800 ≤ n && n ≤ 0xDBFF

/-- Whether a 16-bit unit is the second half of a surrogate pair. -/
def isLowSurrogate (n : Nat) : Bool := 0xDC00 ≤ n && n ≤ 0xDFFF

/-- Read the second half of a surrogate pair, which is an escape sequence of its own. -/
def lowSurrogate (high : Nat) : Reader Char
  | [] => fail .endInString []
  | '\\' :: [] => fail .endInString []
  | '\\' :: 'u' :: input => do
    let (low, rest) ← hexUnit input
    if isLowSurrogate low then
      .ok (Char.ofNat (0x10000 + (high - 0xD800) * 0x400 + (low - 0xDC00)), rest)
    else .error ⟨.loneSurrogate, rest, 0⟩
  | '\\' :: input => fail .endInSurrogatePair input
  | input => fail .endInSurrogatePair input

/-- Read what follows a backslash in a string. -/
def escape : Reader Char
  | [] => fail .endInString []
  | '"' :: input => .ok ('"', input)
  | '\\' :: input => .ok ('\\', input)
  | '/' :: input => .ok ('/', input)
  | 'b' :: input => .ok ('\x08', input)
  | 'f' :: input => .ok ('\x0c', input)
  | 'n' :: input => .ok ('\n', input)
  | 'r' :: input => .ok ('\r', input)
  | 't' :: input => .ok ('\t', input)
  | 'u' :: input => do
    let (unit, rest) ← hexUnit input
    if isLowSurrogate unit then .error ⟨.loneSurrogate, rest, 0⟩
    else if isHighSurrogate unit then lowSurrogate unit rest
    else .ok (Char.ofNat unit, rest)
  | input => fail .invalidEscape input

/-- Read the rest of a string after its opening quotation mark. Every step takes a character, so
`bound` need not exceed the length of the text. -/
def stringBody : (bound : Nat) → Reader (List Char)
  | 0, _ => fail .endInString []
  | _ + 1, [] => fail .endInString []
  | _ + 1, '"' :: input => .ok ([], input)
  | bound + 1, '\\' :: input => do
    let (c, rest) ← escape input
    let (cs, rest) ← stringBody bound rest
    .ok (c :: cs, rest)
  | bound + 1, c :: input =>
    if c.toNat < 0x20 then fail .controlCharacter (c :: input)
    else do
      let (cs, rest) ← stringBody bound input
      .ok (c :: cs, rest)

/-- Read a string after its opening quotation mark. -/
def string : Reader String := fun input => do
  let (cs, rest) ← stringBody (input.length + 1) input
  .ok (String.ofList cs, rest)

/-! ## Numbers -/

/-- Put digits behind a number as long as it stays within 64 bits: the number, and how many digits
are left out. -/
def appendDigits (n : Nat) : List Char → Nat × Nat
  | [] => (n, 0)
  | c :: rest =>
    let next := 10 * n + (c.toNat - '0'.toNat)
    if next < naturalBound then appendDigits next rest else (n, rest.length + 1)

/-- The significand and the exponent of digits before and behind a point. A digit before the point
that is left out still counts as a place; behind the point it is ignored. -/
def decimalParts (whole places : List Char) : Nat × Int :=
  let (n, wholeLeft) := appendDigits 0 whole
  let (significand, placesLeft) := appendDigits n places
  (significand, (wholeLeft : Int) - (places.length - placesLeft : Nat))

/-- The number without point and exponent: an integer of 64 bits, or else a double. The negative
zero is a double. -/
def integer? (negative : Bool) (digits : List Char) : Option Number :=
  let n := Text.digitsValue digits
  if h : n < naturalBound then
    if negative then
      if h : n ≠ 0 ∧ n ≤ negativeBound then some (.negative ⟨n - 1, by omega⟩)
      else some (.double (.ofNat true n))
    else some (.natural ⟨n, h⟩)
  else
    let (significand, exponent) := decimalParts digits []
    (Double.ofParts? negative significand exponent).map .double

/-- Read the digits before the point. Nothing may follow a leading zero. -/
def wholeDigits : Reader (List Char)
  | [] => fail .endInValue []
  | '0' :: input =>
    match input with
    | c :: _ => if c.isDigit then fail .invalidNumber input else .ok (['0'], input)
    | [] => .ok (['0'], [])
  | c :: input => if c.isDigit then .ok ((c :: input).span Char.isDigit) else fail .invalidNumber (c :: input)

/-- Read a nonempty run of digits. -/
def someDigits (input : List Char) : Except Fault (List Char × List Char) :=
  match input with
  | [] => fail .endInValue []
  | c :: _ => if c.isDigit then .ok (input.span Char.isDigit) else fail .invalidNumber input

/-- Read the digits after a point, if there is a point. -/
def fractionDigits? : Reader (Option (List Char))
  | '.' :: input => do
    let (digits, rest) ← someDigits input
    .ok (some digits, rest)
  | input => .ok (none, input)

/-- The sign and the digits of an exponent; a minus sign is `true`. -/
structure ExponentText where
  /-- Whether there is a minus sign. -/
  negative : Bool
  /-- The digits. -/
  digits : List Char

/-- The exponent that is written. -/
def ExponentText.value (e : ExponentText) : Int :=
  if e.negative then -(Text.digitsValue e.digits : Int) else Text.digitsValue e.digits

/-- Read an exponent, if there is one. -/
def exponent? : Reader (Option ExponentText)
  | c :: input =>
    if c = 'e' ∨ c = 'E' then do
      let (negative, input) :=
        match input with
        | '-' :: rest => (true, rest)
        | '+' :: rest => (false, rest)
        | rest => (false, rest)
      let (digits, rest) ← someDigits input
      .ok (some ⟨negative, digits⟩, rest)
    else .ok (none, c :: input)
  | [] => .ok (none, [])

/-- The digits after the first one with which a number exceeds a bound, if it does. -/
def afterExceeding (bound : Nat) (n : Nat) : List Char → Option (List Char)
  | [] => none
  | c :: rest =>
    let next := 10 * n + (c.toNat - '0'.toNat)
    if bound < next then some rest else afterExceeding bound next rest

/-- The largest exponent that is looked at, `2 ^ 31 - 1`. -/
def maxExponent : Nat := 2147483647

/-- The part of an exponent that is left unread because the number is out of range whatever it is. -/
def unreadDigits? (significand : Nat) : Option ExponentText → Option (List Char)
  | some ⟨false, digits⟩ => if significand = 0 then none else afterExceeding maxExponent 0 digits
  | _ => none

/-- Read a number whose sign has been read. -/
def unsignedNumber (negative : Bool) : Reader Json := fun input => do
  let (whole, rest) ← wholeDigits input
  let (fraction, rest) ← fractionDigits? rest
  let (exponent, rest) ← exponent? rest
  let (significand, places) := decimalParts whole (fraction.getD [])
  match unreadDigits? significand exponent with
  | some unread => .error ⟨.numberOutOfRange, unread ++ rest, 0⟩
  | none =>
    let number :=
      if fraction.isNone ∧ exponent.isNone then integer? negative whole
      else
        (Double.ofParts? negative significand
          (places + (exponent.map ExponentText.value).getD 0)).map .double
    match number with
    | some n => .ok (.number n, rest)
    | none => .error ⟨.numberOutOfRange, rest, 0⟩

/-! ## Arrays and objects -/

/-- Read the elements of an array from the first one on, given how to read one. Every step takes a
character, so `bound` need not exceed the length of the text. -/
def elementsFrom (element : Reader Json) : (bound : Nat) → Reader (List Json)
  | 0, _ => fail .endInArray []
  | bound + 1, input => do
    let (value, rest) ← element input
    match skipSpace rest with
    | [] => fail .endInArray []
    | ']' :: rest => .ok ([value], rest)
    | ',' :: rest =>
      match skipSpace rest with
      | [] => fail .endInValue []
      | ']' :: rest => fail .trailingComma (']' :: rest)
      | rest => do
        let (values, rest) ← elementsFrom element bound rest
        .ok (value :: values, rest)
    | rest => fail .expectedCommaOrBracket rest

/-- Read an array after its opening bracket. -/
def arrayAfter (element : Reader Json) : Reader Json := fun input =>
  match skipSpace input with
  | [] => fail .endInArray []
  | ']' :: rest => .ok (.array [], rest)
  | rest => do
    let (values, rest) ← elementsFrom element (rest.length + 1) rest
    .ok (.array values, rest)

/-- Read an entry after the opening quotation mark of its key. -/
def entry (element : Reader Json) : Reader (String × Json) := fun input => do
  let (key, rest) ← string input
  match skipSpace rest with
  | [] => fail .endInObject []
  | ':' :: rest => do
    let (value, rest) ← element rest
    .ok ((key, value), rest)
  | rest => fail .expectedColon rest

/-- Read the entries of an object from the first key on, given how to read a value. -/
def entriesFrom (element : Reader Json) : (bound : Nat) → Reader (List (String × Json))
  | 0, _ => fail .endInObject []
  | _ + 1, [] => fail .endInValue []
  | bound + 1, '"' :: input => do
    let (first, rest) ← entry element input
    match skipSpace rest with
    | [] => fail .endInObject []
    | '}' :: rest => .ok ([first], rest)
    | ',' :: rest =>
      match skipSpace rest with
      | '}' :: rest => fail .trailingComma ('}' :: rest)
      | rest => do
        let (others, rest) ← entriesFrom element bound rest
        .ok (first :: others, rest)
    | rest => fail .expectedCommaOrBrace rest
  | _ + 1, input => fail .expectedKey input

/-- Read an object after its opening brace. -/
def objectAfter (element : Reader Json) : Reader Json := fun input =>
  match skipSpace input with
  | [] => fail .endInObject []
  | '}' :: rest => .ok (.object [], rest)
  | rest => do
    let (entries, rest) ← entriesFrom element (rest.length + 1) rest
    .ok (.object (Keyed.ofList entries), rest)

/-! ## Values -/

/-- Read a value, given how to read one inside it if there may be one. -/
def valueAround (inner : Option (Reader Json)) : Reader Json := fun input =>
  match skipSpace input with
  | [] => fail .endInValue []
  | 'n' :: rest => word .null ['u', 'l', 'l'] rest
  | 't' :: rest => word (.bool true) ['r', 'u', 'e'] rest
  | 'f' :: rest => word (.bool false) ['a', 'l', 's', 'e'] rest
  | '"' :: rest => do
    let (s, rest) ← string rest
    .ok (.text s, rest)
  | '-' :: rest => unsignedNumber true rest
  | '[' :: rest =>
    match inner with
    | some element => arrayAfter element rest
    | none => fail .tooDeep ('[' :: rest)
  | '{' :: rest =>
    match inner with
    | some element => objectAfter element rest
    | none => fail .tooDeep ('{' :: rest)
  | c :: rest => if c.isDigit then unsignedNumber false (c :: rest) else fail .expectedValue (c :: rest)

/-- Read a value with at most `levels` arrays and objects inside one another. -/
def valueWithin : (levels : Nat) → Reader Json
  | 0 => valueAround none
  | levels + 1 => valueAround (some (valueWithin levels))

/-- How many arrays and objects may stand inside one another. -/
def maxLevels : Nat := 127

/-- Read a whole text as one value. -/
def ofChars (input : List Char) : Except Fault Json := do
  let (value, rest) ← valueWithin maxLevels input
  match skipSpace rest with
  | [] => .ok value
  | rest => fail .trailingCharacters rest

/-- Read a string as one value. -/
def parse (input : String) : Except SyntaxError Json :=
  (ofChars input.toList).mapError (·.locate input.toList)

end Listing.Json
