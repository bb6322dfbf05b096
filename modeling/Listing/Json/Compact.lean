import Listing.Json.Basic
import Listing.Number.Shortest

/-!
# Compact JSON text

A value is written without spaces and in the order of its entries. In a string only the quotation
mark, the backslash and the control characters below the space are escaped.
-/

namespace Listing.Json

/-- A hexadecimal digit in lower case. -/
def hexDigit (n : Nat) : Char := Nat.digitChar (n % 16)

/-- A character as it is written inside a string. -/
def escapeChar (c : Char) : List Char :=
  if c = '"' then ['\\', '"']
  else if c = '\\' then ['\\', '\\']
  else if 0x20 ≤ c.toNat then [c]
  else if c = '\x08' then ['\\', 'b']
  else if c = '\t' then ['\\', 't']
  else if c = '\n' then ['\\', 'n']
  else if c = '\x0c' then ['\\', 'f']
  else if c = '\r' then ['\\', 'r']
  else ['\\', 'u', '0', '0', hexDigit (c.toNat / 16), hexDigit c.toNat]

/-- A string between quotation marks. -/
def quote (s : String) : List Char := '"' :: (s.toList.flatMap escapeChar ++ ['"'])

/-- The text of a number. -/
def numberChars : Number → List Char
  | .natural n => Double.digitChars n
  | .negative n => '-' :: Double.digitChars (n + 1)
  | .double d => d.chars

/-- Texts with commas between them. -/
def commaSeparated (texts : List (List Char)) : List Char := [','].intercalate texts

mutual

/-- The compact text of a value. -/
def chars : Json → List Char
  | null => "null".toList
  | bool true => "true".toList
  | bool false => "false".toList
  | number n => numberChars n
  | text s => quote s
  | array elements => '[' :: (commaSeparated (elementTexts elements) ++ [']'])
  | object fields => '{' :: (commaSeparated (fieldTexts fields) ++ ['}'])

/-- The texts of the elements of an array. -/
def elementTexts : List Json → List (List Char)
  | [] => []
  | element :: rest => chars element :: elementTexts rest

/-- The texts of the entries of an object, each a quoted key, a colon and a value. -/
def fieldTexts : List (String × Json) → List (List Char)
  | [] => []
  | (key, value) :: rest => (quote key ++ ':' :: chars value) :: fieldTexts rest

end

/-- A string is written between quotation marks. -/
theorem chars_text (s : String) : chars (text s) = quote s := rfl

/-- An array is written between brackets. -/
theorem chars_array (elements : List Json) :
    chars (array elements) = '[' :: (commaSeparated (elementTexts elements) ++ [']']) := rfl

/-- An object is written between braces. -/
theorem chars_object (fields : List (String × Json)) :
    chars (object fields) = '{' :: (commaSeparated (fieldTexts fields) ++ ['}']) := rfl

/-- No elements are written for an empty array. -/
theorem elementTexts_nil : elementTexts [] = [] := rfl

/-- No entries are written for an empty object. -/
theorem fieldTexts_nil : fieldTexts [] = [] := rfl

/-- The elements of an array are written one after the other. -/
theorem elementTexts_cons (element : Json) (rest : List Json) :
    elementTexts (element :: rest) = chars element :: elementTexts rest := rfl

/-- The entries of an object are written one after the other. -/
theorem fieldTexts_cons (entry : String × Json) (rest : List (String × Json)) :
    fieldTexts (entry :: rest) = (quote entry.1 ++ ':' :: chars entry.2) :: fieldTexts rest := rfl

/-- The compact text of a value, as a string. -/
def compact (value : Json) : String := String.ofList value.chars

end Listing.Json
