import Listing.Text.Split
import Listing.Text.Utf8

/-!
# Form-encoded queries

The query of a request target is a list of pairs with ampersands between them. In each pair the
first equals sign ends the key. A plus sign stands for a space, and a percent sign with two
hexadecimal digits for a byte; any other percent sign stands for itself.
-/

namespace Listing.Http.Form

/-- The value of a hexadecimal digit, given as a byte. -/
def hexValue? (b : UInt8) : Option UInt8 :=
  if 0x30 ≤ b ∧ b ≤ 0x39 then some (b - 0x30)
  else if 0x41 ≤ b ∧ b ≤ 0x46 then some (b - 0x41 + 10)
  else if 0x61 ≤ b ∧ b ≤ 0x66 then some (b - 0x61 + 10)
  else none

/-- Replace percent signs with two hexadecimal digits by the bytes that they stand for. -/
def percentDecode : List UInt8 → List UInt8
  | 0x25 :: high :: low :: rest =>
    match hexValue? high, hexValue? low with
    | some h, some l => (16 * h + l) :: percentDecode rest
    | _, _ => 0x25 :: percentDecode (high :: low :: rest)
  | b :: rest => b :: percentDecode rest
  | [] => []

/-- The text that a key or a value stands for. -/
def decodeText (text : List Char) : String :=
  let spaced := text.map fun c => if c = '+' then ' ' else c
  String.ofList (Text.Utf8.decode (percentDecode (Text.Utf8.encode spaced)))

/-- The key and the value of a pair, the value empty when there is no equals sign. -/
def decodePair (text : List Char) : String × String :=
  match Text.cutAt '=' text with
  | some (key, value) => (decodeText key, decodeText value)
  | none => (decodeText text, "")

/-- The pairs of a query. Empty pairs are left out. -/
def parse (query : List Char) : List (String × String) :=
  ((query.splitOn '&').filter (· ≠ [])).map decodePair

end Listing.Http.Form
