import Listing.Text.Ranges

/-!
# Blank characters

Parameter values are trimmed of blanks at both ends before they are read. A blank is any
character with the Unicode property `White_Space`.
-/

namespace Listing.Text

/-- Characters with the property `White_Space`. -/
def blankRanges : List (Nat × Nat) :=
  [(0x9, 0xD), (0x20, 0x20), (0x85, 0x85), (0xA0, 0xA0), (0x1680, 0x1680), (0x2000, 0x200A),
   (0x2028, 0x2029), (0x202F, 0x202F), (0x205F, 0x205F), (0x3000, 0x3000)]

/-- Whether a character counts as white space. -/
def isBlank (c : Char) : Bool := inRanges blankRanges c

/-- Drop the blanks at the end. -/
def trimEnd (text : List Char) : List Char := (text.reverse.dropWhile isBlank).reverse

/-- Drop the blanks at both ends. -/
def trimChars (text : List Char) : List Char := trimEnd (text.dropWhile isBlank)

/-- Drop the blanks at both ends of a string. -/
def trim (text : String) : String := String.ofList (trimChars text.toList)

/-- The characters of a trimmed string are the trimmed characters. -/
@[simp] theorem toList_trim (text : String) : (trim text).toList = trimChars text.toList :=
  String.toList_ofList

end Listing.Text
