/-!
# Faults in JSON text

A text that is not JSON is refused with a cause and the place of the fault: the line, counted from
one, and the number of bytes of that line up to the fault.
-/

namespace Listing.Json

/-- Why a text is not JSON. -/
inductive Cause where
  /-- The text ends where a value should go on. -/
  | endInValue
  /-- The text ends inside an array. -/
  | endInArray
  /-- The text ends inside an object. -/
  | endInObject
  /-- The text ends inside a string. -/
  | endInString
  /-- No value starts here. -/
  | expectedValue
  /-- A word starts like a literal and goes on otherwise. -/
  | expectedWord
  /-- An entry of an object does not start with a string. -/
  | expectedKey
  /-- A key is not followed by a colon. -/
  | expectedColon
  /-- An entry of an object is followed by neither comma nor closing brace. -/
  | expectedCommaOrBrace
  /-- An element of an array is followed by neither comma nor closing bracket. -/
  | expectedCommaOrBracket
  /-- A comma before a closing bracket or brace. -/
  | trailingComma
  /-- Something follows the value. -/
  | trailingCharacters
  /-- A number with a digit missing, or with a digit after a leading zero. -/
  | invalidNumber
  /-- A number beyond the finite doubles. -/
  | numberOutOfRange
  /-- A control character inside a string. -/
  | controlCharacter
  /-- An unknown escape sequence. -/
  | invalidEscape
  /-- Half of a surrogate pair where a whole pair or none is needed. -/
  | loneSurrogate
  /-- The first half of a surrogate pair is not followed by another escape. -/
  | endInSurrogatePair
  /-- Too many arrays and objects inside one another. -/
  | tooDeep
  deriving DecidableEq, Repr

/-- The wording of a cause. -/
def Cause.message : Cause → String
  | endInValue => "EOF while parsing a value"
  | endInArray => "EOF while parsing a list"
  | endInObject => "EOF while parsing an object"
  | endInString => "EOF while parsing a string"
  | expectedValue => "expected value"
  | expectedWord => "expected ident"
  | expectedKey => "key must be a string"
  | expectedColon => "expected `:`"
  | expectedCommaOrBrace => "expected `,` or `\x7d`"
  | expectedCommaOrBracket => "expected `,` or `]`"
  | trailingComma => "trailing comma"
  | trailingCharacters => "trailing characters"
  | invalidNumber => "invalid number"
  | numberOutOfRange => "number out of range"
  | controlCharacter => "control character (\\u0000-\\u001F) found while parsing a string"
  | invalidEscape => "invalid escape"
  | loneSurrogate => "lone leading surrogate in hex escape"
  | endInSurrogatePair => "unexpected end of hex escape"
  | tooDeep => "recursion limit exceeded"

/-- A fault in a JSON text: its cause and its place. -/
structure SyntaxError where
  /-- Why the text is refused. -/
  cause : Cause
  /-- The line of the fault, from one. -/
  line : Nat
  /-- The bytes of that line up to the fault. -/
  column : Nat
  deriving DecidableEq, Repr

/-- The wording of a fault with its place. -/
def SyntaxError.message (e : SyntaxError) : String :=
  e.cause.message ++ " at line " ++ toString e.line ++ " column " ++ toString e.column

/-- A fault while reading: its cause, the text from the faulty character on, and how many bytes of
that text belong to the fault. -/
structure Fault where
  /-- Why reading stopped. -/
  cause : Cause
  /-- What had not been read. -/
  rest : List Char
  /-- Bytes of the unread text that count as seen. -/
  seen : Nat := 0
  deriving DecidableEq, Repr

/-- The number of bytes of a text in UTF-8. -/
def byteCount : List Char → Nat
  | [] => 0
  | c :: rest => c.utf8Size + byteCount rest

/-- Line and column after the first `count` bytes of a text. -/
def placeAfter (text : List Char) (count : Nat) : Nat × Nat :=
  let before := (text.flatMap String.utf8EncodeChar).take count
  (before.count 10 + 1, (before.reverse.takeWhile (· ≠ 10)).length)

/-- The place of a fault within the whole text. -/
def Fault.locate (fault : Fault) (text : List Char) : SyntaxError :=
  let place := placeAfter text (byteCount text - byteCount fault.rest + fault.seen)
  ⟨fault.cause, place.1, place.2⟩

end Listing.Json
