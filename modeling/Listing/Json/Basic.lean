import Listing.Keyed
import Listing.Number.Double

/-!
# JSON values

Documents, operands and requests are JSON values. An object keeps its entries in insertion order,
and a number keeps the kind in which it was written: a natural number of 64 bits, a negative
integer of 64 bits, or a finite double.

The type does not force the keys of an object to be distinct; `WellFormed` says that they are, and
every value that is read or inserted satisfies it.
-/

namespace Listing

/-- The least natural number that does not fit 64 bits, `2 ^ 64`. -/
abbrev naturalBound : Nat := 18446744073709551616

/-- How many negative integers fit 64 bits, `2 ^ 63`. -/
abbrev negativeBound : Nat := 9223372036854775808

/-- A JSON number. -/
inductive Number where
  /-- A natural number that fits 64 bits. -/
  | natural (n : Fin naturalBound)
  /-- The integer `-(n + 1)`. -/
  | negative (n : Fin negativeBound)
  /-- A finite double. -/
  | double (d : Double)
  deriving DecidableEq, Repr

/-- A JSON value. -/
inductive Json where
  /-- The null value. -/
  | null
  /-- A truth value. -/
  | bool (value : Bool)
  /-- A number. -/
  | number (value : Number)
  /-- A string. -/
  | text (value : String)
  /-- A list of values. -/
  | array (elements : List Json)
  /-- Entries in insertion order. -/
  | object (fields : List (String × Json))
  deriving Repr, Inhabited

namespace Number

/-- The double nearest to a number. -/
def toDouble : Number → Double
  | natural n => .ofNat false n
  | negative n => .ofNat true (n + 1)
  | double d => d

/-- Two numbers are the same when they have the same kind and the same value; the two zeros among
the doubles have the same value. -/
def same : Number → Number → Bool
  | natural m, natural n => m = n
  | negative m, negative n => m = n
  | double d, double e => d.key = e.key
  | _, _ => false

end Number

namespace Json

/-- The entries of an object; no other value has any. -/
def fields : Json → Keyed Json
  | object fields => fields
  | _ => []

/-- The elements of an array; no other value has any. -/
def elements : Json → List Json
  | array elements => elements
  | _ => []

/-- The value under a key of an object. -/
def field? (value : Json) (key : String) : Option Json := value.fields.get? key

/-- Whether a value is neither an array nor an object. -/
def isScalar : Json → Bool
  | array _ => false
  | object _ => false
  | _ => true

/-- An object with one entry. -/
def single (key : String) (value : Json) : Json := object [(key, value)]

/-- The natural number as a value, the largest count if it is larger. -/
def ofCount (n : Nat) : Json :=
  number (.natural (if h : n < naturalBound then ⟨n, h⟩ else ⟨naturalBound - 1, by decide⟩))

mutual

/-- Whether two values are equal up to the order of the keys inside objects. Numbers have to be of
one kind. -/
def same : Json → Json → Bool
  | null, null => true
  | bool a, bool b => a = b
  | number a, number b => a.same b
  | text a, text b => a = b
  | array as, array bs => sameElements as bs
  | object as, object bs => as.length = bs.length && sameFields as bs
  | _, _ => false

/-- Whether two lists agree element by element. -/
def sameElements : List Json → List Json → Bool
  | [], [] => true
  | a :: as, b :: bs => same a b && sameElements as bs
  | _, _ => false

/-- Whether every entry has an equal value under its key in another object. -/
def sameFields : List (String × Json) → Keyed Json → Bool
  | [], _ => true
  | (key, a) :: rest, bs =>
    (match Keyed.get? bs key with
      | some b => same a b
      | none => false) && sameFields rest bs

end

mutual

/-- Whether the keys of every object inside a value are distinct. -/
def WellFormed : Json → Prop
  | array elements => WellFormedElements elements
  | object fields => (Keyed.keys fields).Nodup ∧ WellFormedFields fields
  | _ => True

/-- Whether every element of a list is well-formed. -/
def WellFormedElements : List Json → Prop
  | [] => True
  | element :: rest => WellFormed element ∧ WellFormedElements rest

/-- Whether the value of every entry is well-formed. -/
def WellFormedFields : List (String × Json) → Prop
  | [] => True
  | (_, value) :: rest => WellFormed value ∧ WellFormedFields rest

end

/-- Induction over a value, with the induction hypothesis for what is inside arrays and objects. -/
theorem induction {motive : Json → Prop} (null : motive .null) (bool : ∀ value, motive (.bool value))
    (number : ∀ value, motive (.number value)) (text : ∀ value, motive (.text value))
    (array : ∀ elements, (∀ element ∈ elements, motive element) → motive (.array elements))
    (object : ∀ fields, (∀ entry ∈ fields, motive entry.2) → motive (.object fields)) (value : Json) : motive value :=
  match value with
  | .null => null
  | .bool value => bool value
  | .number value => number value
  | .text value => text value
  | .array elements =>
    array elements fun element _ => induction null bool number text array object element
  | .object fields =>
    object fields fun entry hentry =>
      have : sizeOf entry.2 < 1 + sizeOf fields := by
        have hlt := List.sizeOf_lt_of_mem hentry
        have hentry : sizeOf entry = 1 + sizeOf entry.1 + sizeOf entry.2 := rfl
        omega
      induction null bool number text array object entry.2

end Json

end Listing
