import Listing.Json.Basic
import Listing.Text.Split

/-!
# Dotted paths into documents

A path names a field by the keys that lead to it, with points between them. Two walks follow it:
`lookup` descends through objects only and finds at most one value, for sorting and projection;
`candidates` also opens every array on the way and finds all the values that a condition is
tested against.
-/

namespace Listing.Path

/-- How many keys of a path are followed. -/
def maxDepth : Nat := 32

/-- The keys of a path. -/
def segments (path : String) : List String := Text.split '.' path

/-- Whether a key is written like an operator of filter documents. -/
def isOperator (key : String) : Bool := key.toList.head? = some '$'

/-- Whether a key of the path is written like an operator. -/
def namesOperator (path : String) : Bool := (segments path).any isOperator

/-- Follow keys through objects. -/
def descend : Json → List String → Option Json
  | value, [] => some value
  | value, key :: keys => (value.field? key).bind (descend · keys)

/-- The value at a path when no array stands on the way. The empty path and paths of more than
`maxDepth` keys name nothing. -/
def lookup (document : Json) (path : String) : Option Json :=
  if path = "" ∨ maxDepth < (segments path).length then none
  else descend document (segments path)

mutual

/-- The values other than arrays that are reached by opening arrays as long as there are any. -/
def opened : Json → List Json
  | .array elements => openedAll elements
  | value => [value]

/-- The opened values of each element in turn. -/
def openedAll : List Json → List Json
  | [] => []
  | element :: rest => opened element ++ openedAll rest

end

/-- The values that keys lead to, arrays before a key being opened. At the end an array gives
itself and its elements. -/
def reach : List String → Json → List Json
  | [], value => value :: value.elements
  | key :: keys, value =>
    (opened value).flatMap fun inner =>
      match inner.field? key with
      | some next => reach keys next
      | none => []

/-- The values a condition on a path is tested against: those that the first `maxDepth` keys lead
to, or else the null value alone. -/
def candidates (document : Json) (path : String) : List Json :=
  match reach ((segments path).take maxDepth) document with
  | [] => [.null]
  | found => found

end Listing.Path
