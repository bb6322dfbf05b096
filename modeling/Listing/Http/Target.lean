import Listing.Text.Split

/-!
# Request targets

A request names a path and perhaps a query, or a whole address in which they follow scheme and
host. What follows a number sign is for the client alone.
-/

namespace Listing.Http

/-- The path and the query of a request. -/
structure Target where
  /-- The path. -/
  path : List Char
  /-- The query, without the question mark before it. -/
  query : List Char
  deriving DecidableEq, Repr

namespace Target

/-- What comes after the scheme and the host of a whole address. -/
def afterHost (address : List Char) : List Char :=
  match Text.cutAt ':' address with
  | some (_, '/' :: '/' :: rest) => rest.dropWhile fun c => c ≠ '/' && c ≠ '?'
  | _ => address

/-- Read a request target. An address without a path has the root path. -/
def parse (target : String) : Target :=
  let visible := target.toList.takeWhile (· ≠ '#')
  let relative := if visible.head? = some '/' then visible else afterHost visible
  let (path, query) := (Text.cutAt '?' relative).getD (relative, [])
  ⟨if path = [] then ['/'] else path, query⟩

end Target

end Listing.Http
