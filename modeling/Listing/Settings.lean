import Listing.Json.Basic

/-!
# Settings of list endpoints

The limits and defaults with which parameters are read, and what one endpoint adds to every
request.
-/

namespace Listing

/-- Limits and defaults for reading parameters. -/
structure Settings where
  /-- The page size when none or an unusable one is given. -/
  defaultLimit : Nat := 20
  /-- The largest page size. -/
  maxLimit : Nat := 1000
  /-- The sort when none is given. -/
  defaultSort : String := "-createdAt"
  /-- How many characters of a search term count. -/
  maxSearchLength : Nat := 10000
  deriving DecidableEq, Repr

namespace Settings

/-- The settings with page sizes of at least one. -/
def positive (settings : Settings) : Settings :=
  { settings with
    defaultLimit := max settings.defaultLimit 1
    maxLimit := max settings.maxLimit 1 }

end Settings

/-- What an endpoint adds to every request. -/
structure Endpoint where
  /-- Equalities that hold of every listed document. -/
  baseFilter : Keyed Json := []
  /-- They stand in the order of their fields, each field once. -/
  ordered : Keyed.Ordered baseFilter := by exact List.Pairwise.nil
  /-- The fields whose references are replaced by the documents they name. -/
  expansions : List String := []
  /-- The fields that a search looks into. -/
  searchFields : List String := []

namespace Endpoint

/-- Require a field to equal a value, in the place of what was required of it before. -/
def require (endpoint : Endpoint) (field : String) (value : Json) : Endpoint :=
  { endpoint with
    baseFilter := Keyed.insertSorted endpoint.baseFilter field value
    ordered := Keyed.ordered_insertSorted endpoint.ordered field value }

end Endpoint

end Listing
