import Listing.Settings
import Listing.Text.Blank
import Listing.Text.Natural

/-!
# Pages of a listing

A request names a page and its size, and may say itself how many documents to skip. Values that
cannot be used count as absent. The page information of an answer follows from the request and
the number of matching documents.
-/

namespace Listing

/-- The part of a listing that is asked for. -/
structure Pagination where
  /-- The page, from one. -/
  page : Nat
  /-- The largest number of documents on the page. -/
  limit : Nat
  /-- How many documents come before the page. -/
  skip : Nat
  deriving DecidableEq, Repr

namespace Pagination

/-- A count in a parameter, blanks at its ends aside. -/
def count? (text : String) : Option Nat := Text.count? (Text.trimChars text.toList)

/-- A count other than zero in a parameter. -/
def positive? (text : String) : Option Nat := (count? text).filter (0 < ·)

/-- Read the parameters of pagination. The page is the first one by default, the limit lies between
one and the largest page size, and without a usable `skip` the earlier pages are skipped, as far as
their documents can be counted. -/
def parse (page limit skip : Option String) (settings : Settings) : Pagination :=
  let page := (page.bind positive?).getD 1
  let limit := min (max ((limit.bind positive?).getD settings.defaultLimit) 1) (max settings.maxLimit 1)
  let skip := (skip.bind count?).getD (min ((page - 1) * limit) Text.maxCount)
  { page, limit, skip }

end Pagination

/-- What the client is told about a page. -/
structure PageInfo where
  /-- The page, from one. -/
  currentPage : Nat
  /-- The largest number of documents on a page. -/
  perPage : Nat
  /-- How many pages the listing fills. -/
  pageCount : Nat
  /-- How many documents come before the page. -/
  skipCount : Nat
  /-- How many documents match. -/
  itemCount : Nat
  /-- Whether a later page has documents. -/
  hasNextPage : Bool
  /-- Whether there is an earlier page. -/
  hasPreviousPage : Bool
  deriving DecidableEq, Repr

namespace PageInfo

/-- The number of pages of a size that hold some documents, the last one perhaps not full. A size
of zero counts as one. -/
def pagesFor (limit itemCount : Nat) : Nat := (itemCount + (max limit 1 - 1)) / max limit 1

/-- The page information for a number of matching documents. -/
def of (pagination : Pagination) (itemCount : Nat) : PageInfo where
  currentPage := pagination.page
  perPage := pagination.limit
  pageCount := pagesFor pagination.limit itemCount
  skipCount := pagination.skip
  itemCount := itemCount
  hasNextPage := pagination.page < pagesFor pagination.limit itemCount
  hasPreviousPage := 1 < pagination.page

/-- Page information as a JSON object. -/
def toJson (info : PageInfo) : Json :=
  .object
    [("currentPage", .ofCount info.currentPage), ("perPage", .ofCount info.perPage),
     ("pageCount", .ofCount info.pageCount), ("skipCount", .ofCount info.skipCount),
     ("itemCount", .ofCount info.itemCount), ("hasNextPage", .bool info.hasNextPage),
     ("hasPreviousPage", .bool info.hasPreviousPage)]

end PageInfo

/-- A page of a listing with its page information. -/
structure Page where
  /-- The documents of the page. -/
  documents : List Json
  /-- The page information. -/
  pageInfo : PageInfo

/-- A page as the JSON object of an answer. -/
def Page.toJson (page : Page) : Json :=
  .object
    [("status", .text "success"), ("data", .array page.documents),
     ("pageInfo", page.pageInfo.toJson)]

end Listing
