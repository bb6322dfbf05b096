import Listing.Http.Form
import Listing.Http.Target
import Listing.Request

/-!
# List endpoints over HTTP

An endpoint lists one collection at the root path. It answers with the page as JSON, or with the
message of a failure.
-/

namespace Listing.Http

/-- The status and the text of an answer. -/
structure Response where
  /-- The status. -/
  status : Nat
  /-- The text, empty when there is none. -/
  body : String
  deriving DecidableEq, Repr

namespace Response

/-- An answer without text. -/
def empty (status : Nat) : Response := ⟨status, ""⟩

/-- The answer to a failed request. -/
def ofError (e : Failure) : Response := ⟨e.status, (Json.single "error" (.text e.message)).compact⟩

/-- The answer to a list request. -/
def ofResult : Except Failure Page → Response
  | .ok page => ⟨200, page.toJson.compact⟩
  | .error e => ofError e

end Response

/-- Answer a request. Only the root path exists, and it can only be read: `HEAD` asks the store as
`GET` does and leaves out the text. -/
def respond (store : Store) (name method target : String) (endpoint : Endpoint)
    (settings : Settings) : Response × Store :=
  let target := Target.parse target
  if target.path ≠ ['/'] then (.empty 404, store)
  else if method = "GET" ∨ method = "HEAD" then
    let (result, after) := store.list name (Form.parse target.query) endpoint settings
    let response := Response.ofResult result
    (if method = "HEAD" then .empty response.status else response, after)
  else (.empty 405, store)

end Listing.Http
