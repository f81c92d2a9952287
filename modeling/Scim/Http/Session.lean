import Scim.Error
import Scim.Json.Printer
import Scim.Json.Reader
import Scim.Text.Case

/-!
# Exchanges over HTTP

A session is a conversation with a server: the responses that the server has in store, and a record
of the requests that were sent and the pauses that were made. The server answers each request with
the next response and repeats the last one for ever.
-/

namespace Scim.Http

open Number (Numeric)

/-- A response of a server. -/
structure Response where
  status : Int
  headers : List (String × String)
  body : String

namespace Response

/-- Whether a response reports success. -/
def isOk (response : Response) : Bool := 200 ≤ response.status && response.status < 300

/-- The value of the first header with a name, in any letter case. -/
def header? (response : Response) (name : String) : Option String :=
  (response.headers.find? fun (header, _) => Text.lower header == Text.lower name).map (·.2)

/-- The body as a JSON value; an empty one is null. -/
def json (response : Response) : Except Fault Json :=
  if response.body = "" then .ok .null
  else
    match Json.read response.body with
    | .ok value => .ok value
    | .error (.malformed _ _) => .error .malformedJson
    | .error .integerTooLong => .error .badArgument

end Response

/-- A request as it is sent. Parameters and time limit are passed on as they were given. -/
structure Request where
  method : String
  url : String
  headers : Members
  body : Option String
  params : Json
  timeout : Json

/-- A conversation with a server. -/
structure Session where
  /-- The responses still to come. -/
  pending : List Response
  /-- The response that is repeated when no other is pending. -/
  last : Response
  /-- The requests sent so far. -/
  requests : List Request := []
  /-- The pauses made so far, in seconds. -/
  pauses : List Numeric := []

namespace Session

/-- A new conversation with a server that gives these responses, or successes without content if
there are none. -/
def ofResponses (responses : List Response) : Session :=
  { pending := responses, last := ⟨200, [], ""⟩ }

/-- Sends a request. -/
def send (request : Request) : StateM Session Response := do
  let session ← get
  let (response, pending) := match session.pending with
    | [] => (session.last, [])
    | response :: pending => (response, pending)
  set { session with pending, last := response, requests := session.requests ++ [request] }
  return response

/-- Pauses for some seconds. -/
def pause (seconds : Numeric) : StateM Session Unit :=
  modify fun session => { session with pauses := session.pauses ++ [seconds] }

end Session

end Scim.Http
