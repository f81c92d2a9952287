import Scim.Http.Session
import Scim.Text.CharClass

/-!
# Clients of a server

A client addresses one server: it knows its address, how to authenticate and how long to wait. When
the server asks it to slow down it pauses for as long as the server says and sends the same request
again, a limited number of times.
-/

namespace Scim.Http

open Number (Double Numeric)

/-- How a client checks the certificate of a server. -/
inductive Verification where
  /-- Against the authorities that the system trusts. -/
  | standard
  /-- Not at all. -/
  | off
  /-- Against the authorities in a file. -/
  | bundle (path : String)
  deriving DecidableEq

/-- What a client is configured with. A text that is empty counts as not given. -/
structure Settings where
  token : Option String := none
  username : Option String := none
  password : Option String := none
  skipVerification : Bool := false
  caBundle : Option String := none
  timeout : Json := .int 30

/-- A client of one server. -/
structure Client where
  /-- The address of the server, which does not end in a slash. -/
  baseUrl : String
  token : Option String
  /-- User name and password, if the client authenticates with them. -/
  credentials : Option (String × String)
  verification : Verification
  timeout : Json

namespace Client

/-- A text that is not empty. -/
def given (text : Option String) : Option String := text.filter (· ≠ "")

/-- A client with some settings. A token takes precedence over a user name with a password, and a
file of authorities over skipping the check. -/
def ofSettings (baseUrl : String) (settings : Settings) : Client where
  baseUrl := Text.trimEnd (· == '/') baseUrl
  token := given settings.token
  credentials :=
    match given settings.token, given settings.username, given settings.password with
    | none, some username, some password => some (username, password)
    | _, _, _ => none
  verification :=
    match given settings.caBundle with
    | some path => .bundle path
    | none => if settings.skipVerification then .off else .standard
  timeout := settings.timeout

/-- How often a request is sent again at most. -/
def maxRetries : Nat := 3

/-- The pause, in seconds, if a server states none. -/
def defaultPause : Numeric := .int 2

/-- A number of seconds; what is not above zero counts as zero. -/
def atLeastZero (seconds : Double) : Double :=
  if Numeric.order? (.double (.zero false)) (.double seconds) == some .lt then seconds
  else .zero false

/-- The pause that a server asks for. A text that is no number is ignored. -/
def pauseOf (stated : Option String) : Numeric :=
  match stated with
  | none | some "" => defaultPause
  | some text =>
    match Number.readDouble? text with
    | some seconds => .double (atLeastZero seconds)
    | none => defaultPause

/-- Sends a request, again after a pause while the server asks to slow down and retries are left. -/
def exchange (request : Request) : Nat → StateM Session Response
  | 0 => Session.send request
  | retries + 1 => do
    let response ← Session.send request
    if response.status = 429 then
      Session.pause (pauseOf (response.header? "Retry-After"))
      exchange request retries
    else return response

/-- The headers of a request. Extra headers replace those of the same spelling. -/
def headers (client : Client) (extra : Members) : Members :=
  let standard : Members :=
    [("Accept", .str "application/scim+json"), ("Content-Type", .str "application/scim+json")]
  let authorized := match client.token with
    | some token => standard ++ [("Authorization", .str ("Bearer " ++ token))]
    | none => standard
  extra.foldl (fun headers (name, value) => Members.set headers name value) authorized

/-- A request for a path of the server. A payload that is null is no payload. -/
def request (client : Client) (method path : String) (payload : Json) (params : Json)
    (extra : Members) : Request where
  method := method
  url := client.baseUrl ++ path
  headers := client.headers extra
  body := if payload.isNull then none else some payload.compact
  params := params
  timeout := client.timeout

/-- Sends a request for a path of the server. -/
def send (client : Client) (method path : String) (payload : Json := .null)
    (params : Json := .null) (extra : Members := []) : StateM Session Response :=
  exchange (client.request method path payload params extra) maxRetries

/-- Headers as they may be shown, with the means of authorization hidden. -/
def redact (headers : Members) : Members :=
  headers.map fun (name, value) =>
    (name, if Text.lower name = "authorization" then .str "***REDACTED***" else value)

end Client

end Scim.Http
