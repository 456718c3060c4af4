import ManifestVariables.ConfigServer.Basic
import ManifestVariables.Http.Base64
import ManifestVariables.Http.Url

/-!
# Requests

A request is prepared before it is sent: its URL must be one of the web, and what
it says about who is asking must fit a header. A user named in the URL is taken
out of it and named in a header instead.
-/

namespace ManifestVariables.Http

/-- What a request does. -/
inductive Method where
  | get
  | post
deriving DecidableEq, Repr

/-- A request that can be sent. -/
structure Request where
  method : Method
  url : Url
  /-- The headers that say who is asking. -/
  authorization : List String
  accept : Option String
  contentType : Option String
  body : Option String
deriving DecidableEq, Repr

/-- Why a request got no answer. -/
inductive NetworkError where
  | refused
  | timedOut
  /-- The connection broke before there was an answer. -/
  | broken
deriving DecidableEq, Repr

/-- The header for a user and a password. -/
def basic (user password : String) : String :=
  "Basic " ++ String.ofList (Base64.encode (user ++ ":" ++ password).toUTF8.toList)

/-- The header for a token. -/
def bearer (token : String) : String := "Bearer " ++ token

/-- Whether a text can be a header: it has no control characters but tabs. -/
def fitsHeader (text : String) : Bool :=
  text.toList.all fun c => c = '\t' || (0x20 ≤ c.toNat && c.toNat ≠ 0x7f)

/-- The header for the user that a URL names. -/
def userHeader? (url : Url) : Option String := do
  let password := match url.password with
    | some password => Percent.decodeText? password.toList
    | none => none
  let user ← Percent.decodeText? url.username.toList
  if user.isEmpty && password.isNone then none else some (basic user (password.getD ""))

/-- A URL without the user it names. -/
def withoutUser (url : Url) : Url :=
  if (userHeader? url).isSome then { url with username := "", password := none } else url

/-- Whether a request can be made to a URL. -/
def isRequestable (url : Url) : Bool :=
  ["http", "https"].contains url.scheme && match url.host with
    | some (.domain name) => !name.toList.any ['"', '\x60', '\x7b', '\x7d'].contains
    | some _ => true
    | none => false

/-- A failure to prepare a request. -/
def unprepared : TransportError := .request "builder error"

/-- A request to a URL with headers that say who is asking. -/
def prepare (method : Method) (url : Url) (authorization : List String)
    (accept contentType body : Option String) : Except TransportError Request :=
  if !authorization.all fitsHeader then .error unprepared
  else if !isRequestable url then .error (.request s!"builder error for url ({url.text})")
  else .ok ⟨method, withoutUser url, (userHeader? url).toList ++ authorization, accept,
    contentType, body⟩

/-- What a request without an answer means for a call. -/
def Request.failure (request : Request) (cause : NetworkError) : TransportError :=
  let detail := s!"error sending request for url ({request.url.text})"
  match cause with
  | .refused => .connection detail
  | .timedOut => .timeout detail
  | .broken => .request detail

end ManifestVariables.Http
