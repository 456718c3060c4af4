import ManifestVariables.Json.Basic

/-!
# The config server

The config server holds the values of variables. It is reached through three
calls: the latest version of a name, one version by its id, and the generation of
a value. A call is answered by a status and a body, or fails in one of six ways,
of which only the failures of the connection itself may pass when tried again.
-/

namespace ManifestVariables

/-- A call to the config server. -/
inductive Call where
  | get (name : String)
  | getById (id : String)
  | post (body : Json)

/-- What the config server answered. -/
structure Response where
  status : Nat
  body : String
deriving DecidableEq, Repr

/-- Whether the status is one of success. -/
def Response.isSuccess (response : Response) : Bool :=
  200 ≤ response.status ∧ response.status < 300

theorem Response.isSuccess_iff {response : Response} :
    response.isSuccess = true ↔ 200 ≤ response.status ∧ response.status < 300 :=
  decide_eq_true_iff

/-- Whether the status refuses the token. -/
def Response.isUnauthorized (response : Response) : Bool :=
  response.status = 401

/-- Why a call got no answer. -/
inductive TransportError where
  | connection (detail : String)
  | timeout (detail : String)
  /-- The token was refused even after it was renewed. -/
  | unauthorized (detail : String)
  | tokenRequest (detail : String)
  | request (detail : String)
  | configuration (detail : String)
deriving DecidableEq, Repr

namespace TransportError

/-- The text shown for a transport error. -/
def message : TransportError → String
  | connection detail => s!"Connection to config server failed: {detail}"
  | timeout detail => s!"Timed out while communicating with config server: {detail}"
  | unauthorized detail => s!"Not authorized by config server: {detail}"
  | tokenRequest detail => s!"Failed to obtain config server access token: {detail}"
  | request detail => s!"Config server request failed: {detail}"
  | configuration detail => s!"Invalid config server transport configuration: {detail}"

/-- Whether the failure was one of the connection, which may pass. -/
def isRetryable : TransportError → Bool
  | connection _ | timeout _ => true
  | _ => false

end TransportError

/-- The outcome of a call. -/
abbrev Outcome := Except TransportError Response

/-- Why the config server gave no variable. -/
inductive ServerError where
  /-- There is no variable of the name. -/
  | notFound (text : String)
  /-- A lookup was answered by a failure or by something malformed. -/
  | fetch (text : String)
  /-- A generation was answered by a failure or by something malformed. -/
  | generation (text : String)
  | transport (error : TransportError)
deriving DecidableEq, Repr

namespace ServerError

/-- The text shown for a server error. -/
def message : ServerError → String
  | notFound text | fetch text | generation text => text
  | transport error => error.message

/-- Whether the error concerns one variable only, so that it is reported along
with those of other variables. -/
def isReportable : ServerError → Bool
  | notFound _ | fetch _ => true
  | _ => false

end ServerError

end ManifestVariables
