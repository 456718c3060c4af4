import ManifestVariables.Http.Status
import ManifestVariables.Settings.Environment
import ManifestVariables.Text.Quoted
import ManifestVariables.Transport.Endpoint
import ManifestVariables.Transport.Layer
import ManifestVariables.Transport.Token

/-!
# The connection that the settings describe

`Settings.connect` looks at the certificates and secrets that the settings name,
and puts together the data API, the source of tokens and the layers: tokens, if
there are any, inside retries. `Connection.call` makes a call through them.
-/

namespace ManifestVariables

/-- A client that is granted tokens, its secret put in. -/
structure GrantedClient where
  tokenUrl : String
  id : String
  secret : String
deriving DecidableEq, Repr

/-- Where the tokens of a connection come from. -/
inductive TokenSource where
  | none
  | fixed (token : String)
  | granted (client : GrantedClient)
deriving DecidableEq, Repr

/-- All that is needed to call the config server. -/
structure Connection where
  endpoint : Endpoint
  tokens : TokenSource
  layers : List Layer
deriving DecidableEq, Repr

/-- Why there is no connection. -/
inductive ConnectionError where
  | transport (failure : TransportError)
  | secret (missing : MissingSecret)
deriving DecidableEq, Repr

/-- The text shown where there is no connection. -/
def ConnectionError.message : ConnectionError → String
  | transport failure => failure.message
  | secret missing => missing.message

namespace Settings

/-- Looks at a file of certificates. -/
def readCertificates (path : Option String) : Machine.Action (Except ConnectionError Unit) :=
  match path with
  | none => .done (.ok ())
  | some path =>
    (Machine.read path).andThen fun
      | .ok _ => .done (.ok ())
      | .error .notText => .done (.ok ())
      | .error cause =>
        let file := Quoted.path path
        .done (.error (.transport (.configuration
          s!"Failed to read CA certificate {file}: {cause.message}")))

/-- The source of tokens, its secret put in. -/
def tokenSource (auth : AuthSettings) (environment : Environment) :
    Except MissingSecret TokenSource :=
  match auth with
  | .none => .ok .none
  | .static token => (environment.secret token).map .fixed
  | .clientCredentials client =>
    (environment.secret client.clientSecret).map fun secret =>
      .granted ⟨client.tokenUrl, client.clientId, secret⟩

/-- The certificates of the source of tokens. -/
def tokenCertificates : AuthSettings → Option String
  | .clientCredentials client => client.caCertPath
  | _ => none

/-- The layers around the data API, the outermost first. -/
def layers (settings : Settings) : List Layer :=
  let retry := settings.server.retry
  let backoff : Backoff :=
    if retry.backoffMs = 0 then .none else .exponential retry.backoffMs
  let auth : List Layer := if settings.auth = .none then [] else [.auth 0]
  .retry retry.maxAttempts backoff :: auth

/-- Puts the connection together. -/
def connect (settings : Settings) (environment : Environment) :
    Machine.Action (Except ConnectionError Connection) :=
  ExceptT.run do
    ExceptT.mk (readCertificates settings.server.caCertPath)
    ExceptT.mk (readCertificates (tokenCertificates settings.auth))
    let tokens ← ExceptT.mk (.done ((tokenSource settings.auth environment).mapError .secret))
    return ⟨.ofUrl settings.server.url, tokens, settings.layers⟩

end Settings

namespace GrantedClient

/-- The request for a grant. -/
def request (client : GrantedClient) : Except TransportError Http.Request :=
  match Url.parse client.tokenUrl.toList with
  | .ok url =>
    Http.prepare .post url [Http.basic client.id client.secret] (some "application/json")
      (some "application/x-www-form-urlencoded") (some "grant_type=client_credentials")
  | .error _ => .error Http.unprepared

/-- Answers what keeping tokens asks for. -/
def answer (client : GrantedClient) (need : TokenCache.Need) : Machine.Action need.Reply :=
  match need with
  | .now => .ask (.now : Machine.Need) fun now : Nat => .done now
  | .grant =>
    (Endpoint.exchange client.request).andThen fun outcome =>
      .done (outcome.map fun response => (response, Http.reason response.status))

end GrantedClient

namespace Connection

/-- A computation that keeps tokens and may crash. -/
abbrev Run := StateT TokenCache (ExceptT Crash (Program Machine.Needs))

/-- What the machine answers. -/
def fromMachine {α : Type} (program : Machine.Action α) : Run α :=
  fun cache => ExceptT.mk (program.andThen fun value => .done (.ok (value, cache)))

/-- A token from the kept grant or from a new one. -/
def grantedToken (client : GrantedClient)
    (token : TokenCache → Program TokenCache.Needs TokenCache.Answer) :
    Run (Except TransportError String) :=
  fun cache => ExceptT.mk ((token cache).translate client.answer)

/-- Answers what the layers ask for. -/
def answer (connection : Connection) (need : Transport.Need) : Run need.Reply :=
  match need, connection.tokens with
  | .send call bearer, _ => fromMachine (connection.endpoint.send call bearer)
  | .token _, .none => return .ok ""
  | .token _, .fixed token => return .ok token
  | .token _, .granted client => grantedToken client TokenCache.token
  | .refresh _, .none => return .ok ""
  | .refresh _, .fixed token => return .ok token
  | .refresh _, .granted client => grantedToken client TokenCache.refresh
  | .sleep milliseconds, _ =>
    fromMachine (.ask (.sleep milliseconds : Machine.Need) fun _ => .done ())

/-- Makes a call through the layers. -/
def call (connection : Connection) (call : Call) : Run Outcome :=
  (Layer.stack connection.layers call none).interpret connection.answer

end Connection

end ManifestVariables
