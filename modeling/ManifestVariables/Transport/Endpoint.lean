import ManifestVariables.Json.Printer
import ManifestVariables.Machine.Basic

/-!
# The data API

Calls to the config server become requests to its data API. A variable is asked
for by its name, segment by segment, or by its id as one segment behind `id`; a
generation is posted to the API itself. The id is escaped so that it stays one
segment whatever it contains.
-/

namespace ManifestVariables

/-- The data API at a base URL. -/
structure Endpoint where
  base : String
deriving DecidableEq, Repr

namespace Endpoint

/-- The data API at a URL, slashes at its end left out. -/
def ofUrl (url : String) : Endpoint :=
  ⟨String.ofList ((url.toList.reverse.dropWhile (· = '/')).reverse)⟩

/-- The URL of segments below the base. -/
def url (endpoint : Endpoint) (segments : List (List Char)) : Except TransportError Url :=
  match Url.parse endpoint.base.toList with
  | .error e =>
    .error (.configuration s!"Invalid config server URL '{endpoint.base}': {e.message}")
  | .ok url =>
    match url.extend? segments with
    | some url => .ok url
    | none =>
      .error (.configuration s!"Config server URL '{endpoint.base}' cannot carry a path")

/-- The segments of a name. -/
def nameSegments (name : String) : List (List Char) :=
  (Text.pieces '/' name.toList).filter (!·.isEmpty)

/-- The segments that ask for an id. -/
def idSegments (id : String) : List (List Char) := [['i', 'd'], id.toList]

/-- The request that a call becomes. -/
def request (endpoint : Endpoint) (call : Call) (bearer : Option String) :
    Except TransportError Http.Request :=
  let authorization := (bearer.map Http.bearer).toList
  match call with
  | .get name =>
    match endpoint.url (nameSegments name) with
    | .ok url => Http.prepare .get url authorization none none none
    | .error failure => .error failure
  | .getById id =>
    match endpoint.url (idSegments id) with
    | .ok url => Http.prepare .get url authorization none none none
    | .error failure => .error failure
  | .post body =>
    match Url.parse endpoint.base.toList with
    | .ok url =>
      Http.prepare .post url authorization none (some "application/json") (some body.compact)
    | .error _ => .error Http.unprepared

/-- Sends a request and tells what came of it. -/
def exchange (request : Except TransportError Http.Request) : Machine.Action Outcome :=
  match request with
  | .error failure => .done (.error failure)
  | .ok request =>
    .ask (.exchange request : Machine.Need) fun reply : Except Http.NetworkError Response =>
      .done (reply.mapError request.failure)

/-- Makes a call. -/
def send (endpoint : Endpoint) (call : Call) (bearer : Option String) :
    Machine.Action Outcome :=
  exchange (endpoint.request call bearer)

end Endpoint

end ManifestVariables
