import ManifestVariables.ConfigServer.Basic
import ManifestVariables.Json.Parser
import ManifestVariables.Json.Printer
import ManifestVariables.Program
import ManifestVariables.Variable.Basic

/-!
# Reading the config server's answers

Each kind of request is one call and one way to read its outcome. A lookup by
name is answered by a list whose first entry counts, a lookup by id and a
generation by one entry. An entry is an object with an id, which is a text or a
number, and a value, which may be null. Readers are plain functions of the
outcome; the programs at the end ask the call and read the answer.
-/

namespace ManifestVariables.Client

/-- What every failed lookup of a name starts with. -/
def lookupFailure (name : String) : String :=
  s!"Failed to fetch variable '{name}' from config server"

/-- The text of an error answer: its error field if it has one, all of it
otherwise. -/
def errorText (body : String) : String :=
  match (Json.parseRecord? ["error"] body).bind fun record =>
      record.required 0 "error" Json.text? with
  | some text => text
  | none => body

/-- The body of an answer to a lookup whose status is one of success. -/
def lookupBody (name : String) (response : Response) : Except ServerError String :=
  if response.isSuccess then .ok response.body
  else if response.status = 404 then
    .error (.notFound
      s!"Failed to find variable '{name}' from config server: HTTP Code '404', Error: 'Name not found'")
  else
    .error (.fetch
      s!"{lookupFailure name}: HTTP Code '{response.status}', Error: '{errorText response.body}'")

/-- An id: a text, or a number as it is written. -/
def id? : Json → Option VariableId
  | .str text => some text
  | .int value => some (toString value)
  | .float value => some (Json.number value)
  | _ => none

/-- Reads an entry, or says what it lacks; `label` names the entry. The name is the
requested one where the entry has none. -/
def readEntry (entry : Keyed String Json) (requested label : String) :
    Except String Variable :=
  match (Keyed.get? entry "id").bind id?, Keyed.get? entry "value" with
  | none, _ => .error s!"Expected {label} to have key 'id'"
  | some _, none => .error s!"Expected {label} to have key 'value'"
  | some id, some value =>
    .ok { id, name := ((Keyed.get? entry "name").bind Json.text?).getD requested, value }

/-- The list of an answer to a lookup by name; `none` where it is no such record. -/
def lookupData? (body : String) : Option (Option Json) := do
  let record ← Json.parseRecord? ["data"] body
  record.optional Json.format 0 "data" some

/-- The first entry of an answer to a lookup by name, or what is wrong with it. -/
def firstEntry (body : String) : Except String (Keyed String Json) :=
  match lookupData? body with
  | none => .error "Invalid JSON response"
  | some (some (.arr (first :: _))) =>
    match first with
    | .obj entry => .ok entry
    | _ => .error "Expected data[0] to be a hash"
  | some (some (.arr [])) => .error "Expected data to be non empty array"
  | some _ => .error "Expected data to be an array"

/-- A failed lookup with its detail. -/
def fetchError (name detail : String) : ServerError :=
  .fetch s!"{lookupFailure name}: {detail}"

/-- The latest version of a name, from the outcome of its lookup. -/
def readByName (name : String) (outcome : Outcome) : Except ServerError Variable := do
  let response ← outcome.mapError ServerError.transport
  let body ← lookupBody name response
  let entry ← (firstEntry body).mapError (fetchError name)
  (readEntry entry name "data[0]").mapError (fetchError name)

/-- One version of a name, from the outcome of its lookup by id. The result has the
id that was asked for, whatever the answer calls itself. -/
def readById (name : String) (id : VariableId) (outcome : Outcome) :
    Except ServerError Variable := do
  let response ← outcome.mapError ServerError.transport
  let body ← lookupBody name response
  match Json.parse? body with
  | some (.obj entry) =>
    let found ← (readEntry entry name "data").mapError (fetchError name)
    return { found with id }
  | _ => throw (fetchError name "Invalid JSON response")

/-- The generated version, from the outcome of a generation call. -/
def readGenerated (request : GenerationRequest) (outcome : Outcome) :
    Except ServerError Variable := do
  let response ← outcome.mapError ServerError.transport
  let name := request.name
  let type := request.type
  if !response.isSuccess then
    throw (.generation
      s!"Config Server failed to generate value for '{name}' with type '{type}'. HTTP Code '{response.status}', Error: '{errorText response.body}'")
  match Json.parse? response.body with
  | some (.obj entry) =>
    (readEntry entry name "response").mapError fun detail =>
      .generation s!"Failed to generate variable '{name}' with type '{type}': {detail}"
  | _ =>
    throw (.generation
      s!"Config Server returned a NON-JSON body while generating value for '{name}' with type '{type}'")

/-- Whether there is any version of a name, from the outcome of its lookup. -/
def readStored (name : String) (outcome : Outcome) : Except ServerError Bool :=
  match readByName name outcome with
  | .ok _ => .ok true
  | .error (.notFound _) => .ok false
  | .error other => .error other

/-- The questions of a client: calls, each answered by its outcome. -/
def Calls : Interface := ⟨Call, fun _ => Outcome⟩

/-- Asks for the latest version of a name. -/
def getByName (name : String) : Program Calls (Except ServerError Variable) :=
  .ask (.get name : Call) fun outcome => .done (readByName name outcome)

/-- Asks for one version of a name. -/
def getById (name : String) (id : VariableId) : Program Calls (Except ServerError Variable) :=
  .ask (.getById id : Call) fun outcome => .done (readById name id outcome)

/-- Asks for the generation of a value. -/
def generate (request : GenerationRequest) : Program Calls (Except ServerError Variable) :=
  .ask (.post request.encode : Call) fun outcome => .done (readGenerated request outcome)

/-- Asks whether there is any version of a name. -/
def isStored (name : String) : Program Calls (Except ServerError Bool) :=
  .ask (.get name : Call) fun outcome => .done (readStored name outcome)

end ManifestVariables.Client
