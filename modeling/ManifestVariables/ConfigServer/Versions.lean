import ManifestVariables.ConfigServer.Basic
import ManifestVariables.Json.Printer
import ManifestVariables.Variable.Basic

/-!
# A config server in memory

The config server keeps every version of every name. Ids count up from one and are
never used again, so an id always leads to the value that was once reported under
it. A generation may be answered by an earlier version, as its mode says.
-/

namespace ManifestVariables

/-- A version and the parameters that it was generated with. -/
structure StoredVersion where
  version : Variable
  parameters : Json

/-- All versions, the oldest first. -/
abbrev Versions := List StoredVersion

namespace Versions

/-- The id of the version that is stored next. -/
def nextId (versions : Versions) : VariableId :=
  toString (versions.length + 1)

/-- The latest version of a name. -/
def latest? (versions : Versions) (name : String) : Option StoredVersion :=
  (versions.filter fun stored => stored.version.name = name).getLast?

/-- The version of an id. -/
def byId? (versions : Versions) (id : VariableId) : Option Variable :=
  (versions.find? fun stored => stored.version.id = id).map StoredVersion.version

/-- The versions with one more. -/
def store (versions : Versions) (name : String) (value parameters : Json) :
    Variable × Versions :=
  let version : Variable := { id := versions.nextId, name, value }
  (version, versions ++ [⟨version, parameters⟩])

/-- A version as it is written in an answer. -/
def entry (version : Variable) : Json :=
  .obj [("id", .str version.id), ("name", .str version.name), ("value", version.value)]

/-- The answer to a lookup that finds nothing. -/
def missing : Response :=
  ⟨404, Json.compact (.obj [("error", .str "Name not found")])⟩

/-- The answer that consists of one value. -/
def found (body : Json) : Response :=
  ⟨200, body.compact⟩

/-- The value generated for a type under an id. -/
def generatedValue (type : String) (id : VariableId) : Json :=
  if type = "certificate" then
    .obj [("ca", .str ("ca-" ++ id)), ("private_key", .str ("key-" ++ id))]
  else .str ("secret-" ++ id)

/-- The version that a generation may be answered with instead of a new one. -/
def reusable? (versions : Versions) (name mode : String) (parameters : Json) :
    Option Variable :=
  match versions.latest? name with
  | none => none
  | some stored =>
    if mode = "no-overwrite" then some stored.version
    else if mode = "converge" ∧ stored.parameters.same parameters then some stored.version
    else none

/-- The version that answers a generation. -/
def generate (versions : Versions) (name type mode : String) (parameters : Json) :
    Variable × Versions :=
  match versions.reusable? name mode parameters with
  | some version => (version, versions)
  | none => versions.store name (generatedValue type versions.nextId) parameters

/-- A text field of a posted body. -/
def textField (body : Json) (key : String) : String :=
  ((body.get? key).bind Json.text?).getD ""

/-- Answers a call. -/
def respond (call : Call) (versions : Versions) : Response × Versions :=
  match call with
  | .get name =>
    match versions.latest? name with
    | some stored => (found (.obj [("data", .arr [entry stored.version])]), versions)
    | none => (missing, versions)
  | .getById id =>
    match versions.byId? id with
    | some version => (found (entry version), versions)
    | none => (missing, versions)
  | .post body =>
    let generated := versions.generate (textField body "name") (textField body "type")
      (textField body "mode") ((body.get? "parameters").getD .null)
    (found (entry generated.1), generated.2)

end Versions

end ManifestVariables
