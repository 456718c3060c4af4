import ManifestVariables.Event.Timestamp
import ManifestVariables.Variable.Basic

/-!
# Audit events

Every creation of a variable, and every failed one, leaves an audit event with
the variable, the mode that was asked for and on whose behalf it was done.
-/

namespace ManifestVariables

/-- A record of something that was done, or that failed. -/
structure Event where
  user : String
  action : String
  objectType : String
  objectName : String
  task : Option String
  deployment : String
  instanceName : Option String
  context : Json
  failure : Option String

namespace Event

/-- The parts that the events of variables have in common. -/
def ofVariable (request : RequestContext) (deployment name : String) (context : Json)
    (failure : Option String) : Event where
  user := request.actor
  action := "create"
  objectType := "variable"
  objectName := name
  task := request.task
  deployment := deployment
  instanceName := none
  context := context
  failure := failure

/-- A value was generated, or the id of an earlier one was used again. -/
def created (request : RequestContext) (deployment name : String) (id : VariableId)
    (mode : UpdateMode) (latestVersion : Bool) : Event :=
  ofVariable request deployment name
    (.obj [("id", .str id), ("name", .str name), ("update_strategy", mode.encode),
      ("latest_version", .bool latestVersion)]) none

/-- A value could not be generated. -/
def failed (request : RequestContext) (deployment name : String) (mode : UpdateMode)
    (failure : String) : Event :=
  ofVariable request deployment name
    (.obj [("name", .str name), ("update_strategy", mode.encode)]) (some failure)

/-- Whether the variable of the event was generated for it. -/
def latestVersion? (event : Event) : Option Bool :=
  (event.context.get? "latest_version").bind Json.flag?

/-- The id that the event is about. -/
def variableId? (event : Event) : Option VariableId :=
  (event.context.get? "id").bind Json.text?

/-- A text or null. -/
def textOrNull : Option String → Json
  | some text => .str text
  | none => .null

/-- Writes an event without its time. -/
def encode (event : Event) : Json :=
  .obj [("user", .str event.user), ("action", .str event.action),
    ("object_type", .str event.objectType), ("object_name", .str event.objectName),
    ("task", textOrNull event.task), ("deployment", .str event.deployment),
    ("instance", textOrNull event.instanceName), ("context", event.context),
    ("error", textOrNull event.failure)]

/-- The fields of a written event, in order. -/
def fieldNames : List String :=
  ["user", "action", "object_type", "object_name", "task", "deployment", "instance", "context",
    "error", "timestamp"]

/-- Reads an event, which must say when it happened. -/
def decode? {ν : Type} (format : DataFormat ν) (value : ν) : Option Event := do
  let record ← format.record? fieldNames value
  let time ← record.required 9 "timestamp" format.text?
  if !Timestamp.isInstant time then none
  return {
    user := ← record.required 0 "user" format.text?
    action := ← record.required 1 "action" format.text?
    objectType := ← record.required 2 "object_type" format.text?
    objectName := ← record.required 3 "object_name" format.text?
    task := ← record.optionalIfNamed format 4 "task" format.text?
    deployment := ← record.required 5 "deployment" format.text?
    instanceName := ← record.optionalIfNamed format 6 "instance" format.text?
    context := ← record.required 7 "context" format.json?
    failure := ← record.optionalIfNamed format 8 "error" format.text? }

end Event

end ManifestVariables
