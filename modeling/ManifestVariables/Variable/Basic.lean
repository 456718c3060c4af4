import ManifestVariables.Record

/-!
# Variables

A variable is one stored version of a named value; its id names that version for
ever. A generation request asks the config server for a new version, under a mode
that says when an existing one is kept.
-/

namespace ManifestVariables

/-- The name of one stored version, given by the config server. -/
abbrev VariableId := String

/-- One stored version of a named value. -/
structure Variable where
  id : VariableId
  name : String
  value : Json

/-- When generating may replace the version that is there. -/
inductive UpdateMode where
  | noOverwrite
  | overwrite
  | converge
  | onStemcellChange
deriving DecidableEq, Repr, Inhabited

namespace UpdateMode

/-- The name of a mode in messages and records. -/
def text : UpdateMode → String
  | noOverwrite => "no-overwrite"
  | overwrite => "overwrite"
  | converge => "converge"
  | onStemcellChange => "on-stemcell-change"

/-- The mode of a name. -/
def ofText? : String → Option UpdateMode
  | "no-overwrite" => some noOverwrite
  | "overwrite" => some overwrite
  | "converge" => some converge
  | "on-stemcell-change" => some onStemcellChange
  | _ => none

/-- Reads a mode written as a choice. -/
def decode? {ν : Type} (format : DataFormat ν) (value : ν) : Option UpdateMode :=
  (format.choice? value).bind ofText?

/-- Writes a mode. -/
def encode (mode : UpdateMode) : Json :=
  .str mode.text

theorem ofText?_text (mode : UpdateMode) : ofText? mode.text = some mode := by
  cases mode <;> rfl

end UpdateMode

/-- What the config server is asked to generate. -/
structure GenerationRequest where
  name : String
  type : String
  parameters : Json
  mode : UpdateMode

namespace GenerationRequest

/-- The fields of a written request, in order. -/
def fieldNames : List String :=
  ["name", "type", "parameters", "mode"]

/-- Reads a request; no field may be missing. -/
def decode? {ν : Type} (format : DataFormat ν) (value : ν) : Option GenerationRequest := do
  let record ← format.record? fieldNames value
  return {
    name := ← record.required 0 "name" format.text?
    type := ← record.required 1 "type" format.text?
    parameters := ← record.required 2 "parameters" format.json?
    mode := ← record.required 3 "mode" (UpdateMode.decode? format) }

/-- Writes a request, which is the body of a generation call. -/
def encode (request : GenerationRequest) : Json :=
  .obj [("name", .str request.name), ("type", .str request.type),
    ("parameters", request.parameters), ("mode", request.mode.encode)]

end GenerationRequest

/-- On whose behalf something is done; audit events carry it. -/
structure RequestContext where
  actor : String
  task : Option String
deriving DecidableEq, Repr

end ManifestVariables
