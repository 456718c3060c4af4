import ManifestVariables.Variable.Basic

/-!
# Declared variables

A deployment declares the variables that are generated for it: their names, their
types, the options of the type, and, for certificates, the links whose addresses
become names of the certificate.
-/

namespace ManifestVariables

/-- A link that a declared variable consumes. -/
structure ConsumedLink where
  /-- The name of the link. -/
  source : String
  /-- Whether the address stands for all its siblings. -/
  wildcard : Bool
deriving DecidableEq, Repr

namespace ConsumedLink

/-- Reads the properties of a consumed link, whose only field defaults to false. -/
def decodeWildcard? {ν : Type} (format : DataFormat ν) (value : ν) : Option Bool := do
  let record ← format.record? ["wildcard"] value
  record.defaulted 0 "wildcard" false format.flag?

/-- Reads a consumed link. -/
def decode? {ν : Type} (format : DataFormat ν) (value : ν) : Option ConsumedLink := do
  let record ← format.record? ["from", "properties"] value
  return {
    source := ← record.required 0 "from" format.text?
    wildcard := ← record.defaulted 1 "properties" false (decodeWildcard? format) }

/-- Writes a consumed link with all its fields. -/
def encode (link : ConsumedLink) : Json :=
  .obj [("from", .str link.source), ("properties", .obj [("wildcard", .bool link.wildcard)])]

end ConsumedLink

/-- A declared variable. -/
structure Declaration where
  name : String
  type : String
  options : Keyed String Json
  /-- The consumed links by kind, in ascending order of the kinds. -/
  consumes : Option (Keyed String ConsumedLink)
  updateMode : Option UpdateMode

namespace Declaration

/-- The type whose parameters name a certificate authority and take addresses of
links. -/
def certificateType : String := "certificate"

/-- Whether a certificate is declared. -/
def isCertificate (declaration : Declaration) : Bool :=
  declaration.type = certificateType

/-- The fields of a written declaration, in order. -/
def fieldNames : List String :=
  ["name", "type", "options", "consumes", "update_mode"]

/-- The pairs of a mapping with each value decoded. -/
def decodeEntries? {ν α : Type} (format : DataFormat ν) (decode : ν → Option α) (value : ν) :
    Option (List (String × α)) := do
  let entries ← format.entries? value
  entries.mapM fun entry => (decode entry.2).map fun decoded => (entry.1, decoded)

/-- Reads a declaration. Only name and type must be there. -/
def decode? {ν : Type} (format : DataFormat ν) (value : ν) : Option Declaration := do
  let record ← format.record? fieldNames value
  return {
    name := ← record.required 0 "name" format.text?
    type := ← record.required 1 "type" format.text?
    options := ← record.defaulted 2 "options" [] fun options =>
      (decodeEntries? format format.json? options).map Keyed.ofPairs
    consumes := ← record.optional format 3 "consumes" fun links =>
      (decodeEntries? format (ConsumedLink.decode? format) links).map Keyed.ordered
    updateMode := ← record.optional format 4 "update_mode" (UpdateMode.decode? format) }

/-- Writes a declaration; absent links and an absent mode are left out. -/
def encode (declaration : Declaration) : Json :=
  .obj ([("name", .str declaration.name), ("type", .str declaration.type),
      ("options", .obj declaration.options)] ++
    (match declaration.consumes with
      | some links =>
        [("consumes", .obj (links.map fun entry => (entry.1, entry.2.encode)))]
      | none => []) ++
    (match declaration.updateMode with
      | some mode => [("update_mode", mode.encode)]
      | none => []))

end Declaration

end ManifestVariables
