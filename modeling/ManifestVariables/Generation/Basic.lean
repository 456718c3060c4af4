import ManifestVariables.Engine
import ManifestVariables.Generation.LinkAddress
import ManifestVariables.Name.Placeholder

/-!
# Generating variables

`Generation.generateAll` generates the declared variables of a deployment one after
another, records each with the current variable set, and stops at the first that
fails. A variable that is only to change with the stemcell keeps the version of the
last successful deploy. `Generation.prepareProperty` decides the value of a
property that may be a placeholder for a variable that is not there yet.
-/

namespace ManifestVariables

/-- Why variables were not generated. -/
inductive GenerationError where
  /-- The current set of the deployment is frozen. -/
  | notWritable (name : String)
  /-- The config server refused, or answered something malformed. -/
  | refused (text : String)
  | name (error : NameError)
  | link (error : LinkError)
  | transport (error : TransportError)
  | store (error : StoreError)
  | missingSet (deployment : String)
deriving DecidableEq, Repr

namespace GenerationError

/-- The text shown for a generation error. -/
def message : GenerationError → String
  | notWritable variableName =>
    s!"Variable '{variableName}' cannot be generated. Variable generation allowed only during deploy action"
  | refused text => text
  | name error => error.message
  | link error => error.message
  | transport error => error.message
  | store error => error.message
  | missingSet deployment => s!"No variable set found for deployment '{deployment}'"

/-- The cause of a failure of the config server. -/
def ofServer : ServerError → GenerationError
  | .transport error => transport error
  | other => refused other.message

end GenerationError

/-- What a deploy attempt asks of generation. -/
structure GenerationFlags where
  /-- Declarations without a mode converge. -/
  converge : Bool
  /-- Addresses of links are those of their aliases. -/
  useLinkAliases : Bool
  stemcellChanged : Bool
deriving DecidableEq, Repr

/-- What came of one declaration. -/
structure GeneratedVariable where
  name : String
  id : VariableId
  mode : UpdateMode
  /-- False where the version of an earlier deploy was used again. -/
  latestVersion : Bool
deriving DecidableEq, Repr

/-- Who generates for whom. -/
structure GenerationContext where
  director : String
  links : LinkAddresses
  request : RequestContext

namespace Generation

open Engine

/-- A store operation. -/
def fromStore {α : Type} (operation : Store.Operation α) : Action GenerationError α :=
  Action.ofProgram GenerationError.store (ofStore operation)

/-- The address with its first label replaced by a star, or with a star before it
where it has only one. -/
def wildcard (address : String) : String :=
  match address.toList.dropWhile (· ≠ '.') with
  | [] => "*." ++ address
  | rest => "*" ++ String.ofList rest

/-- The name that the parameters of a certificate use for its authority. -/
def qualifyAuthority (director deployment : String) (options : Keyed String Json) :
    Keyed String Json :=
  match Keyed.get? options "ca" with
  | some (.str authority) =>
    Keyed.put options "ca" (.str (Name.qualify director deployment authority))
  | _ => options

/-- The parameters of a certificate with an address among its alternative names. -/
def addAlternativeName (options : Keyed String Json) (address : String) : Keyed String Json :=
  match Keyed.get? options "alternative_names" with
  | some (.arr names) => Keyed.put options "alternative_names" (.arr (names ++ [.str address]))
  | _ => Keyed.put options "alternative_names" (.arr [.str address])

/-- The parameters of a certificate with an address as its common name, unless it
has one. -/
def addCommonName (options : Keyed String Json) (address : String) : Keyed String Json :=
  if Keyed.contains options "common_name" then options
  else Keyed.put options "common_name" (.str address)

/-- The parameters with the address of a link of some kind; other kinds add
nothing. -/
def addAddress (kind address : String) (options : Keyed String Json) : Keyed String Json :=
  if kind = "alternative_name" then addAlternativeName options address
  else if kind = "common_name" then addCommonName options address
  else options

/-- The parameters with the addresses of consumed links. Every link is looked up,
also one of a kind that adds nothing. -/
def addAddresses (links : LinkAddresses) (declaration : Declaration) (deployment : String)
    (useAliases : Bool) :
    List (String × ConsumedLink) → Keyed String Json → Except LinkError (Keyed String Json)
  | [], options => .ok options
  | (kind, link) :: rest, options =>
    match links declaration.name deployment link useAliases with
    | .error failure => .error failure
    | .ok address =>
      let address := if link.wildcard then wildcard address else address
      addAddresses links declaration deployment useAliases rest (addAddress kind address options)

/-- The parameters that a declared variable is generated with: its options, and for
a certificate its qualified authority and the addresses of its links. -/
def parameters (director : String) (links : LinkAddresses) (declaration : Declaration)
    (deployment : String) (useAliases : Bool) : Except LinkError Json :=
  if !declaration.isCertificate then .ok (.obj declaration.options)
  else
    (addAddresses links declaration deployment useAliases (declaration.consumes.getD [])
      (qualifyAuthority director deployment declaration.options)).map Json.obj

/-- The mode of a declaration. -/
def modeOf (declaration : Declaration) (flags : GenerationFlags) : UpdateMode :=
  declaration.updateMode.getD (if flags.converge then .converge else .noOverwrite)

/-- The mode that the config server is asked for: it knows nothing of stemcells. -/
def requestMode (mode : UpdateMode) (flags : GenerationFlags) : UpdateMode :=
  match mode with
  | .onStemcellChange => if flags.stemcellChanged then .overwrite else .noOverwrite
  | other => other

/-- The version of the last successful deploy, where the mode is to keep it. -/
def keptVersion (name : String) (set : VariableSet) (mode : UpdateMode)
    (flags : GenerationFlags) : Action GenerationError (Option VariableId) :=
  if mode = .onStemcellChange ∧ !flags.stemcellChanged then
    fromStore (Store.previousId name set)
  else pure none

/-- Records a version with the set and leaves an event. -/
def recordVersion (context : GenerationContext) (set : VariableSet) (name : String)
    (id : VariableId) (mode : UpdateMode) (latestVersion : Bool) :
    Action GenerationError GeneratedVariable := do
  let id ← fromStore (Store.add name id set)
  record (Event.created context.request set.deployment name id mode latestVersion)
  return { name, id, mode, latestVersion }

/-- Asks for the generation of a value; a failure leaves an event. -/
def requestValue (context : GenerationContext) (deployment : String) (mode : UpdateMode)
    (request : GenerationRequest) : Action GenerationError Variable :=
  ExceptT.mk ((ofClient (Client.generate request)).andThen fun result =>
    match result with
    | .ok generated => .done (.ok generated)
    | .error failure =>
      .ask (.record (Event.failed context.request deployment request.name mode failure.message) :
          Need)
        fun _ => .done (.error (GenerationError.ofServer failure)))

/-- Generates one declared variable into a set. -/
def generate (context : GenerationContext) (set : VariableSet) (flags : GenerationFlags)
    (declaration : Declaration) : Action GenerationError GeneratedVariable := do
  match Name.validate declaration.name with
  | .error e => throw (.name e)
  | .ok _ =>
    let name := Name.qualify context.director set.deployment declaration.name
    let mode := modeOf declaration flags
    match ← keptVersion name set mode flags with
    | some id => recordVersion context set name id mode false
    | none =>
      match parameters context.director context.links declaration set.deployment
          flags.useLinkAliases with
      | .error failure => throw (.link failure)
      | .ok parameters =>
        let generated ← requestValue context set.deployment mode
          { name, type := declaration.type, parameters, mode := requestMode mode flags }
        recordVersion context set name generated.id mode true

/-- Generates declared variables in order. -/
def generateEach (context : GenerationContext) (set : VariableSet) (flags : GenerationFlags) :
    List Declaration → Action GenerationError (List GeneratedVariable)
  | [] => pure []
  | declaration :: rest => do
    let first ← generate context set flags declaration
    let others ← generateEach context set flags rest
    return first :: others

/-- Generates the declared variables of a deployment into its current set. -/
def generateAll (context : GenerationContext) (deployment : String) (flags : GenerationFlags)
    (declarations : List Declaration) : Action GenerationError (List GeneratedVariable) := do
  match declarations with
  | [] => return []
  | first :: _ =>
    match ← fromStore (Store.current deployment) with
    | none => throw (.missingSet deployment)
    | some set =>
      if !set.writable then
        throw (.notWritable (Name.qualify context.director deployment first.name))
      else generateEach context set flags declarations

/-- The types of properties for which a value can be generated. -/
def generatableTypes : List String := ["password", "certificate", "ssh", "rsa"]

/-- Generates the value of a property and leaves an event; the set records
nothing. -/
def generateProperty (context : GenerationContext) (deployment name type : String) :
    Action GenerationError Unit := do
  let generated ← requestValue context deployment .noOverwrite
    { name, type, parameters := .obj [], mode := .noOverwrite }
  record (Event.created context.request deployment name generated.id .noOverwrite true)

/-- The value of a property. A provided value stands unless it is a placeholder for
a variable that is not stored: then the default counts, and where there is none a
value is generated for the placeholder if the type of the property allows it. -/
def prepareProperty (context : GenerationContext) (deployment : String)
    (provided default : Option Json) (type : Option String) :
    Action GenerationError (Option Json) := do
  match provided with
  | none => return default
  | some (.str text) =>
    if !Placeholder.isFull text then return some (.str text)
    else
      match Placeholder.path text with
      | .error e => throw (.name e)
      | .ok path =>
        let name := Name.qualify context.director deployment path.base
        let stored ← Action.ofProgram GenerationError.ofServer (ofClient (Client.isStored name))
        if stored then return some (.str text)
        else match default, type with
          | some default, _ => return some default
          | none, some type =>
            if generatableTypes.contains type then
              generateProperty context deployment name type
            return some (.str text)
          | none, none => return some (.str text)
  | some value => return some value

end Generation

end ManifestVariables
