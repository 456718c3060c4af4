import ManifestVariables.Proofs.Generation.Effects
import ManifestVariables.Proofs.Keyed

/-!
# The parameters of a certificate

What the config server is asked for has the declared options as its parameters. Those of a
certificate are changed in three places (`Generation.Derived`): the authority is qualified, and the
addresses of consumed links go among the alternative names and, unless it has one, become the common
name. `LinkTable.addressOf` says what these addresses look like. Where a link leads nowhere the
certificate is not asked for, and of several such links the one of the least kind is told
(`Generation.parameters_posted`). This takes the kinds of the consumed links to be in ascending
order, as they are in every declaration that is read (`Declaration.ascending_of_decode?`).
-/

namespace ManifestVariables

/-- The consumed links by kind. -/
def Declaration.links (declaration : Declaration) : Keyed String ConsumedLink :=
  declaration.consumes.getD []

/-- The kinds of the links of a declaration that is read are in order. -/
theorem Declaration.ascending_of_decode? {ν : Type} {format : DataFormat ν} {value : ν}
    {declaration : Declaration} (read : Declaration.decode? format value = some declaration) :
    Keyed.Ascending declaration.links := by
  simp only [Declaration.decode?, Option.bind_eq_bind, Option.bind_eq_some_iff] at read
  obtain ⟨record, _, _, _, _, _, _, _, consumes, written, _, _, same⟩ := read
  cases same
  unfold Record.optional Record.defaulted Record.nullable at written
  split at written
  · split at written
    · cases written
      exact .nil
    · obtain ⟨links, read, rfl⟩ := Option.map_eq_some_iff.mp written
      obtain ⟨pairs, _, rfl⟩ := Option.map_eq_some_iff.mp read
      exact Keyed.ascending_ordered pairs
  · cases written
    exact .nil

namespace LinkTable

variable {table : LinkTable} {deployment name kind : String} {useAliases : Bool}
  {link : ConsumedLink} {links : Keyed String ConsumedLink} {target : LinkTarget}

end LinkTable

namespace Generation

open Program Engine

variable {table : LinkTable} {director deployment : String} {useAliases : Bool}
  {declaration : Declaration} {consumes : Keyed String ConsumedLink}
  {options : Keyed String Json}

/-- An authority, as the parameters name it. Only a text can be a name. -/
def qualified (director deployment : String) : Json → Json
  | .str authority => .str (Name.qualify director deployment authority)
  | other => other

variable {alternative : Option String} {changed : Keyed String Json}

variable {context : GenerationContext} {set : VariableSet} {flags : GenerationFlags}
  {transcript : List (Exchange Needs)} {result : Except GenerationError GeneratedVariable}

/-- What is asked of the config server for a declaration, with these parameters. -/
def requestWith (context : GenerationContext) (deployment : String) (flags : GenerationFlags)
    (declaration : Declaration) (parameters : Keyed String Json) : GenerationRequest :=
  { name := nameOf context deployment declaration, type := declaration.type,
    parameters := .obj parameters, mode := requestMode (modeOf declaration flags) flags }

theorem requestOf_of_ne (other : declaration.type ≠ "certificate") :
    requestOf context deployment flags declaration =
      .ok (requestWith context deployment flags declaration declaration.options) := by
  have plain : declaration.isCertificate = false := decide_eq_false other
  unfold requestOf parameters
  rw [plain]
  rfl

theorem requestOf_of_eq (certificate : declaration.type = "certificate") :
    requestOf context deployment flags declaration =
      (addAddresses context.links declaration deployment flags.useLinkAliases declaration.links
        (qualifyAuthority context.director deployment declaration.options)).map
        (requestWith context deployment flags declaration) := by
  have certified : declaration.isCertificate = true := decide_eq_true certificate
  unfold requestOf parameters
  rw [certified]
  simp only [Bool.not_true, Bool.false_eq_true, if_false]
  change Except.map _ (Except.map _ (addAddresses context.links declaration deployment
    flags.useLinkAliases declaration.links _)) = _
  cases addAddresses context.links declaration deployment flags.useLinkAliases declaration.links
    (qualifyAuthority context.director deployment declaration.options) <;> rfl

theorem Recording.calls_eq_nil {name : String} {id : VariableId} {mode : UpdateMode}
    {latestVersion : Bool}
    (recording : Recording context set name id mode latestVersion transcript result) :
    calls transcript = [] := by
  cases result with
  | error error => exact recording.idle_of_error.calls
  | ok entry =>
    obtain ⟨-, -, -, uncalled, -⟩ := recording.of_ok
    exact uncalled

/-- Where the links lead nowhere, generating a declared variable that has no version to keep ends
there. -/
theorem of_ends_generateNew_of_error {failure : LinkError}
    (requested : requestOf context set.deployment flags declaration = .error failure)
    (ended : Ends (generateNew context set flags declaration) transcript result) :
    transcript = [] ∧ result = .error (.link failure) := by
  unfold generateNew at ended
  rw [requested] at ended
  exact ends_done_iff.mp ended

/-- Otherwise it makes one call. -/
theorem calls_of_ends_generateNew {request : GenerationRequest}
    (requested : requestOf context set.deployment flags declaration = .ok request)
    (ended : Ends (generateNew context set flags declaration) transcript result) :
    calls transcript = [.post request.encode] := by
  unfold generateNew at ended
  rw [requested] at ended
  rcases ends_bind_iff.mp ended with
    ⟨error, failed, rfl⟩ | ⟨asked, found, recorded, rfl, given, followed⟩
  · cases ends_requestValue_iff.mp failed
    rfl
  · have asks : calls asked = [.post request.encode] := by
      cases ends_requestValue_iff.mp given
      rfl
    rw [calls_append, asks, (ends_recordVersion_iff.mp followed).calls_eq_nil]
    rfl

section Run

variable {σ : Type} {answer : (need : Need) → σ → need.Reply × σ} {state : σ}

/-- A declared variable has to be generated: its name is one, and there is no version to keep. -/
structure IsDue (answer : (need : Need) → σ → need.Reply × σ) (context : GenerationContext)
    (set : VariableSet) (flags : GenerationFlags) (declaration : Declaration) (state : σ) : Prop where
  valid : Name.validate declaration.name = .ok ()
  unkept : (Program.run answer (keptOf context set flags declaration) state).1 = .ok none

theorem idle_transcript_keptOf :
    Idle (Program.transcript answer (keptOf context set flags declaration) state) :=
  idle_of_keptOf (ends_transcript (I := Needs) answer _ state)

/-- A run that has no version to keep generates a new one. -/
theorem IsDue.run_eq (due : IsDue answer context set flags declaration state) :
    Program.transcript answer (generate context set flags declaration) state =
        Program.transcript answer (keptOf context set flags declaration) state ++
          Program.transcript answer (generateNew context set flags declaration)
            (Program.run answer (keptOf context set flags declaration) state).2 ∧
      Program.run answer (generate context set flags declaration) state =
        Program.run answer (generateNew context set flags declaration)
          (Program.run answer (keptOf context set flags declaration) state).2 := by
  rw [generate_of_valid due.valid]
  exact run_bind_of_ok due.unkept _

end Run

/-- Two consumed links lead to one target, and the address stands for all siblings in one of them. -/
def sampleLinks : LinkTable where
  rootDomain := LinkTable.defaultRootDomain
  targets := [(("orders", "db_link"), ⟨"postgres", "default", "database", "db-alias"⟩)]

def sampleCertificate : Declaration where
  name := "db_cert"
  type := "certificate"
  options := [("ca", .str "my_ca"), ("alternative_names", .arr [.str "db.internal"])]
  consumes := some [("alternative_name", ⟨"db_link", true⟩), ("common_name", ⟨"db_link", false⟩)]
  updateMode := none

def sampleLinked : GenerationContext := ⟨"d1", sampleLinks.addresses, ⟨"ann", none⟩⟩

example : parameters "d1" sampleLinks.addresses sampleCertificate "orders" true = .ok (.obj [
    ("ca", .str "/d1/orders/my_ca"),
    ("alternative_names", .arr [.str "db.internal", .str "*.db-alias.default.database.bosh"]),
    ("common_name", .str "q-s0.db-alias.default.database.bosh")]) := by
  rfl

end Generation

end ManifestVariables
