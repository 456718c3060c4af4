import ManifestVariables.ConfigServer.Client

/-!
# What lookups read

The value that a lookup by id reads is the one in the entry of the answer. The name
that was asked for only stands in for a missing name and in messages
(`Client.readById_rename`). Every message of a lookup that failed starts with the name
(`Client.FailedLookup`); the other failures are those of the connection, as they are.
-/

namespace ManifestVariables.Client

theorem bind_eq_ok_iff {ε α β : Type} {first : Except ε α} {next : α → Except ε β} {result : β} :
    first >>= next = .ok result ↔ ∃ value, first = .ok value ∧ next value = .ok result := by
  cases first with
  | error => exact ⟨nofun, nofun⟩
  | ok value => exact ⟨fun followed => ⟨value, rfl, followed⟩, fun ⟨_, rfl, followed⟩ => followed⟩

theorem bind_eq_error_iff {ε α β : Type} {first : Except ε α} {next : α → Except ε β}
    {failure : ε} :
    first >>= next = .error failure ↔
      first = .error failure ∨ ∃ value, first = .ok value ∧ next value = .error failure := by
  cases first with
  | error cause => simp [bind, Except.bind]
  | ok value => simp [bind, Except.bind]

theorem mapError_eq_ok_iff {δ ε α : Type} {cause : δ → ε} {result : Except δ α} {value : α} :
    result.mapError cause = .ok value ↔ result = .ok value := by
  cases result with
  | error => exact ⟨nofun, nofun⟩
  | ok =>
    constructor <;>
    · intro same
      cases same
      rfl

variable {name label : String} {id : VariableId} {outcome : Outcome} {found : Variable}

theorem readEntry_eq_ok_iff {entry : Keyed String Json} :
    readEntry entry name label = .ok found ↔
      ∃ id value, (Keyed.get? entry "id").bind id? = some id ∧
        Keyed.get? entry "value" = some value ∧
        found = { id, name := ((Keyed.get? entry "name").bind Json.text?).getD name, value } := by
  unfold readEntry
  constructor
  · intro read
    split at read
    · cases read
    · cases read
    next id value hasId hasValue =>
      cases read
      exact ⟨id, value, hasId, hasValue, rfl⟩
  · rintro ⟨id, value, hasId, hasValue, rfl⟩
    simp only [hasId, hasValue]

theorem lookupBody_eq_ok_iff {response : Response} {body : String} :
    lookupBody name response = .ok body ↔ response.isSuccess = true ∧ response.body = body := by
  unfold lookupBody
  split
  next success => exact ⟨fun read => ⟨success, Except.ok.inj read⟩, fun held => congrArg _ held.2⟩
  next failure =>
    split <;> exact ⟨nofun, fun held => absurd held.1 failure⟩

/-- A lookup by id reads a version from an answer of success whose body is an entry. -/
theorem readById_eq_ok_iff :
    readById name id outcome = .ok found ↔
      ∃ response entry version, outcome = .ok response ∧ response.isSuccess = true ∧
        Json.parse? response.body = some (.obj entry) ∧
        readEntry entry name "data" = .ok version ∧ found = { version with id } := by
  simp only [readById, bind_eq_ok_iff, mapError_eq_ok_iff, lookupBody_eq_ok_iff]
  constructor
  · rintro ⟨response, rfl, body, ⟨success, rfl⟩, read⟩
    split at read
    next entry parsed =>
      obtain ⟨version, entered, same⟩ := bind_eq_ok_iff.mp read
      exact ⟨response, entry, version, rfl, success, parsed, mapError_eq_ok_iff.mp entered,
        (Except.ok.inj same).symm⟩
    · cases read
  · rintro ⟨response, entry, version, rfl, success, parsed, entered, rfl⟩
    refine ⟨response, rfl, response.body, ⟨success, rfl⟩, ?_⟩
    rw [parsed]
    exact bind_eq_ok_iff.mpr ⟨version, mapError_eq_ok_iff.mpr entered, rfl⟩

/-- A text that starts by naming the variable that could not be had. -/
def Names (name text : String) : Prop :=
  ∃ detail, text = s!"Failed to fetch variable '{name}'" ++ detail ∨
    text = s!"Failed to find variable '{name}'" ++ detail

theorem Names.append {text : String} (names : Names name text) (more : String) :
    Names name (text ++ more) := by
  rcases names with ⟨detail, rfl | rfl⟩
  · exact ⟨detail ++ more, .inl (String.append_assoc ..)⟩
  · exact ⟨detail ++ more, .inr (String.append_assoc ..)⟩

/-- The quote behind the name may belong to what follows. -/
theorem names_fetch {closing rest : String} (quoted : closing = "'" ++ rest) :
    Names name ("Failed to fetch variable '" ++ name ++ closing) := by
  subst quoted
  exact ⟨rest, .inl (String.append_assoc ..).symm⟩

theorem names_find {closing rest : String} (quoted : closing = "'" ++ rest) :
    Names name ("Failed to find variable '" ++ name ++ closing) := by
  subst quoted
  exact ⟨rest, .inr (String.append_assoc ..).symm⟩

theorem names_lookupFailure (name : String) : Names name (lookupFailure name) := by
  have quoted : "' from config server" = "'" ++ " from config server" := by simp
  exact names_fetch quoted

/-- What a lookup fails with: the failure of its call, or a text about its variable. -/
inductive FailedLookup (name : String) (outcome : Outcome) : ServerError → Prop where
  | transport {failure : TransportError} (lost : outcome = .error failure) :
      FailedLookup name outcome (.transport failure)
  | notFound {text : String} (names : Names name text) : FailedLookup name outcome (.notFound text)
  | fetch {text : String} (names : Names name text) : FailedLookup name outcome (.fetch text)

variable {failure : ServerError}

/-- A malformed answer is told with the name. -/
theorem failedLookup_of_mapError {α : Type} {detailed : Except String α}
    (failed : detailed.mapError (fetchError name) = .error failure) :
    FailedLookup name outcome failure := by
  cases detailed with
  | ok => cases failed
  | error detail =>
    cases failed
    exact .fetch (((names_lookupFailure name).append _).append _)

theorem failedLookup_of_lookupBody {response : Response}
    (failed : lookupBody name response = .error failure) : FailedLookup name outcome failure := by
  unfold lookupBody at failed
  split at failed
  · cases failed
  · split at failed
    · cases failed
      have quoted : "' from config server: HTTP Code '404', Error: 'Name not found'" =
          "'" ++ " from config server: HTTP Code '404', Error: 'Name not found'" := by simp
      exact .notFound (names_find quoted)
    · cases failed
      exact .fetch ((((((names_lookupFailure name).append _).append _).append _).append _).append _)

theorem failedLookup_of_readByName (failed : readByName name outcome = .error failure) :
    FailedLookup name outcome failure := by
  rcases bind_eq_error_iff.mp failed with lost | ⟨response, _, failed⟩
  · cases outcome with
    | error cause =>
      cases lost
      exact .transport rfl
    | ok => cases lost
  rcases bind_eq_error_iff.mp failed with refused | ⟨body, _, failed⟩
  · exact failedLookup_of_lookupBody refused
  rcases bind_eq_error_iff.mp failed with malformed | ⟨entry, _, failed⟩
  · exact failedLookup_of_mapError malformed
  · exact failedLookup_of_mapError failed

theorem failedLookup_of_readById (failed : readById name id outcome = .error failure) :
    FailedLookup name outcome failure := by
  rcases bind_eq_error_iff.mp failed with lost | ⟨response, _, failed⟩
  · cases outcome with
    | error cause =>
      cases lost
      exact .transport rfl
    | ok => cases lost
  rcases bind_eq_error_iff.mp failed with refused | ⟨body, _, failed⟩
  · exact failedLookup_of_lookupBody refused
  split at failed
  · rcases bind_eq_error_iff.mp failed with malformed | ⟨version, _, failed⟩
    · exact failedLookup_of_mapError malformed
    · cases failed
  · cases failed
    exact .fetch (((names_lookupFailure name).append _).append _)

/-- A lookup by id fails in the connection only where its call does. -/
theorem readById_eq_transport_iff {failure : TransportError} :
    readById name id outcome = .error (.transport failure) ↔ outcome = .error failure := by
  constructor
  · intro read
    cases failedLookup_of_readById read with
    | transport lost => exact lost
  · rintro rfl
    rfl

/-- The value of a version does not depend on the name that it is asked for. -/
theorem readById_rename (read : readById name id outcome = .ok found) (other : String) :
    ∃ renamed, readById other id outcome = .ok renamed ∧ renamed.value = found.value := by
  obtain ⟨response, entry, version, rfl, success, parsed, readEntry, rfl⟩ :=
    readById_eq_ok_iff.mp read
  obtain ⟨own, value, hasId, hasValue, rfl⟩ := readEntry_eq_ok_iff.mp readEntry
  exact ⟨_, readById_eq_ok_iff.mpr ⟨response, entry, _, rfl, success, parsed,
    readEntry_eq_ok_iff.mpr ⟨own, value, hasId, hasValue, rfl⟩, rfl⟩, rfl⟩

end ManifestVariables.Client
