import ManifestVariables.Proofs.ConfigServer.Lookup

/-!
# What a generation reads

A generation fails with its call, with a status that is not one of success, and with a
body that is no entry (`Client.exists_readGenerated_error_iff`); there is no other way. The
first of these fails as the call did, the others with a text that names the variable and its
type (`Client.GenerationError`).
-/

namespace ManifestVariables.Client

variable {request : GenerationRequest} {outcome : Outcome}

/-- A body that is an object with an id and a value. -/
def IsEntry (body : String) : Prop :=
  ∃ entry id value, Json.parse? body = some (.obj entry) ∧
    (Keyed.get? entry "id").bind id? = some id ∧ Keyed.get? entry "value" = some value

/-- The outcome of a generation call by which nothing is generated. -/
inductive FailedGeneration : Outcome → Prop where
  | call (failure : TransportError) : FailedGeneration (.error failure)
  | status {response : Response} (failed : response.isSuccess = false) :
      FailedGeneration (.ok response)
  | body {response : Response} (malformed : ¬ IsEntry response.body) :
      FailedGeneration (.ok response)

/-- What is read is an entry that comes with a status of success. -/
theorem exists_readGenerated_ok_iff :
    (∃ found, readGenerated request outcome = .ok found) ↔
      ∃ response, outcome = .ok response ∧ response.isSuccess = true ∧ IsEntry response.body := by
  constructor
  · rintro ⟨found, read⟩
    obtain ⟨response, given, read⟩ := bind_eq_ok_iff.mp read
    refine ⟨response, mapError_eq_ok_iff.mp given, ?_⟩
    cases success : response.isSuccess with
    | false =>
      rw [success] at read
      cases read
    | true =>
      simp only [success, Bool.not_true, Bool.false_eq_true, if_false] at read
      split at read
      next entry parsed =>
        obtain ⟨id, value, hasId, hasValue, _⟩ := readEntry_eq_ok_iff.mp (mapError_eq_ok_iff.mp read)
        exact ⟨rfl, entry, id, value, parsed, hasId, hasValue⟩
      · cases read
  · rintro ⟨response, rfl, success, entry, id, value, parsed, hasId, hasValue⟩
    let found : Variable :=
      { id, name := ((Keyed.get? entry "name").bind Json.text?).getD request.name, value }
    refine ⟨found, bind_eq_ok_iff.mpr ⟨response, mapError_eq_ok_iff.mpr rfl, ?_⟩⟩
    simp only [success, parsed, Bool.not_true, Bool.false_eq_true, if_false]
    exact mapError_eq_ok_iff.mpr (readEntry_eq_ok_iff.mpr ⟨id, value, hasId, hasValue, rfl⟩)

/-- Nothing is read in these three cases and in no other. -/
theorem exists_readGenerated_error_iff (request : GenerationRequest) :
    (∃ failure, readGenerated request outcome = .error failure) ↔ FailedGeneration outcome := by
  have unread : (∃ failure, readGenerated request outcome = .error failure) ↔
      ¬ ∃ found, readGenerated request outcome = .ok found := by
    cases readGenerated request outcome <;> simp
  rw [unread, exists_readGenerated_ok_iff]
  constructor
  · intro unread
    cases outcome with
    | error failure => exact .call failure
    | ok response =>
      cases success : response.isSuccess with
      | true => exact .body fun entry => unread ⟨response, rfl, success, entry⟩
      | false => exact .status success
  · rintro failed ⟨response, rfl, success, entry⟩
    cases failed with
    | status refused => cases success.symm.trans refused
    | body malformed => exact malformed entry

/-- A text that names the variable that was to be generated, and its type. -/
def NamesTyped (request : GenerationRequest) (text : String) : Prop :=
  ∃ before after, text = before ++ s!"'{request.name}' with type '{request.type}'" ++ after

/-- What a generation fails with: the failure of its call, or a text about its variable. -/
inductive GenerationError (request : GenerationRequest) (outcome : Outcome) :
    ServerError → Prop where
  | transport {failure : TransportError} (lost : outcome = .error failure) :
      GenerationError request outcome (.transport failure)
  | generation {text : String} (names : NamesTyped request text) :
      GenerationError request outcome (.generation text)

theorem NamesTyped.append {text : String} (names : NamesTyped request text) (more : String) :
    NamesTyped request (text ++ more) := by
  obtain ⟨before, after, rfl⟩ := names
  exact ⟨before, after ++ more, String.append_assoc ..⟩

/-- The quotes around the name and the type may belong to what comes before and after. -/
theorem namesTyped_of_quoted {opening closing before after : String}
    (opens : opening = before ++ "'") (closes : closing = "'" ++ after) :
    NamesTyped request (opening ++ request.name ++ "' with type '" ++ request.type ++ closing) := by
  subst opens closes
  exact ⟨before, after, by simp [String.append_assoc, toString]⟩

theorem generationError_of_readGenerated {failure : ServerError}
    (failed : readGenerated request outcome = .error failure) :
    GenerationError request outcome failure := by
  rcases bind_eq_error_iff.mp failed with lost | ⟨response, _, failed⟩
  · cases outcome with
    | error cause =>
      cases lost
      exact .transport rfl
    | ok => cases lost
  cases success : response.isSuccess with
  | false =>
    simp only [success, Bool.not_false, if_true] at failed
    cases failed
    have opens : "Config Server failed to generate value for '" =
        "Config Server failed to generate value for " ++ "'" := rfl
    have closes : "'. HTTP Code '" = "'" ++ ". HTTP Code '" := rfl
    exact .generation (((((namesTyped_of_quoted opens closes).append _).append _).append _).append _)
  | true =>
    simp only [success, Bool.not_true, Bool.false_eq_true, if_false] at failed
    split at failed
    next entry _ =>
      cases read : readEntry entry request.name "response" with
      | ok found =>
        rw [read] at failed
        cases failed
      | error detail =>
        rw [read] at failed
        cases failed
        have opens : "Failed to generate variable '" = "Failed to generate variable " ++ "'" := rfl
        have closes : "': " = "'" ++ ": " := rfl
        exact .generation ((namesTyped_of_quoted opens closes).append _)
    next =>
      cases failed
      have opens : "Config Server returned a NON-JSON body while generating value for '" =
          "Config Server returned a NON-JSON body while generating value for " ++ "'" := rfl
      have closes : "'" = "'" ++ "" := rfl
      exact .generation (namesTyped_of_quoted opens closes)

end ManifestVariables.Client
