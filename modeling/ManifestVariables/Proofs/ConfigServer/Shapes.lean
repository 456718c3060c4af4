import ManifestVariables.Proofs.ConfigServer.Lookup

/-!
# Which answers a lookup accepts

`Client.StartsWith` and `Client.Describes` say what the body of an answer has to look like, field
by field. A lookup accepts such a body under a status of success and nothing else, and all that it
takes from there is what `Client.Describes` names. Every other answer is refused: as a missing name
where the status says so, and as a failed lookup in its own words otherwise (`Client.Refused`).
`Client.lookups_exact` says this of both lookups, and what it means for the question whether
a name is stored at all.
-/

namespace ManifestVariables.Client

/-- What a program comes to where each of its calls has the same response. -/
def answeredBy {α : Type} (response : Response) (program : Program Calls α) : α :=
  (program.run (fun _ (_ : Unit) => ((.ok response : Outcome), ())) ()).1

/-- A text is an id as it stands, and a number as it is written. Nothing else is an id. -/
inductive WritesId : Json → VariableId → Prop where
  | text (text : String) : WritesId (.str text) text
  | integer (value : Int) : WritesId (.int value) (toString value)
  | number (value : Binary64) : WritesId (.float value) (Json.number value)

/-- The fields of an object have an id and a value. -/
structure IsComplete (entry : Keyed String Json) : Prop where
  id : ∃ json id, Keyed.get? entry "id" = some json ∧ WritesId json id
  value : ∃ value, Keyed.get? entry "value" = some value

/-- The fields of an object describe a version of a name that was asked for. -/
structure Describes (entry : Keyed String Json) (requested : String) (version : Variable) :
    Prop where
  id : ∃ json, Keyed.get? entry "id" = some json ∧ WritesId json version.id
  /-- The value may be null, but it must be there. -/
  value : Keyed.get? entry "value" = some version.value
  /-- A name that is no text is as good as none. -/
  name : version.name = match Keyed.get? entry "name" with
    | some (.str name) => name
    | _ => requested

/-- A body is a record whose list starts with a value. -/
def StartsWith (body : String) (first : Json) : Prop :=
  ∃ record rest, Json.parseRecord? ["data"] body = some record ∧
    record.field? 0 "data" = some (.arr (first :: rest))

/-- The status of an answer is one of success. -/
abbrev Succeeded (response : Response) : Prop :=
  200 ≤ response.status ∧ response.status < 300

/-- How a lookup of a name tells that an answer is none. -/
inductive Refused (name : String) (response : Response) : ServerError → Prop where
  | missing {text : String} (missing : response.status = 404) :
      Refused name response (.notFound text)
  | malformed {detail : String} (other : response.status ≠ 404) :
      Refused name response
        (.fetch (s!"Failed to fetch variable '{name}' from config server" ++ detail))

variable {name label body more : String} {id : VariableId} {response other : Response} {json first : Json}
  {entry : Keyed String Json} {version found : Variable} {failure : ServerError}

theorem id?_eq_some_iff : id? json = some id ↔ WritesId json id := by
  constructor
  · intro read
    cases json <;> cases read <;> constructor
  · intro writes
    cases writes <;> rfl

theorem name_eq_match (field : Option Json) (requested : String) :
    (field.bind Json.text?).getD requested = match field with
      | some (.str name) => name
      | _ => requested := by
  cases field with
  | none => rfl
  | some json => cases json <;> rfl

/-- What is read from an entry is what the entry describes. -/
theorem readEntry_eq_ok_iff_describes :
    readEntry entry name label = .ok found ↔ Describes entry name found := by
  rw [readEntry_eq_ok_iff]
  constructor
  · rintro ⟨id, value, hasId, hasValue, rfl⟩
    obtain ⟨json, here, writes⟩ := Option.bind_eq_some_iff.mp hasId
    exact ⟨⟨json, here, id?_eq_some_iff.mp writes⟩, hasValue, name_eq_match _ _⟩
  · rintro ⟨⟨json, here, writes⟩, hasValue, named⟩
    refine ⟨found.id, found.value, ?_, hasValue, ?_⟩
    · exact Option.bind_eq_some_iff.mpr ⟨json, here, id?_eq_some_iff.mpr writes⟩
    · rw [name_eq_match, ← named]

theorem isComplete_iff (requested : String) :
    IsComplete entry ↔ ∃ version, Describes entry requested version := by
  constructor
  · rintro ⟨⟨json, id, here, writes⟩, value, hasValue⟩
    exact ⟨⟨id, _, value⟩, ⟨json, here, writes⟩, hasValue, rfl⟩
  · rintro ⟨version, ⟨json, here, writes⟩, hasValue, -⟩
    exact ⟨⟨json, version.id, here, writes⟩, version.value, hasValue⟩

/-- The list that is read is the one in the record. -/
theorem lookupData?_of_startsWith (starts : StartsWith body first) :
    ∃ rest, lookupData? body = some (some (.arr (first :: rest))) := by
  obtain ⟨record, rest, parsed, listed⟩ := starts
  refine ⟨rest, Option.bind_eq_some_iff.mpr ⟨record, parsed, ?_⟩⟩
  simp only [Record.optional, Record.defaulted, listed]
  rfl

theorem startsWith_of_lookupData? {rest : List Json}
    (read : lookupData? body = some (some (.arr (first :: rest)))) : StartsWith body first := by
  obtain ⟨record, parsed, listed⟩ := Option.bind_eq_some_iff.mp read
  refine ⟨record, rest, parsed, ?_⟩
  unfold Record.optional Record.defaulted at listed
  split at listed
  next value field =>
    unfold Record.nullable at listed
    split at listed
    · cases listed
    · cases listed
      exact field
  · cases listed

/-- The list counts for nothing but its first value. -/
theorem firstEntry_congr (starts : StartsWith body first) (startsToo : StartsWith more first) :
    firstEntry body = firstEntry more := by
  obtain ⟨rest, read⟩ := lookupData?_of_startsWith starts
  obtain ⟨others, readToo⟩ := lookupData?_of_startsWith startsToo
  simp only [firstEntry, read, readToo]

theorem firstEntry_eq_ok_iff : firstEntry body = .ok entry ↔ StartsWith body (.obj entry) := by
  constructor
  · intro read
    unfold firstEntry at read
    split at read
    · cases read
    next listed =>
      split at read
      · cases read
        exact startsWith_of_lookupData? listed
      · cases read
    · cases read
    · cases read
  · intro starts
    obtain ⟨rest, read⟩ := lookupData?_of_startsWith starts
    simp only [firstEntry, read]

/-- A lookup by name reads a version from an answer of success whose list starts with one. -/
theorem readByName_eq_ok_iff :
    readByName name (.ok response) = .ok found ↔
      Succeeded response ∧ ∃ entry, StartsWith response.body (.obj entry) ∧
        Describes entry name found := by
  simp only [readByName, bind_eq_ok_iff, mapError_eq_ok_iff, lookupBody_eq_ok_iff,
    firstEntry_eq_ok_iff, readEntry_eq_ok_iff_describes, Response.isSuccess_iff]
  constructor
  · rintro ⟨_, same, _, ⟨success, rfl⟩, entry, starts, describes⟩
    cases same
    exact ⟨success, entry, starts, describes⟩
  · rintro ⟨success, entry, starts, describes⟩
    exact ⟨response, rfl, response.body, ⟨success, rfl⟩, entry, starts, describes⟩

/-- Answers of success whose lists start alike are the same answer to a lookup by name. -/
theorem readByName_congr (success : Succeeded response) (successToo : Succeeded other)
    (starts : StartsWith response.body first) (startsToo : StartsWith other.body first) :
    readByName name (.ok response) = readByName name (.ok other) := by
  have read (answer : Response) (success : Succeeded answer) :
      readByName name (.ok answer) = (do
        let entry ← (firstEntry answer.body).mapError (fetchError name)
        (readEntry entry name "data[0]").mapError (fetchError name)) := by
    have accepted : lookupBody name answer = .ok answer.body :=
      lookupBody_eq_ok_iff.mpr ⟨Response.isSuccess_iff.mpr success, rfl⟩
    change (lookupBody name answer >>= _) = _
    rw [accepted]
    rfl
  rw [read response success, read other successToo, firstEntry_congr starts startsToo]

theorem refused_fetchError (success : Succeeded response) (detail : String) :
    Refused name response (fetchError name detail) := by
  have told : s!"{lookupFailure name}: {detail}" =
      s!"Failed to fetch variable '{name}' from config server" ++ (": " ++ detail) :=
    String.append_assoc ..
  have other : response.status ≠ 404 := by
    obtain ⟨-, below⟩ := success
    omega
  rw [fetchError, told]
  exact .malformed other

theorem refused_of_lookupBody (failed : lookupBody name response = .error failure) :
    Refused name response failure := by
  unfold lookupBody at failed
  split at failed
  · cases failed
  split at failed
  next missing =>
    cases failed
    exact .missing missing
  next other =>
    cases failed
    simp only [String.append_assoc]
    exact .malformed other

/-- A malformed body is only looked at where the status is one of success. -/
theorem refused_of_mapError {α : Type} {detailed : Except String α}
    (accepted : lookupBody name response = .ok body)
    (failed : detailed.mapError (fetchError name) = .error failure) :
    Refused name response failure := by
  have success := Response.isSuccess_iff.mp (lookupBody_eq_ok_iff.mp accepted).1
  cases detailed with
  | ok => cases failed
  | error detail =>
    cases failed
    exact refused_fetchError success detail

theorem refused_of_readByName (failed : readByName name (.ok response) = .error failure) :
    Refused name response failure := by
  rcases bind_eq_error_iff.mp failed with lost | ⟨_, same, failed⟩
  · cases lost
  cases same
  rcases bind_eq_error_iff.mp failed with refused | ⟨body, accepted, failed⟩
  · exact refused_of_lookupBody refused
  rcases bind_eq_error_iff.mp failed with malformed | ⟨entry, _, incomplete⟩
  · exact refused_of_mapError accepted malformed
  · exact refused_of_mapError accepted incomplete

theorem refused_of_readById (failed : readById name id (.ok response) = .error failure) :
    Refused name response failure := by
  rcases bind_eq_error_iff.mp failed with lost | ⟨_, same, failed⟩
  · cases lost
  cases same
  rcases bind_eq_error_iff.mp failed with refused | ⟨body, accepted, failed⟩
  · exact refused_of_lookupBody refused
  split at failed
  · rcases bind_eq_error_iff.mp failed with incomplete | ⟨version, _, failed⟩
    · exact refused_of_mapError accepted incomplete
    · cases failed
  · cases failed
    exact refused_fetchError (Response.isSuccess_iff.mp (lookupBody_eq_ok_iff.mp accepted).1) _

/-- What a lookup comes to that looks for an entry in a body, and reports the version that the
entry describes. -/
structure Lookup (name : String) (response : Response) (finds : Keyed String Json → Prop)
    (report : Variable → Variable) (result : Except ServerError Variable) : Prop where
  accepted_iff : (∃ found, result = .ok found) ↔
    Succeeded response ∧ ∃ entry, finds entry ∧ IsComplete entry
  reports : ∀ found, result = .ok found →
    ∃ entry version, finds entry ∧ Describes entry name version ∧ found = report version
  missing_iff : (∃ text, result = .error (.notFound text)) ↔ response.status = 404
  /-- All other failures name the variable. -/
  failed : ∀ failure, result = .error failure → response.status ≠ 404 →
    ∃ detail, failure = .fetch (s!"Failed to fetch variable '{name}' from config server" ++ detail)

/-- A lookup that accepts what it should, and refuses everything else. -/
theorem lookup_of_refused {finds : Keyed String Json → Prop} {report : Variable → Variable}
    {result : Except ServerError Variable}
    (ok_iff : ∀ found, result = .ok found ↔ Succeeded response ∧
      ∃ entry version, finds entry ∧ Describes entry name version ∧ found = report version)
    (refused : ∀ failure, result = .error failure → Refused name response failure) :
    Lookup name response finds report result where
  accepted_iff := by
    constructor
    · rintro ⟨found, ok⟩
      obtain ⟨success, entry, version, finds, describes, -⟩ := (ok_iff found).mp ok
      exact ⟨success, entry, finds, (isComplete_iff name).mpr ⟨version, describes⟩⟩
    · rintro ⟨success, entry, finds, complete⟩
      obtain ⟨version, describes⟩ := (isComplete_iff name).mp complete
      exact ⟨report version, (ok_iff _).mpr ⟨success, entry, version, finds, describes, rfl⟩⟩
  reports found ok := ((ok_iff found).mp ok).2
  missing_iff := by
    constructor
    · rintro ⟨text, failed⟩
      cases refused _ failed with
      | missing missing => exact missing
    · intro missing
      cases failed : result with
      | ok found =>
        obtain ⟨⟨-, below⟩, -⟩ := (ok_iff found).mp failed
        omega
      | error failure =>
        cases refused _ failed with
        | missing => exact ⟨_, rfl⟩
        | malformed other => exact absurd missing other
  failed failure failed other := by
    cases refused _ failed with
    | missing missing => exact absurd missing other
    | malformed => exact ⟨_, rfl⟩

theorem lookup_readByName (name : String) (response : Response) :
    Lookup name response (fun entry => StartsWith response.body (.obj entry)) (fun found => found)
      (readByName name (.ok response)) := by
  refine lookup_of_refused (fun found => ?_) fun failure => refused_of_readByName
  refine readByName_eq_ok_iff.trans (and_congr_right fun _ => exists_congr fun entry => ?_)
  constructor
  · rintro ⟨starts, describes⟩
    exact ⟨found, starts, describes, rfl⟩
  · rintro ⟨_, starts, describes, rfl⟩
    exact ⟨starts, describes⟩

theorem lookup_readById (name : String) (id : VariableId) (response : Response) :
    Lookup name response (fun entry => Json.parse? response.body = some (.obj entry))
      (fun found => { found with id }) (readById name id (.ok response)) := by
  refine lookup_of_refused (fun found => ?_) fun failure => refused_of_readById
  refine readById_eq_ok_iff.trans ?_
  simp only [Response.isSuccess_iff, readEntry_eq_ok_iff_describes]
  constructor
  · rintro ⟨_, entry, version, same, success, parsed, describes, rfl⟩
    cases same
    exact ⟨success, entry, version, parsed, describes, rfl⟩
  · rintro ⟨success, entry, version, parsed, describes, rfl⟩
    exact ⟨response, entry, version, rfl, success, parsed, describes, rfl⟩

/-- What asking whether a name is stored comes to where a lookup of the name comes to a result. -/
structure StoredAs (looked : Except ServerError Variable) (stored : Except ServerError Bool) :
    Prop where
  found_iff : stored = .ok true ↔ ∃ found, looked = .ok found
  missing_iff : stored = .ok false ↔ ∃ text, looked = .error (.notFound text)
  failed_iff : ∀ failure, stored = .error failure ↔
    looked = .error failure ∧ ∀ text, failure ≠ .notFound text

theorem storedAs_readStored (outcome : Outcome) :
    StoredAs (readByName name outcome) (readStored name outcome) := by
  unfold readStored
  split
  next found read => constructor <;> simp [read]
  next text read => constructor <;> simp [read]
  next failure other read =>
    constructor
    · simp [read]
    · simpa [read] using other
    · intro cause
      constructor
      · intro same
        cases same
        exact ⟨read, fun text same => other text same⟩
      · rintro ⟨same, -⟩
        exact congrArg _ (Except.error.inj (read.symm.trans same))

/-- Lookups accept answers of the documented shapes only, and take from them what they describe.
A lookup by name looks no further than the first value of the list. -/
theorem lookups_exact (name : String) (id : VariableId) (response : Response) :
    Lookup name response (fun entry => StartsWith response.body (.obj entry)) (fun found => found)
        (answeredBy response (getByName name)) ∧
      (∀ other first, Succeeded response → Succeeded other →
        StartsWith response.body first → StartsWith other.body first →
        answeredBy response (getByName name) = answeredBy other (getByName name)) ∧
      Lookup name response (fun entry => Json.parse? response.body = some (.obj entry))
        (fun found => { found with id }) (answeredBy response (getById name id)) ∧
      StoredAs (answeredBy response (getByName name)) (answeredBy response (isStored name)) := by
  refine ⟨lookup_readByName name response, ?_, lookup_readById name id response,
    storedAs_readStored (.ok response)⟩
  intro other first success successToo starts startsToo
  exact readByName_congr success successToo starts startsToo

end ManifestVariables.Client
