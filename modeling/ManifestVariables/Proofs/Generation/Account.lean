import ManifestVariables.Generation.Basic
import ManifestVariables.Proofs.Engine.Effects

/-!
# Generating one variable

`Generation.Generating` is the account of `Generation.generate` as a relation, one rule
for each way in which it ends. Its parts are a lookup of the version to keep, a request
(`Generation.Requesting`) and the recording of a version (`Generation.Recording`).
-/

namespace ManifestVariables.Generation

open Program Engine

variable {context : GenerationContext} {set : VariableSet} {flags : GenerationFlags}
  {declaration : Declaration} {declarations : List Declaration} {name deployment : String}
  {id : VariableId} {mode : UpdateMode}
  {latestVersion : Bool} {transcript : List (Exchange Needs)}

/-- An event for the audit log, which may keep it or not. -/
abbrev noted (event : Event) (kept : Bool) : Exchange Needs :=
  ⟨.record event, kept⟩

/-- Recording a version: the exchanges, and what comes of them. -/
inductive Recording (context : GenerationContext) (set : VariableSet) (name : String)
    (id : VariableId) (mode : UpdateMode) (latestVersion : Bool) :
    List (Exchange Needs) → Except GenerationError GeneratedVariable → Prop where
  | refused {added : List (Exchange Needs)} {error : StoreError}
      (adding : Adding set ⟨set.id, name, id, none⟩ added (.error error)) :
      Recording context set name id mode latestVersion added (.error (.store error))
  /-- The set has a version of the name, this one or an earlier one. -/
  | recorded {added : List (Exchange Needs)} {stored : VariableId} {kept : Bool}
      (adding : Adding set ⟨set.id, name, id, none⟩ added (.ok stored)) :
      Recording context set name id mode latestVersion
        (added ++ [noted (Event.created context.request set.deployment name stored mode
          latestVersion) kept])
        (.ok ⟨name, stored, mode, latestVersion⟩)

theorem ends_fromStore_iff {α : Type} {operation : Store.Operation α}
    {result : Except GenerationError α} :
    Ends (fromStore operation) transcript result ↔
      ∃ reply, Ends (ofStore operation) transcript reply ∧
        result = reply.mapError GenerationError.store :=
  ends_ofProgram_iff

theorem ends_record_iff {event : Event} {result : Except GenerationError Unit} :
    Ends (Engine.record event : Action GenerationError Unit) transcript result ↔
      ∃ kept, transcript = [noted event kept] ∧ result = .ok () := by
  refine (ends_ask_iff (I := Needs)).trans ⟨?_, ?_⟩
  · rintro ⟨kept, rest, rfl, tail⟩
    obtain ⟨rfl, rfl⟩ := ends_done_iff.mp tail
    exact ⟨kept, rfl, rfl⟩
  · rintro ⟨kept, rfl, rfl⟩
    exact ⟨kept, [], rfl, .refl _⟩

theorem ends_add_iff {result : Except GenerationError VariableId} :
    Ends (fromStore (Store.add name id set)) transcript result ↔
      ∃ reply, Adding set ⟨set.id, name, id, none⟩ transcript reply ∧
        result = reply.mapError GenerationError.store := by
  simp only [ends_fromStore_iff, Store.add, ends_insert_iff]

theorem ends_recordVersion_iff {result : Except GenerationError GeneratedVariable} :
    Ends (recordVersion context set name id mode latestVersion) transcript result ↔
      Recording context set name id mode latestVersion transcript result := by
  constructor
  · intro ended
    rcases ends_bind_iff.mp ended with
      ⟨error, failed, rfl⟩ | ⟨added, stored, after, rfl, recorded, followed⟩
    · obtain ⟨reply, adding, same⟩ := ends_add_iff.mp failed
      cases reply <;> cases same
      exact .refused adding
    · obtain ⟨reply, adding, same⟩ := ends_add_iff.mp recorded
      cases reply <;> cases same
      rcases ends_bind_iff.mp followed with ⟨_, failed, _⟩ | ⟨_, _, _, rfl, told, rest⟩
      · obtain ⟨_, _, same⟩ := ends_record_iff.mp failed
        cases same
      · obtain ⟨kept, rfl, _⟩ := ends_record_iff.mp told
        obtain ⟨rfl, rfl⟩ := ends_done_iff.mp rest
        exact .recorded adding
  · intro recording
    cases recording with
    | refused adding =>
      exact ends_bind_iff.mpr (.inl ⟨_, ends_add_iff.mpr ⟨_, adding, rfl⟩, rfl⟩)
    | @recorded added stored kept adding =>
      exact ends_bind_iff.mpr (.inr ⟨added, stored, _, rfl, ends_add_iff.mpr ⟨_, adding, rfl⟩,
        ends_bind_iff.mpr (.inr ⟨_, (), [], rfl, ends_record_iff.mpr ⟨kept, rfl, rfl⟩, .refl _⟩)⟩)

/-- Asking for the generation of a value: the exchanges, and what comes of them. -/
inductive Requesting (context : GenerationContext) (deployment : String) (mode : UpdateMode)
    (request : GenerationRequest) :
    List (Exchange Needs) → Except GenerationError Variable → Prop where
  | refused {outcome : Outcome} {failure : ServerError} {kept : Bool}
      (read : Client.readGenerated request outcome = .error failure) :
      Requesting context deployment mode request
        [called (.post request.encode) outcome,
          noted (Event.failed context.request deployment request.name mode failure.message) kept]
        (.error (GenerationError.ofServer failure))
  | generated {outcome : Outcome} {found : Variable}
      (read : Client.readGenerated request outcome = .ok found) :
      Requesting context deployment mode request [called (.post request.encode) outcome] (.ok found)

theorem ends_requestValue_iff {request : GenerationRequest}
    {result : Except GenerationError Variable} :
    Ends (requestValue context deployment mode request) transcript result ↔
      Requesting context deployment mode request transcript result := by
  constructor
  · intro ended
    obtain ⟨before, reply, after, rfl, asks, followed⟩ := ends_andThen_iff.mp ended
    obtain ⟨outcome, rfl, rfl⟩ := ends_call_iff.mp asks
    cases read : Client.readGenerated request outcome with
    | ok found =>
      rw [read] at followed
      obtain ⟨rfl, rfl⟩ := ends_done_iff.mp followed
      exact .generated read
    | error failure =>
      rw [read] at followed
      obtain ⟨kept, rest, rfl, tail⟩ := (ends_ask_iff (I := Needs)).mp followed
      obtain ⟨rfl, rfl⟩ := ends_done_iff.mp tail
      exact .refused read
  · intro requesting
    refine ends_andThen_iff.mpr ?_
    cases requesting with
    | refused read => exact ⟨[_], _, [_], rfl, ends_call_iff.mpr ⟨_, rfl, read.symm⟩, .ask (.refl _)⟩
    | generated read => exact ⟨[_], _, [], rfl, ends_call_iff.mpr ⟨_, rfl, read.symm⟩, .refl _⟩

/-- The name under which a declared variable is known. -/
def nameOf (context : GenerationContext) (deployment : String) (declaration : Declaration) :
    String :=
  Name.qualify context.director deployment declaration.name

/-- What is asked of the config server for a declaration. -/
def requestOf (context : GenerationContext) (deployment : String) (flags : GenerationFlags)
    (declaration : Declaration) : Except LinkError GenerationRequest :=
  (parameters context.director context.links declaration deployment flags.useLinkAliases).map
    fun parameters =>
      { name := nameOf context deployment declaration, type := declaration.type, parameters,
        mode := requestMode (modeOf declaration flags) flags }

/-- The lookup of the version that a declaration may keep. -/
def keptOf (context : GenerationContext) (set : VariableSet) (flags : GenerationFlags)
    (declaration : Declaration) : Action GenerationError (Option VariableId) :=
  keptVersion (nameOf context set.deployment declaration) set (modeOf declaration flags) flags

/-- Generating a declared variable: the exchanges, and what comes of them. -/
inductive Generating (context : GenerationContext) (set : VariableSet) (flags : GenerationFlags)
    (declaration : Declaration) :
    List (Exchange Needs) → Except GenerationError GeneratedVariable → Prop where
  | malformed {error : NameError} (invalid : Name.validate declaration.name = .error error) :
      Generating context set flags declaration [] (.error (.name error))
  | unread {looked : List (Exchange Needs)} {error : GenerationError}
      (valid : Name.validate declaration.name = .ok ())
      (unread : Ends (keptOf context set flags declaration) looked (.error error)) :
      Generating context set flags declaration looked (.error error)
  /-- The version of an earlier deploy is used again. -/
  | reused {looked recorded : List (Exchange Needs)} {id : VariableId}
      {result : Except GenerationError GeneratedVariable}
      (valid : Name.validate declaration.name = .ok ())
      (kept : Ends (keptOf context set flags declaration) looked (.ok (some id)))
      (recording : Recording context set (nameOf context set.deployment declaration) id
        (modeOf declaration flags) false recorded result) :
      Generating context set flags declaration (looked ++ recorded) result
  | unlinked {looked : List (Exchange Needs)} {failure : LinkError}
      (valid : Name.validate declaration.name = .ok ())
      (unkept : Ends (keptOf context set flags declaration) looked (.ok none))
      (unlinked : requestOf context set.deployment flags declaration = .error failure) :
      Generating context set flags declaration looked (.error (.link failure))
  | refused {looked asked : List (Exchange Needs)} {request : GenerationRequest}
      {error : GenerationError} (valid : Name.validate declaration.name = .ok ())
      (unkept : Ends (keptOf context set flags declaration) looked (.ok none))
      (requested : requestOf context set.deployment flags declaration = .ok request)
      (requesting : Requesting context set.deployment (modeOf declaration flags) request asked
        (.error error)) :
      Generating context set flags declaration (looked ++ asked) (.error error)
  | generated {looked asked recorded : List (Exchange Needs)} {request : GenerationRequest}
      {found : Variable} {result : Except GenerationError GeneratedVariable}
      (valid : Name.validate declaration.name = .ok ())
      (unkept : Ends (keptOf context set flags declaration) looked (.ok none))
      (requested : requestOf context set.deployment flags declaration = .ok request)
      (requesting : Requesting context set.deployment (modeOf declaration flags) request asked
        (.ok found))
      (recording : Recording context set (nameOf context set.deployment declaration) found.id
        (modeOf declaration flags) true recorded result) :
      Generating context set flags declaration (looked ++ (asked ++ recorded)) result

/-- What is left of a generation where no version is kept. -/
def generateNew (context : GenerationContext) (set : VariableSet) (flags : GenerationFlags)
    (declaration : Declaration) : Action GenerationError GeneratedVariable :=
  match requestOf context set.deployment flags declaration with
  | .error failure => throw (.link failure)
  | .ok request => do
    let generated ← requestValue context set.deployment (modeOf declaration flags) request
    recordVersion context set (nameOf context set.deployment declaration) generated.id
      (modeOf declaration flags) true

theorem generate_of_valid (valid : Name.validate declaration.name = .ok ()) :
    generate context set flags declaration = (do
      match ← keptOf context set flags declaration with
      | some id =>
        recordVersion context set (nameOf context set.deployment declaration) id
          (modeOf declaration flags) false
      | none => generateNew context set flags declaration) := by
  simp only [generate, valid]
  refine congrArg (bind (keptOf context set flags declaration)) (funext fun kept => ?_)
  cases kept with
  | some id => rfl
  | none =>
    simp only [generateNew, requestOf]
    cases parameters context.director context.links declaration set.deployment
      flags.useLinkAliases <;> rfl

/-- A generation ends in the ways that are listed, and in no other. -/
theorem ends_generate_iff {result : Except GenerationError GeneratedVariable} :
    Ends (generate context set flags declaration) transcript result ↔
      Generating context set flags declaration transcript result := by
  cases checked : Name.validate declaration.name with
  | error error =>
    simp only [generate, checked]
    constructor
    · intro ended
      obtain ⟨rfl, rfl⟩ := ends_done_iff.mp ended
      exact .malformed checked
    · intro generating
      cases generating with
      | malformed invalid =>
        cases checked.symm.trans invalid
        exact .refl _
      | unread valid => cases checked.symm.trans valid
      | reused valid => cases checked.symm.trans valid
      | unlinked valid => cases checked.symm.trans valid
      | refused valid => cases checked.symm.trans valid
      | generated valid => cases checked.symm.trans valid
  | ok _ =>
    have valid : Name.validate declaration.name = .ok () := checked
    rw [generate_of_valid valid]
    constructor
    · intro ended
      rcases ends_bind_iff.mp ended with
        ⟨error, failed, rfl⟩ | ⟨looked, kept, after, rfl, known, followed⟩
      · exact .unread valid failed
      cases kept with
      | some id => exact .reused valid known (ends_recordVersion_iff.mp followed)
      | none =>
        simp only [generateNew] at followed
        cases requested : requestOf context set.deployment flags declaration with
        | error failure =>
          rw [requested] at followed
          obtain ⟨rfl, rfl⟩ := ends_done_iff.mp followed
          rw [List.append_nil]
          exact .unlinked valid known requested
        | ok request =>
          rw [requested] at followed
          rcases ends_bind_iff.mp followed with
            ⟨error, failed, rfl⟩ | ⟨asked, found, rest, rfl, given, recorded⟩
          · exact .refused valid known requested (ends_requestValue_iff.mp failed)
          · exact .generated valid known requested (ends_requestValue_iff.mp given)
              (ends_recordVersion_iff.mp recorded)
    · intro generating
      cases generating with
      | malformed invalid => cases checked.symm.trans invalid
      | unread _ unread => exact ends_bind_iff.mpr (.inl ⟨_, unread, rfl⟩)
      | reused _ kept recording =>
        exact ends_bind_iff.mpr (.inr ⟨_, _, _, rfl, kept, ends_recordVersion_iff.mpr recording⟩)
      | unlinked _ unkept unlinked =>
        refine ends_bind_iff.mpr (.inr ⟨_, _, [], (List.append_nil _).symm, unkept, ?_⟩)
        simp only [generateNew, unlinked]
        exact .refl _
      | refused _ unkept requested requesting =>
        refine ends_bind_iff.mpr (.inr ⟨_, _, _, rfl, unkept, ?_⟩)
        simp only [generateNew, requested]
        exact ends_bind_iff.mpr (.inl ⟨_, ends_requestValue_iff.mpr requesting, rfl⟩)
      | generated _ unkept requested requesting recording =>
        refine ends_bind_iff.mpr (.inr ⟨_, _, _, rfl, unkept, ?_⟩)
        simp only [generateNew, requested]
        exact ends_bind_iff.mpr (.inr ⟨_, _, _, rfl, ends_requestValue_iff.mpr requesting,
          ends_recordVersion_iff.mpr recording⟩)

/-- Generating declared variables in order: the exchanges, and what comes of them. -/
inductive GeneratingEach (context : GenerationContext) (set : VariableSet)
    (flags : GenerationFlags) : List Declaration → List (Exchange Needs) →
      Except GenerationError (List GeneratedVariable) → Prop where
  | nil : GeneratingEach context set flags [] [] (.ok [])
  | stopped {declaration : Declaration} {rest : List Declaration}
      {transcript : List (Exchange Needs)} {error : GenerationError}
      (stopped : Generating context set flags declaration transcript (.error error)) :
      GeneratingEach context set flags (declaration :: rest) transcript (.error error)
  | cons {declaration : Declaration} {rest : List Declaration}
      {first second : List (Exchange Needs)} {entry : GeneratedVariable}
      {result : Except GenerationError (List GeneratedVariable)}
      (here : Generating context set flags declaration first (.ok entry))
      (tail : GeneratingEach context set flags rest second result) :
      GeneratingEach context set flags (declaration :: rest) (first ++ second)
        (result.map fun entries => entry :: entries)

theorem ends_generateEach_iff {result : Except GenerationError (List GeneratedVariable)} :
    Ends (generateEach context set flags declarations) transcript result ↔
      GeneratingEach context set flags declarations transcript result := by
  constructor
  · intro ended
    induction declarations generalizing transcript result with
    | nil =>
      obtain ⟨rfl, rfl⟩ := ends_done_iff.mp ended
      exact .nil
    | cons declaration rest ih =>
      rcases ends_bind_iff.mp ended with
        ⟨error, failed, rfl⟩ | ⟨first, entry, second, rfl, here, followed⟩
      · exact .stopped (ends_generate_iff.mp failed)
      rcases ends_bind_iff.mp followed with
        ⟨error, failed, rfl⟩ | ⟨others, entries, after, rfl, tail, final⟩
      · exact .cons (ends_generate_iff.mp here) (ih failed)
      · obtain ⟨rfl, rfl⟩ := ends_done_iff.mp final
        rw [List.append_nil]
        exact .cons (ends_generate_iff.mp here) (ih tail)
  · intro generating
    induction generating with
    | nil => exact .refl _
    | stopped stopped => exact ends_bind_iff.mpr (.inl ⟨_, ends_generate_iff.mpr stopped, rfl⟩)
    | @cons _ _ first second entry result here _ ih =>
      refine ends_bind_iff.mpr (.inr ⟨first, entry, second, rfl, ends_generate_iff.mpr here, ?_⟩)
      cases result with
      | error error => exact ends_bind_iff.mpr (.inl ⟨error, ih, rfl⟩)
      | ok entries =>
        exact ends_bind_iff.mpr (.inr ⟨second, entries, [], (List.append_nil _).symm, ih, .refl _⟩)

theorem ends_current_iff {result : Except GenerationError (Option VariableSet)} :
    Ends (fromStore (Store.current deployment)) transcript result ↔
      ∃ reply : Except LedgerError (List VariableSet),
        transcript = [asked (.findSets deployment) reply] ∧
          result = (reply.map List.head?).mapError fun failure => .store (.ledger failure) := by
  refine ends_fromStore_iff.trans ⟨?_, ?_⟩
  · rintro ⟨_, ended, rfl⟩
    rcases ends_query_iff.mp ended with ⟨failure, rfl, rfl⟩ | ⟨found, rest, rfl, tail⟩
    · exact ⟨.error failure, rfl, rfl⟩
    · obtain ⟨rfl, rfl⟩ := ends_done_iff.mp tail
      exact ⟨.ok found, rfl, rfl⟩
  · rintro ⟨reply, rfl, rfl⟩
    cases reply with
    | error failure => exact ⟨_, ends_query_iff.mpr (.inl ⟨failure, rfl, rfl⟩), rfl⟩
    | ok found => exact ⟨_, ends_query_iff.mpr (.inr ⟨found, [], rfl, .refl _⟩), rfl⟩

/-- Generating the declared variables of a deployment: the exchanges, and what comes of
them. -/
inductive GeneratingAll (context : GenerationContext) (deployment : String)
    (flags : GenerationFlags) : List Declaration → List (Exchange Needs) →
      Except GenerationError (List GeneratedVariable) → Prop where
  | nothing : GeneratingAll context deployment flags [] [] (.ok [])
  | unread {first : Declaration} {rest : List Declaration} {failure : LedgerError} :
      GeneratingAll context deployment flags (first :: rest)
        [asked (.findSets deployment) (.error failure)] (.error (.store (.ledger failure)))
  | missing {first : Declaration} {rest : List Declaration} :
      GeneratingAll context deployment flags (first :: rest)
        [asked (.findSets deployment) (.ok [])] (.error (.missingSet deployment))
  | frozen {first : Declaration} {rest : List Declaration} {sets : List VariableSet}
      {set : VariableSet} (newest : sets.head? = some set) (frozen : set.writable = false) :
      GeneratingAll context deployment flags (first :: rest)
        [asked (.findSets deployment) (.ok sets)]
        (.error (.notWritable (nameOf context deployment first)))
  | each {first : Declaration} {rest : List Declaration} {sets : List VariableSet}
      {set : VariableSet} {transcript : List (Exchange Needs)}
      {result : Except GenerationError (List GeneratedVariable)}
      (newest : sets.head? = some set) (writable : set.writable = true)
      (generating : GeneratingEach context set flags (first :: rest) transcript result) :
      GeneratingAll context deployment flags (first :: rest)
        (asked (.findSets deployment) (.ok sets) :: transcript) result

theorem ends_generateAll_iff {result : Except GenerationError (List GeneratedVariable)} :
    Ends (generateAll context deployment flags declarations) transcript result ↔
      GeneratingAll context deployment flags declarations transcript result := by
  cases declarations with
  | nil =>
    constructor
    · intro ended
      obtain ⟨rfl, rfl⟩ := ends_done_iff.mp ended
      exact .nothing
    · intro generating
      cases generating
      exact .refl _
  | cons declaration rest =>
    constructor
    · intro ended
      rcases ends_bind_iff.mp ended with
        ⟨error, failed, rfl⟩ | ⟨_, found, followed, rfl, looked, generating⟩
      · obtain ⟨reply, rfl, same⟩ := ends_current_iff.mp failed
        cases reply <;> cases same
        exact .unread
      obtain ⟨reply, rfl, same⟩ := ends_current_iff.mp looked
      cases reply <;> cases same
      rename_i sets
      cases newest : sets.head? with
      | none =>
        rw [newest] at generating
        obtain ⟨rfl, rfl⟩ := ends_done_iff.mp generating
        obtain rfl := List.head?_eq_none_iff.mp newest
        exact .missing
      | some set =>
        rw [newest] at generating
        cases writable : set.writable with
        | false =>
          simp only [writable] at generating
          obtain ⟨rfl, rfl⟩ := ends_done_iff.mp generating
          exact .frozen newest writable
        | true =>
          simp only [writable] at generating
          exact .each newest writable (ends_generateEach_iff.mp generating)
    · intro generating
      cases generating with
      | unread => exact ends_bind_iff.mpr (.inl ⟨_, ends_current_iff.mpr ⟨.error _, rfl, rfl⟩, rfl⟩)
      | missing =>
        exact ends_bind_iff.mpr (.inr ⟨[_], none, [], rfl, ends_current_iff.mpr ⟨.ok [], rfl, rfl⟩,
          .refl _⟩)
      | @frozen _ _ sets set newest frozen =>
        refine ends_bind_iff.mpr (.inr ⟨[_], sets.head?, [], rfl,
          ends_current_iff.mpr ⟨.ok sets, rfl, rfl⟩, ?_⟩)
        simp only [newest, frozen]
        exact .refl _
      | @each _ _ sets set transcript result newest writable generating =>
        refine ends_bind_iff.mpr (.inr ⟨[_], sets.head?, transcript, rfl,
          ends_current_iff.mpr ⟨.ok sets, rfl, rfl⟩, ?_⟩)
        simp only [newest, writable]
        exact ends_generateEach_iff.mpr generating

end ManifestVariables.Generation
