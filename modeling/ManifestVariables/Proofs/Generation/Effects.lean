import Mathlib.Data.List.Forall2
import ManifestVariables.Proofs.ConfigServer.Generated
import ManifestVariables.Proofs.Generation.Account

/-!
# What generating variables does

A run of `Generation.generateAll` asks the config server, adds rows to the current set
and leaves events. `Generation.Run` says how these belong to the declared variables and to
the result: those that were generated have all of their effects, the first one that was not
at most its request and one event, and the others none (`Generation.generateAll_run`). This
holds whatever the config server answers and whichever queries fail, while others ask the
ledger as well.
-/

namespace ManifestVariables.Generation

open Program Engine
open Ledger (Later)

variable {context : GenerationContext} {set : VariableSet} {flags : GenerationFlags}
  {declaration : Declaration} {declarations : List Declaration} {entry : GeneratedVariable}
  {entries : List GeneratedVariable} {error : GenerationError} {deployment name : String}
  {id : VariableId} {mode : UpdateMode} {latestVersion : Bool} {faulty : Prop}
  {transcript first second : List (Exchange Needs)} {before between after : Ledger}

/-- The row that holds what was generated. -/
def rowOf (set : VariableSet) (entry : GeneratedVariable) : Association :=
  ⟨set.id, entry.name, entry.id, none⟩

/-- The event that tells of what was generated. -/
def eventOf (context : GenerationContext) (deployment : String) (entry : GeneratedVariable) :
    Event :=
  Event.created context.request deployment entry.name entry.id entry.mode entry.latestVersion

/-- The declarations that did not keep a version. -/
def renewed (declarations : List Declaration) (entries : List GeneratedVariable) :
    List Declaration :=
  ((declarations.zip entries).filter fun pair => pair.2.latestVersion).map Prod.fst

/-- A given version is to be recorded under a name: its row is added, or the set has a version of
the name already, which is found. -/
inductive Pins (set : VariableSet) (name : String) (given : VariableId)
    (transcript : List (Exchange Needs)) : VariableId → Prop where
  | added (inserted : [asked (.insert ⟨set.id, name, given, none⟩) (.ok ())] <:+: transcript) :
      Pins set name given transcript given
  | earlier {detail : String} {id : VariableId}
      (found : [asked (.insert ⟨set.id, name, given, none⟩) (.error (.uniqueViolation detail)),
        asked (.findId set.id name) (.ok (some id))] <:+: transcript) :
      Pins set name given transcript id

/-- Where the version of an entry comes from, unless the set has an earlier one. -/
inductive Sourced (context : GenerationContext) (set : VariableSet) (flags : GenerationFlags)
    (transcript : List (Exchange Needs)) (declaration : Declaration) (entry : GeneratedVariable) :
    Prop where
  /-- The version of an earlier deploy is kept. -/
  | kept {looked : List (Exchange Needs)} {id : VariableId} (kept : entry.latestVersion = false)
      (found : Ends (keptOf context set flags declaration) looked (.ok (some id)))
      (within : looked <:+: transcript)
      (pins : Pins set (nameOf context set.deployment declaration) id transcript entry.id)
  /-- The request for the declaration is answered with a version. -/
  | generated {request : GenerationRequest} {outcome : Outcome} {found : Variable}
      (renewed : entry.latestVersion = true)
      (requested : requestOf context set.deployment flags declaration = .ok request)
      (answered : [called (.post request.encode) outcome] <:+: transcript)
      (read : Client.readGenerated request outcome = .ok found)
      (pins : Pins set (nameOf context set.deployment declaration) found.id transcript entry.id)

/-- What was done for some declarations that were generated. -/
structure Generated (context : GenerationContext) (set : VariableSet) (flags : GenerationFlags)
    (before : Ledger) (declarations : List Declaration) (entries : List GeneratedVariable)
    (transcript : List (Exchange Needs)) (after : Ledger) : Prop where
  account : GeneratingEach context set flags declarations transcript (.ok entries)
  names : entries.map GeneratedVariable.name = declarations.map (nameOf context set.deployment)
  modes : entries.map GeneratedVariable.mode =
    declarations.map fun declaration => modeOf declaration flags
  /-- Each is told of once. -/
  events : events transcript = entries.map (eventOf context set.deployment)
  /-- Those that did not keep a version were asked for, once each. -/
  asks : ∃ requests, calls transcript = requests.map (fun request => .post request.encode) ∧
    List.Forall₂
      (fun declaration request => requestOf context set.deployment flags declaration = .ok request)
      (renewed declarations entries) requests
  /-- Each has the version that was kept or that its request was answered with, or an earlier one
  of the set. -/
  sources : List.Forall₂ (Sourced context set flags transcript) declarations entries
  rows : (rowsAdded transcript).Sublist (entries.map (rowOf set))
  sets : setsSaved transcript = []
  /-- The set has the versions that are answered, and had those that it keeps. -/
  held : ∀ entry ∈ entries, after.idOf? set.id entry.name = some entry.id ∧
    ∀ id, before.idOf? set.id entry.name = some id → entry.id = id

/-- What was done for a declaration that was not generated. -/
structure Stopped (context : GenerationContext) (set : VariableSet) (flags : GenerationFlags)
    (declaration : Declaration) (transcript : List (Exchange Needs)) (error : GenerationError) :
    Prop where
  account : Generating context set flags declaration transcript (.error error)
  rows : rowsAdded transcript = []
  sets : setsSaved transcript = []
  asks : calls transcript = [] ∨ ∃ request,
    requestOf context set.deployment flags declaration = .ok request ∧
      calls transcript = [.post request.encode]
  /-- A failure is told of where the request was what failed. -/
  events : (events transcript = [] ∧
      ∀ body outcome, called (.post body) outcome ∈ transcript →
        ¬ Client.FailedGeneration outcome) ∨
    ∃ request outcome failure, requestOf context set.deployment flags declaration = .ok request ∧
      called (.post request.encode) outcome ∈ transcript ∧ Client.FailedGeneration outcome ∧
      Client.readGenerated request outcome = .error failure ∧
      error = GenerationError.ofServer failure ∧
      Engine.events transcript = [Event.failed context.request set.deployment
        (nameOf context set.deployment declaration) (modeOf declaration flags) failure.message]

theorem idle_of_keptOf {result : Except GenerationError (Option VariableId)}
    (ended : Ends (keptOf context set flags declaration) transcript result) : Idle transcript := by
  unfold keptOf keptVersion at ended
  split at ended
  · obtain ⟨reply, asked, _⟩ := ends_fromStore_iff.mp ended
    exact idle_of_lookups (Store.asks_previousId trivial fun _ => trivial) asked
  · obtain ⟨rfl, _⟩ := ends_done_iff.mp ended
    exact idle_nil

/-- A version that was recorded is told of, and at most its row is added. -/
theorem Recording.of_ok
    (recording : Recording context set name id mode latestVersion transcript (.ok entry)) :
    entry.name = name ∧ entry.mode = mode ∧ entry.latestVersion = latestVersion ∧
      calls transcript = [] ∧ events transcript = [eventOf context set.deployment entry] ∧
      (rowsAdded transcript).Sublist [rowOf set entry] ∧ setsSaved transcript = [] := by
  generalize succeeded : Except.ok entry = result at recording
  cases recording with
  | refused => cases succeeded
  | @recorded added stored kept adding =>
    cases succeeded
    obtain ⟨uncalled, untold, unsaved⟩ := adding.effects
    refine ⟨rfl, rfl, rfl, ?_, ?_, ?_, ?_⟩
    · rw [calls_append, uncalled]
      rfl
    · rw [events_append, untold]
      rfl
    · rw [rowsAdded_append]
      rcases adding.rowsAdded_cases with ⟨rows, same⟩ | none
      · cases same
        rw [rows]
        exact .refl _
      · rw [none]
        exact List.nil_sublist _
    · rw [setsSaved_append, unsaved]
      rfl

theorem Pins.mono {given : VariableId} (pins : Pins set name given first id)
    (within : first <:+: second) : Pins set name given second id := by
  cases pins with
  | added inserted => exact .added (inserted.trans within)
  | earlier found => exact .earlier (found.trans within)

theorem Recording.pins
    (recording : Recording context set name id mode latestVersion transcript (.ok entry)) :
    Pins set name id transcript entry.id := by
  generalize succeeded : Except.ok entry = result at recording
  cases recording with
  | refused => cases succeeded
  | @recorded added stored kept adding =>
    cases succeeded
    have pins : Pins set name id added stored := by
      cases adding with
      | added => exact .added (List.infix_refl _)
      | held => exact .earlier (List.infix_refl _)
    exact pins.mono (List.prefix_append _ _).isInfix

theorem Sourced.mono (sourced : Sourced context set flags first declaration entry)
    (within : first <:+: second) : Sourced context set flags second declaration entry := by
  cases sourced with
  | kept kept found looked pins => exact .kept kept found (looked.trans within) (pins.mono within)
  | generated renewed requested answered read pins =>
    exact .generated renewed requested (answered.trans within) read (pins.mono within)

/-- A declaration is generated by recording a version that is kept, or one that is asked for. -/
theorem Generating.recording_of_ok
    (generating : Generating context set flags declaration transcript (.ok entry)) :
    (∃ looked recorded id, transcript = looked ++ recorded ∧
      Ends (keptOf context set flags declaration) looked (.ok (some id)) ∧
      Recording context set (nameOf context set.deployment declaration) id
        (modeOf declaration flags) false recorded (.ok entry)) ∨
    ∃ looked recorded request outcome found,
      transcript = looked ++ [called (.post request.encode) outcome] ++ recorded ∧
      Ends (keptOf context set flags declaration) looked (.ok none) ∧
      requestOf context set.deployment flags declaration = .ok request ∧
      Client.readGenerated request outcome = .ok found ∧
      Recording context set (nameOf context set.deployment declaration) found.id
        (modeOf declaration flags) true recorded (.ok entry) := by
  generalize succeeded : Except.ok entry = result at generating
  cases generating with
  | malformed => cases succeeded
  | unread => cases succeeded
  | unlinked => cases succeeded
  | refused => cases succeeded
  | reused _ kept recording =>
    subst succeeded
    exact .inl ⟨_, _, _, rfl, kept, recording⟩
  | generated _ unkept requested requesting recording =>
    subst succeeded
    cases requesting with
    | generated read =>
      exact .inr ⟨_, _, _, _, _, (List.append_assoc _ _ _).symm, unkept, requested, read, recording⟩

theorem Generating.sourced
    (generating : Generating context set flags declaration transcript (.ok entry)) :
    Sourced context set flags transcript declaration entry := by
  rcases generating.recording_of_ok with
    ⟨looked, recorded, id, rfl, kept, recording⟩ |
      ⟨looked, recorded, request, outcome, found, rfl, _, requested, read, recording⟩
  · obtain ⟨_, _, reused, _⟩ := recording.of_ok
    have pins := recording.pins.mono (List.suffix_append looked recorded).isInfix
    exact .kept reused kept (List.prefix_append _ _).isInfix pins
  · obtain ⟨_, _, renewed, _⟩ := recording.of_ok
    have pins := recording.pins.mono
      (List.suffix_append (looked ++ [called (.post request.encode) outcome]) recorded).isInfix
    exact .generated renewed requested ⟨looked, recorded, rfl⟩ read pins

theorem Recording.held
    (recording : Recording context set name id mode latestVersion transcript (.ok entry))
    (served : Served faulty before transcript after) :
    after.idOf? set.id entry.name = some entry.id := by
  generalize succeeded : Except.ok entry = result at recording
  cases recording with
  | refused => cases succeeded
  | recorded adding =>
    cases succeeded
    obtain ⟨_, served, rest⟩ := served.exists_between
    exact (Served.later rest).idOf?_eq_some (adding.recorded served)

/-- A version that could not be recorded leaves nothing behind. -/
theorem Recording.idle_of_error
    (recording : Recording context set name id mode latestVersion transcript (.error error)) :
    Idle transcript := by
  generalize failed : Except.error error = result at recording
  cases recording with
  | refused adding =>
    obtain ⟨uncalled, untold, unsaved⟩ := adding.effects
    refine ⟨uncalled, untold, ?_, unsaved⟩
    rcases adding.rowsAdded_cases with ⟨_, same⟩ | none
    · cases same
    · exact none
  | recorded => cases failed

theorem generated_nil : Generated context set flags before [] [] [] after :=
  ⟨.nil, rfl, rfl, rfl, ⟨[], rfl, .nil⟩, .nil, .slnil, rfl, nofun⟩

/-- A version that is recorded once it was looked up or asked for. -/
theorem Recording.generated (recording : Recording context set
      (nameOf context set.deployment declaration) id (modeOf declaration flags) latestVersion
      second (.ok entry))
    (generating : Generating context set flags declaration (first ++ second) (.ok entry))
    (served : Served faulty before (first ++ second) after)
    (untold : events first = []) (unadded : rowsAdded first = []) (unsaved : setsSaved first = [])
    (asked : ∃ requests, calls first = requests.map (fun request => .post request.encode) ∧
      List.Forall₂ (fun declaration request =>
        requestOf context set.deployment flags declaration = .ok request)
      (if latestVersion then [declaration] else []) requests) :
    Generated context set flags before [declaration] [entry] (first ++ second) after := by
  obtain ⟨sameName, sameMode, sameVersion, uncalled, told, rows, unsavedToo⟩ := recording.of_ok
  obtain ⟨requests, calls, requested⟩ := asked
  obtain ⟨_, _, followed⟩ := served.exists_between
  have held := recording.held followed
  refine ⟨?_, ?_, ?_, ?_, ⟨requests, ?_, ?_⟩, .cons generating.sourced .nil, ?_, ?_, ?_⟩
  · have account := GeneratingEach.cons generating .nil
    rw [List.append_nil] at account
    exact account
  · simpa using sameName
  · simpa using sameMode
  · rw [events_append, untold, told]
    rfl
  · rw [calls_append, calls, uncalled, List.append_nil]
  · subst sameVersion
    cases version : entry.latestVersion <;> simpa [renewed, version] using requested
  · rw [rowsAdded_append, unadded]
    exact rows
  · rw [setsSaved_append, unsaved, unsavedToo]
    rfl
  · intro other member
    obtain rfl := List.mem_singleton.mp member
    refine ⟨held, fun id pinned => ?_⟩
    exact Option.some.inj (held.symm.trans ((Served.later served).idOf?_eq_some pinned))

/-- A declaration that was generated has its effects. -/
theorem Generating.of_ok
    (generating : Generating context set flags declaration transcript (.ok entry))
    (served : Served faulty before transcript after) :
    Generated context set flags before [declaration] [entry] transcript after := by
  rcases generating.recording_of_ok with
    ⟨looked, recorded, id, rfl, kept, recording⟩ |
      ⟨looked, recorded, request, outcome, found, rfl, unkept, requested, _, recording⟩
  · have idle := idle_of_keptOf kept
    exact recording.generated generating served idle.events idle.rows idle.sets
      ⟨[], idle.calls, .nil⟩
  · have idle := idle_of_keptOf unkept
    refine recording.generated generating served ?_ ?_ ?_ ⟨[request], ?_, .cons requested .nil⟩
    · rw [events_append, idle.events]
      rfl
    · rw [rowsAdded_append, idle.rows]
      rfl
    · rw [setsSaved_append, idle.sets]
      rfl
    · rw [calls_append, idle.calls]
      rfl

/-- What was done since a ledger was done since an earlier one. -/
theorem Generated.earlier (generated : Generated context set flags between declarations entries
      transcript after) (passed : Later before between) :
    Generated context set flags before declarations entries transcript after :=
  { generated with
    held := fun entry member =>
      let ⟨held, pinned⟩ := generated.held entry member
      ⟨held, fun id had => pinned id (passed.idOf?_eq_some had)⟩ }

/-- The effects of one declaration are followed by those of the others. -/
theorem Generated.cons
    (generating : Generating context set flags declaration first (.ok entry))
    (here : Generated context set flags before [declaration] [entry] first between)
    (rest : Generated context set flags before declarations entries second after)
    (followed : Later between after) :
    Generated context set flags before (declaration :: declarations) (entry :: entries)
      (first ++ second) after := by
  obtain ⟨requests, asks, requested⟩ := here.asks
  obtain ⟨others, asksLater, requestedLater⟩ := rest.asks
  refine ⟨.cons generating rest.account, ?_, ?_, ?_, ⟨requests ++ others, ?_, ?_⟩,
    .cons ?_ (rest.sources.imp ?_), ?_, ?_, ?_⟩
  · rw [List.map_cons, List.map_cons, rest.names, (List.cons.inj here.names).1]
  · rw [List.map_cons, List.map_cons, rest.modes, (List.cons.inj here.modes).1]
  · rw [events_append, here.events, rest.events]
    rfl
  · rw [calls_append, asks, asksLater, List.map_append]
  · have both : renewed (declaration :: declarations) (entry :: entries) =
        renewed [declaration] [entry] ++ renewed declarations entries := by
      simp only [renewed, List.zip_cons_cons, List.zip_nil_left, ← List.map_append,
        ← List.filter_append, List.singleton_append]
    rw [both]
    exact List.rel_append requested requestedLater
  · exact generating.sourced.mono (List.prefix_append _ _).isInfix
  · exact fun _ _ sourced => sourced.mono (List.suffix_append _ _).isInfix
  · rw [rowsAdded_append]
    exact here.rows.append rest.rows
  · rw [setsSaved_append, here.sets, rest.sets]
    rfl
  · intro other member
    rcases List.mem_cons.mp member with rfl | later
    · obtain ⟨held, pinned⟩ := here.held other List.mem_cons_self
      exact ⟨followed.idOf?_eq_some held, pinned⟩
    · exact rest.held other later

theorem name_of_requestOf {request : GenerationRequest}
    (requested : requestOf context deployment flags declaration = .ok request) :
    request.name = nameOf context deployment declaration := by
  unfold requestOf at requested
  cases given : parameters context.director context.links declaration deployment
    flags.useLinkAliases <;> rw [given] at requested <;> cases requested
  rfl

theorem stopped_of_idle
    (account : Generating context set flags declaration transcript (.error error))
    (idle : Idle transcript) : Stopped context set flags declaration transcript error :=
  ⟨account, idle.rows, idle.sets, .inl idle.calls,
    .inl ⟨idle.events, fun _ _ member => absurd member idle.not_called⟩⟩

/-- A declaration that was not generated has at most asked for its value. -/
theorem Generating.stopped
    (generating : Generating context set flags declaration transcript (.error error)) :
    Stopped context set flags declaration transcript error := by
  have account := generating
  generalize failed : Except.error error = result at generating
  cases generating with
  | malformed => exact stopped_of_idle account idle_nil
  | unread _ unread => exact stopped_of_idle account (idle_of_keptOf unread)
  | unlinked _ unkept => exact stopped_of_idle account (idle_of_keptOf unkept)
  | reused _ kept recording =>
    subst failed
    exact stopped_of_idle account ((idle_of_keptOf kept).append recording.idle_of_error)
  | @refused looked _ request _ _ unkept requested requesting =>
    have idle := idle_of_keptOf unkept
    cases failed
    generalize failed : Except.error error = result at requesting
    cases requesting with
    | @refused outcome failure kept read =>
      cases failed
      have fails := (Client.exists_readGenerated_error_iff request).mp ⟨failure, read⟩
      refine ⟨account, ?_, ?_, .inr ⟨request, requested, ?_⟩, .inr ⟨request, outcome, failure,
        requested, by simp, fails, read, rfl, ?_⟩⟩
      · rw [rowsAdded_append, idle.rows]
        rfl
      · rw [setsSaved_append, idle.sets]
        rfl
      · rw [calls_append, idle.calls]
        rfl
      · rw [events_append, idle.events, ← name_of_requestOf requested]
        rfl
    | generated => cases failed
  | @generated looked _ recorded request _ _ _ unkept requested requesting recording =>
    subst failed
    have idle := idle_of_keptOf unkept
    have idleToo := recording.idle_of_error
    cases requesting with
    | @generated outcome found read =>
      refine ⟨account, ?_, ?_, .inr ⟨request, requested, ?_⟩, .inl ⟨?_, ?_⟩⟩
      · rw [rowsAdded_append, rowsAdded_append, idle.rows, idleToo.rows]
        rfl
      · rw [setsSaved_append, setsSaved_append, idle.sets, idleToo.sets]
        rfl
      · rw [calls_append, calls_append, idle.calls, idleToo.calls]
        rfl
      · rw [events_append, events_append, idle.events, idleToo.events]
        rfl
      · intro body given member fails
        obtain ⟨failure, refused⟩ := (Client.exists_readGenerated_error_iff request).mpr fails
        rcases List.mem_append.mp member with before | later
        · exact idle.not_called before
        rcases List.mem_append.mp later with here | after
        · cases List.mem_singleton.mp here
          cases read.symm.trans refused
        · exact idleToo.not_called after

/-- Up to the first declaration that is not generated, all are. -/
theorem GeneratingEach.cases {result : Except GenerationError (List GeneratedVariable)}
    (generating : GeneratingEach context set flags declarations transcript result)
    (served : Served faulty before transcript after) :
    (∃ entries, result = .ok entries ∧
        Generated context set flags before declarations entries transcript after) ∨
      ∃ done declaration later entries first second error,
        declarations = done ++ declaration :: later ∧ transcript = first ++ second ∧
          result = .error error ∧
          Generated context set flags before done entries first after ∧
          Stopped context set flags declaration second error := by
  induction generating generalizing before with
  | nil => exact .inl ⟨[], rfl, generated_nil⟩
  | @stopped declaration rest transcript error stopped =>
    exact .inr ⟨[], declaration, rest, [], [], transcript, error, rfl, rfl, rfl, generated_nil,
      stopped.stopped⟩
  | @cons declaration rest first second entry _ here tail ih =>
    obtain ⟨between, served, followed⟩ := served.exists_between
    have generated := here.of_ok served
    have passed := Served.later served
    have still := Served.later followed
    rcases ih followed with
      ⟨entries, rfl, others⟩ |
        ⟨done, failing, later, entries, part, last, error, rfl, rfl, rfl, others, stopped⟩
    · exact .inl ⟨entry :: entries, rfl, .cons here generated (others.earlier passed) still⟩
    · exact .inr ⟨declaration :: done, failing, later, entry :: entries, first ++ part, last, error,
        rfl, (List.append_assoc _ _ _).symm, rfl,
        .cons here generated (others.earlier passed) still, stopped⟩

/-- The set that is the current one of a deployment when a run begins, and how it is looked up. -/
structure Current (before : Ledger) (deployment : String) (looked : List (Exchange Needs))
    (set : VariableSet) : Prop where
  newest : ∃ listed, Later before listed ∧ (listed.setsOf deployment).head? = some set ∧
    looked = [asked (.findSets deployment) (.ok (listed.setsOf deployment))]
  own : set.deployment = deployment
  writable : set.writable = true

/-- Why a run has no set to generate into, which it finds with one query. -/
inductive NoSet (context : GenerationContext) (deployment : String) (before : Ledger) :
    List Declaration → List (Exchange Needs) → GenerationError → Prop where
  | unread {declaration : Declaration} {rest : List Declaration} {failure : LedgerError} :
      NoSet context deployment before (declaration :: rest)
        [asked (.findSets deployment) (.error failure)] (.store (.ledger failure))
  | missing {listed : Ledger} {declaration : Declaration} {rest : List Declaration}
      (passed : Later before listed) (none : listed.setsOf deployment = []) :
      NoSet context deployment before (declaration :: rest)
        [asked (.findSets deployment) (.ok [])] (.missingSet deployment)
  | frozen {listed : Ledger} {set : VariableSet} {first : Declaration} {rest : List Declaration}
      (passed : Later before listed) (newest : (listed.setsOf deployment).head? = some set)
      (frozen : set.writable = false) :
      NoSet context deployment before (first :: rest)
        [asked (.findSets deployment) (.ok (listed.setsOf deployment))]
        (.notWritable (nameOf context deployment first))

/-- What a run comes to, and how its effects belong to the declarations. -/
inductive Run (context : GenerationContext) (deployment : String) (flags : GenerationFlags)
    (before after : Ledger) : List Declaration → List (Exchange Needs) →
      Except GenerationError (List GeneratedVariable) → Prop where
  | nothing : Run context deployment flags before after [] [] (.ok [])
  | unstarted {declarations : List Declaration} {transcript : List (Exchange Needs)}
      {error : GenerationError} (cause : NoSet context deployment before declarations transcript error)
      (idle : Idle transcript) :
      Run context deployment flags before after declarations transcript (.error error)
  | finished {set : VariableSet} {declarations : List Declaration}
      {entries : List GeneratedVariable} {looked transcript : List (Exchange Needs)}
      (current : Current before deployment looked set) (idle : Idle looked)
      (generated : Generated context set flags before declarations entries transcript after) :
      Run context deployment flags before after declarations (looked ++ transcript) (.ok entries)
  /-- Declarations are generated up to one that is not. -/
  | stopped {set : VariableSet} {done later : List Declaration} {declaration : Declaration}
      {entries : List GeneratedVariable} {looked first second : List (Exchange Needs)}
      {error : GenerationError} (current : Current before deployment looked set) (idle : Idle looked)
      (generated : Generated context set flags before done entries first after)
      (stopped : Stopped context set flags declaration second error) :
      Run context deployment flags before after (done ++ declaration :: later)
        (looked ++ (first ++ second)) (.error error)

/-- A deployment with one set, for which somebody generates without links. -/
def sampleContext : GenerationContext where
  director := "d"
  links := fun name deployment link _ => .error (.unknownLink link.source name deployment)
  request := { actor := "alice", task := some "1" }

def sampleFlags : GenerationFlags := ⟨false, false, false⟩

def sampleDeclaration : Declaration := ⟨"pw", "password", [], none, none⟩

def sampleWorld : World := calm [] (Ledger.empty.save (.fresh ⟨"set-1"⟩ "o"))

end ManifestVariables.Generation
