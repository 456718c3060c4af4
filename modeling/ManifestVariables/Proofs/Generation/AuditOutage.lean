import ManifestVariables.Generation.Basic
import ManifestVariables.Proofs.Engine.Effects
import ManifestVariables.Proofs.Program.Unheeded

/-!
# Deploys while the audit log fails

An audit log may keep every event, none, or whichever it likes. Generating variables and
preparing a property do not notice: they ask the config server and the ledger the same
questions in the same order, offer the same events, and come to the same result
(`Generation.deploy_unswayed`). Every place that leaves an event drops the answer
(`Engine.IgnoresLog`), and what is composed of such parts drops it as well.
-/

namespace ManifestVariables.Engine

open Program

variable {ε δ α β : Type}

/-- The question offers an event to the audit log. -/
def OffersEvent (need : Need) : Prop :=
  ∃ event, need = .record event

/-- Whether events are kept makes no difference to how a program goes on. -/
abbrev IgnoresLog (program : Program Needs α) : Prop :=
  program.Ignores OffersEvent

theorem heeded (need : Need) (other : ¬ OffersEvent need) :
    IgnoresLog (.ask need .done : Program Needs need.Reply) :=
  ⟨fun offers => absurd offers other, fun _ => trivial⟩

theorem ignoresLog_ofClient (program : Program Client.Calls α) : IgnoresLog (ofClient program) :=
  ignores_translate (fun call => heeded (.call call) nofun) program

theorem ignoresLog_ofStore (operation : Store.Operation α) : IgnoresLog (ofStore operation) :=
  ignores_translate (fun query => heeded (.ledger query) nofun) operation

theorem ignoresLog_record (event : Event) : IgnoresLog (record event : Action ε Unit) :=
  ⟨fun _ _ _ => rfl, fun _ => trivial⟩

theorem ignoresLog_ofProgram {program : Program Needs (Except δ α)} (cause : δ → ε)
    (ignores : IgnoresLog program) : IgnoresLog (Action.ofProgram cause program) :=
  ignores.andThen fun _ => trivial

theorem ignoresLog_pure (value : α) : IgnoresLog (pure value : Action ε α) :=
  trivial

theorem ignoresLog_throw (failure : ε) : IgnoresLog (throw failure : Action ε α) :=
  trivial

theorem ignoresLog_bind {first : Action ε α} {next : α → Action ε β} (ignores : IgnoresLog first)
    (followed : ∀ value, IgnoresLog (next value)) :
    IgnoresLog (first >>= next : Action ε β) := by
  refine Ignores.andThen ignores fun result => ?_
  cases result with
  | error failure => trivial
  | ok value => exact followed value

theorem ignoresLog_ite {condition : Prop} [Decidable condition] {first second : Action ε α}
    (ignores : IgnoresLog first) (otherwise : IgnoresLog second) :
    IgnoresLog (if condition then first else second) := by
  split
  · exact ignores
  · exact otherwise

/-- Surroundings of which the audit log is a part of its own: it decides whether it keeps an
event by what was offered to it before. -/
def audited {σ τ : Type} (answer : (need : Need) → σ → need.Reply × σ)
    (keep : Event → τ → Bool × τ) (need : Need) (state : σ × τ) : need.Reply × (σ × τ) :=
  match need with
  | .record event => ((keep event state.2).1, state.1, (keep event state.2).2)
  | .call made => ((answer (.call made) state.1).1, (answer (.call made) state.1).2, state.2)
  | .ledger query =>
    ((answer (.ledger query) state.1).1, (answer (.ledger query) state.1).2, state.2)

/-- Whatever two audit logs do, the rest of the surroundings being the same: the result is
the same, the same questions are asked in the same order, and the same is left behind. -/
def Unswayed (program : Program Needs α) : Prop :=
  ∀ {σ τ υ : Type} (answer : (need : Need) → σ → need.Reply × σ) (keep : Event → τ → Bool × τ)
    (keepElsewhere : Event → υ → Bool × υ) (state : σ) (log : τ) (elsewhere : υ),
    let transcript := program.transcript (I := Needs) (audited answer keep) (state, log)
    let other := program.transcript (I := Needs) (audited answer keepElsewhere) (state, elsewhere)
    let left := program.run (I := Needs) (audited answer keep) (state, log)
    let right := program.run (I := Needs) (audited answer keepElsewhere) (state, elsewhere)
    left.1 = right.1 ∧ transcript.map Exchange.question = other.map Exchange.question ∧
      calls transcript = calls other ∧ left.2.1 = right.2.1

/-- The calls of a transcript are determined by its questions. -/
theorem calls_eq_of_questions_eq {first second : List (Exchange Needs)}
    (same : first.map Exchange.question = second.map Exchange.question) :
    calls first = calls second := by
  have read (transcript : List (Exchange Needs)) :
      calls transcript = (transcript.map Exchange.question).filterMap
        fun question : Needs.Question => Need.call? question := by
    simp only [List.filterMap_map]
    rfl
  rw [read, read, same]

theorem IgnoresLog.unswayed {program : Program Needs α} (ignores : IgnoresLog program) :
    Unswayed program := by
  intro σ τ υ answer keep keepElsewhere state log elsewhere
  have replies (need : Need) (left : σ × τ) (right : σ × υ) (asks : ¬ OffersEvent need)
      (same : left.1 = right.1) :
      (audited answer keep need left).1 = (audited answer keepElsewhere need right).1 := by
    cases need with
    | record event => exact absurd ⟨event, rfl⟩ asks
    | call made => exact congrArg (fun state => (answer (.call made) state).1) same
    | ledger query => exact congrArg (fun state => (answer (.ledger query) state).1) same
  have step (need : Need) (left : σ × τ) (right : σ × υ) (same : left.1 = right.1) :
      (audited answer keep need left).2.1 = (audited answer keepElsewhere need right).2.1 := by
    cases need with
    | record event => exact same
    | call made => exact congrArg (fun state => (answer (.call made) state).2) same
    | ledger query => exact congrArg (fun state => (answer (.ledger query) state).2) same
  obtain ⟨result, questions, left⟩ := Ignores.run_related (I := Needs) ignores replies step
    (state, log) (state, elsewhere) rfl
  exact ⟨result, questions, calls_eq_of_questions_eq questions, left⟩

end ManifestVariables.Engine

namespace ManifestVariables.Generation

open Engine Program

theorem ignoresLog_fromStore {α : Type} (operation : Store.Operation α) :
    IgnoresLog (fromStore operation) :=
  ignoresLog_ofProgram _ (ignoresLog_ofStore operation)

variable (context : GenerationContext) (deployment : String) (set : VariableSet)
  (flags : GenerationFlags)

theorem ignoresLog_keptVersion (name : String) (mode : UpdateMode) :
    IgnoresLog (keptVersion name set mode flags) :=
  ignoresLog_ite (ignoresLog_fromStore _) (ignoresLog_pure _)

theorem ignoresLog_recordVersion (name : String) (id : VariableId) (mode : UpdateMode)
    (latestVersion : Bool) : IgnoresLog (recordVersion context set name id mode latestVersion) :=
  ignoresLog_bind (ignoresLog_fromStore _) fun _ =>
    ignoresLog_bind (ignoresLog_record _) fun _ => ignoresLog_pure _

theorem ignoresLog_requestValue (mode : UpdateMode) (request : GenerationRequest) :
    IgnoresLog (requestValue context deployment mode request) := by
  refine (ignoresLog_ofClient _).andThen fun result => ?_
  cases result with
  | ok generated => trivial
  | error failure => exact ⟨fun _ _ _ => rfl, fun _ => trivial⟩

theorem ignoresLog_generate (declaration : Declaration) :
    IgnoresLog (generate context set flags declaration) := by
  unfold generate
  cases Name.validate declaration.name with
  | error failure => exact ignoresLog_throw _
  | ok =>
    refine ignoresLog_bind (ignoresLog_keptVersion set flags _ _) fun kept => ?_
    cases kept with
    | some id => exact ignoresLog_recordVersion context set _ _ _ _
    | none =>
      cases parameters context.director context.links declaration set.deployment
        flags.useLinkAliases with
      | error failure => exact ignoresLog_throw _
      | ok parameters =>
        exact ignoresLog_bind (ignoresLog_requestValue context _ _ _) fun _ =>
          ignoresLog_recordVersion context set _ _ _ _

theorem ignoresLog_generateEach (declarations : List Declaration) :
    IgnoresLog (generateEach context set flags declarations) := by
  induction declarations with
  | nil => exact ignoresLog_pure _
  | cons declaration rest ih =>
    exact ignoresLog_bind (ignoresLog_generate context set flags declaration) fun _ =>
      ignoresLog_bind ih fun _ => ignoresLog_pure _

theorem ignoresLog_generateAll (declarations : List Declaration) :
    IgnoresLog (generateAll context deployment flags declarations) := by
  cases declarations with
  | nil => exact ignoresLog_pure _
  | cons first rest =>
    refine ignoresLog_bind (ignoresLog_fromStore _) fun current => ?_
    cases current with
    | none => exact ignoresLog_throw _
    | some set =>
      exact ignoresLog_ite (ignoresLog_throw _) (ignoresLog_generateEach context set flags _)

theorem ignoresLog_generateProperty (name type : String) :
    IgnoresLog (generateProperty context deployment name type) :=
  ignoresLog_bind (ignoresLog_requestValue context deployment _ _) fun _ => ignoresLog_record _

theorem ignoresLog_prepareProperty (provided default : Option Json) (type : Option String) :
    IgnoresLog (prepareProperty context deployment provided default type) := by
  rcases provided with _ | value
  · exact ignoresLog_pure _
  cases value with
  | str text =>
    refine ignoresLog_ite (ignoresLog_pure _) ?_
    cases Placeholder.path text with
    | error failure => exact ignoresLog_throw _
    | ok path =>
      refine ignoresLog_bind (ignoresLog_ofProgram _ (ignoresLog_ofClient _)) fun stored => ?_
      refine ignoresLog_ite (ignoresLog_pure _) ?_
      match default, type with
      | some value, _ => exact ignoresLog_pure _
      | none, none => exact ignoresLog_pure _
      | none, some type =>
        refine ignoresLog_ite ?_ (ignoresLog_pure _)
        exact ignoresLog_bind (ignoresLog_generateProperty context deployment _ _) fun _ =>
          ignoresLog_pure _
  | _ => exact ignoresLog_pure _

/-- Neither generating the variables of a deployment nor preparing a property notices what
the audit log does. -/
theorem deploy_unswayed (declarations : List Declaration) (provided default : Option Json)
    (type : Option String) :
    Unswayed (generateAll context deployment flags declarations) ∧
      Unswayed (prepareProperty context deployment provided default type) :=
  ⟨(ignoresLog_generateAll context deployment flags declarations).unswayed,
    (ignoresLog_prepareProperty context deployment provided default type).unswayed⟩

end ManifestVariables.Generation
