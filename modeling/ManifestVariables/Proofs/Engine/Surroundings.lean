import ManifestVariables.Engine.World
import ManifestVariables.Proofs.Ledger.Rows
import ManifestVariables.Proofs.Program.Transcript

/-!
# Surroundings of a transcript

`Engine.Served` relates a transcript to the ledger that answered its queries, while
others ask the same ledger at any time. Calls may have any outcome: what is assumed
of the config server is said of the reports in a transcript, each of which gives the
value of one version. The surroundings in memory are a case of all this
(`Engine.served_transcript`), with their rivals as the others.
-/

namespace ManifestVariables.Engine

open Ledger (Query Later respond)

/-- A query to the ledger and its answer. -/
abbrev asked (query : Query) (reply : Except LedgerError query.Result) : Exchange Needs :=
  ⟨.ledger query, reply⟩

/-- A call to the config server and its outcome. -/
abbrev called (call : Call) (outcome : Outcome) : Exchange Needs :=
  ⟨.call call, outcome⟩

/-- How a ledger takes part in an exchange. Calls and events do not concern it. Where
faults are possible, a query may also fail without effect. -/
inductive Answers (faulty : Prop) : Ledger → Exchange Needs → Ledger → Prop where
  | query {before after : Ledger} {query : Query} {reply : Except LedgerError query.Result}
      (responded : respond query before = (reply, after)) :
      Answers faulty before (asked query reply) after
  | fault (possible : faulty) (ledger : Ledger) (query : Query) (failure : LedgerError) :
      Answers faulty ledger (asked query (.error failure)) ledger
  | call (ledger : Ledger) (call : Call) (outcome : Outcome) :
      Answers faulty ledger (called call outcome) ledger
  | record (ledger : Ledger) (event : Event) (kept : Bool) :
      Answers faulty ledger ⟨.record event, kept⟩ ledger

/-- A ledger answers a transcript while others ask it as well. -/
abbrev Served (faulty : Prop) : Ledger → List (Exchange Needs) → Ledger → Prop :=
  Serves (Answers faulty) Later

variable {faulty : Prop} {before after : Ledger}

theorem Answers.later {exchange : Exchange Needs}
    (answered : Answers faulty before exchange after) : Later before after := by
  cases answered with
  | @query before after query reply responded =>
    have led : Later before (respond query before).2 := .query query (.refl _)
    rw [responded] at led
    exact led
  | fault => exact .refl _
  | call => exact .refl _
  | record => exact .refl _

theorem Served.later {transcript : List (Exchange Needs)}
    (served : Served faulty before transcript after) : Later before after :=
  served.keeps (fun change passed => passed.trans change)
    (fun reply passed => passed.trans reply.later) (.refl before)

/-- A query that succeeds was not subject to a fault. -/
theorem Answers.responded_of_ok {query : Query} {result : query.Result}
    (answered : Answers faulty before (asked query (.ok result)) after) :
    respond query before = (.ok result, after) := by
  cases answered with
  | query responded => exact responded

theorem Answers.findId {set : SetId} {name : String} {found : Option VariableId}
    (answered : Answers faulty before (asked (.findId set name) (.ok found)) after) :
    before.idOf? set name = found ∧ after = before := by
  obtain ⟨replied, same⟩ := Prod.mk.inj answered.responded_of_ok
  exact ⟨Except.ok.inj replied, same.symm⟩

/-- A lookup that is not subject to a fault finds what the ledger has. -/
theorem Answers.reply_of_findId {set : SetId} {name : String}
    {reply : Except LedgerError (Option VariableId)}
    (answered : Answers False before (asked (.findId set name) reply) after) :
    reply = .ok (before.idOf? set name) := by
  cases answered with
  | query responded => exact (Prod.mk.inj responded).1.symm
  | fault possible => exact possible.elim

theorem Answers.insert {row : Association}
    (answered : Answers faulty before (asked (.insert row) (.ok ())) after) :
    before.insert row = .ok after := by
  have responded := answered.responded_of_ok
  simp only [respond] at responded
  split at responded
  next inserted =>
    obtain ⟨_, rfl⟩ := Prod.mk.inj responded
    exact inserted
  · cases (Prod.mk.inj responded).1

/-- An exchange reports the value of a version. -/
inductive Reports : Exchange Needs → VariableId → Json → Prop where
  /-- The latest version of a name. -/
  | latest {name : String} {outcome : Outcome} {found : Variable}
      (read : Client.readByName name outcome = .ok found) :
      Reports (called (.get name) outcome) found.id found.value
  /-- A version that was asked for by its id. -/
  | version {name : String} {id : VariableId} {outcome : Outcome} {found : Variable}
      (read : Client.readById name id outcome = .ok found) :
      Reports (called (.getById id) outcome) id found.value

/-- Some exchange reports the value of a version. -/
def Reported (transcript : List (Exchange Needs)) (id : VariableId) (value : Json) : Prop :=
  ∃ exchange ∈ transcript, Reports exchange id value

theorem Reported.mono {first second : List (Exchange Needs)} {id : VariableId} {value : Json}
    (included : first ⊆ second) (reported : Reported first id value) :
    Reported second id value := by
  obtain ⟨exchange, member, reports⟩ := reported
  exact ⟨exchange, included member, reports⟩

/-- What is taken out of a list is the first element that fits. -/
theorem take?_cases {α : Type} (fits : α → Bool) (list : List α) :
    (World.take? fits list = none ∧ list.filter fits = []) ∨
      ∃ taken others, World.take? fits list = some (taken, others) ∧ fits taken = true ∧
        list.filter fits = taken :: others.filter fits ∧ taken ∈ list ∧ others ⊆ list := by
  induction list with
  | nil => exact .inl ⟨rfl, rfl⟩
  | cons first rest ih =>
    rw [World.take?]
    cases here : fits first with
    | true =>
      exact .inr ⟨first, rest, rfl, here, by simp [here], List.mem_cons_self,
        List.subset_cons_self _ _⟩
    | false =>
      rw [List.filter_cons_of_neg (by simp [here])]
      rcases ih with ⟨none, nothing⟩ | ⟨taken, others, found, fitting, same, member, among⟩
      · exact .inl ⟨by rw [none]; rfl, nothing⟩
      · refine .inr ⟨taken, first :: others, by rw [found]; rfl, fitting, ?_,
          List.mem_cons_of_mem _ member, List.cons_subset_cons _ among⟩
        rw [List.filter_cons_of_neg (by simp [here]), same]

/-- A fault that a lookup of a version may meet. -/
def isLookupFault (fault : Ledger.QueryKind × LedgerError) : Bool :=
  fault.1 = .findId

/-- A lookup of a version finds what the ledger has, or meets the first fault that is to
come. -/
theorem answer_findId_cases (set : SetId) (name : String) (world : World) :
    (world.answer (.ledger (.findId set name)) = (.ok (world.ledger.idOf? set name), world) ∧
        world.faults.filter isLookupFault = []) ∨
      ∃ failure others, (.findId, failure) ∈ world.faults ∧ others ⊆ world.faults ∧
        world.faults.filter isLookupFault = (.findId, failure) :: others.filter isLookupFault ∧
        world.answer (.ledger (.findId set name)) =
          (.error failure, { world with faults := others }) := by
  rcases take?_cases isLookupFault world.faults with
    ⟨absent, nothing⟩ | ⟨⟨kind, failure⟩, others, found, fits, same, member, among⟩
  · have due : World.take? (fun fault => fault.1 = (Query.findId set name).kind) world.faults =
        none := absent
    refine .inl ⟨?_, nothing⟩
    simp only [World.answer, World.answerQuery, due]
    rfl
  · obtain rfl : kind = .findId := by simpa [isLookupFault] using fits
    have due : World.take? (fun fault => fault.1 = (Query.findId set name).kind) world.faults =
        some ((.findId, failure), others) := found
    refine .inr ⟨failure, others, member, among, same, ?_⟩
    simp only [World.answer, World.answerQuery, due]
    rfl

/-- Only queries concern the ledger and the faults of a world. -/
theorem answerCall_keeps (call : Call) (world : World) :
    (world.answerCall call).2.ledger = world.ledger ∧
      (world.answerCall call).2.faults = world.faults := by
  simp only [World.answerCall]
  split
  · split <;> exact ⟨rfl, rfl⟩
  · exact ⟨rfl, rfl⟩

theorem rivals_answerCall (call : Call) (world : World) :
    (world.answerCall call).2.rivals = world.rivals := by
  simp only [World.answerCall]
  split
  · split <;> rfl
  · rfl

/-- Two worlds have the same config server, which was asked the same in both. -/
structure SameServer (world other : World) : Prop where
  versions : other.versions = world.versions
  canned : other.canned = world.canned
  calls : other.calls = world.calls

/-- The same config server answers alike, and is the same from then on. -/
theorem SameServer.answerCall {world other : World} (same : SameServer world other) (call : Call) :
    (world.answerCall call).1 = (other.answerCall call).1 ∧
      SameServer (world.answerCall call).2 (other.answerCall call).2 := by
  simp only [World.answerCall, same.versions, same.canned]
  split
  · split <;> exact ⟨rfl, rfl, rfl, congrArg (· ++ [call]) same.calls⟩
  · exact ⟨rfl, rfl, rfl, congrArg (· ++ [call]) same.calls⟩

/-- Where no fault and no rival is to come, a row is added that the ledger takes. -/
theorem answer_insert {row : Association} {next : Ledger} {world : World}
    (faultless : world.faults = []) (alone : world.rivals = [])
    (inserted : world.ledger.insert row = .ok next) :
    world.answer (.ledger (.insert row)) = (.ok (), { world with ledger := next }) := by
  simp only [World.answer, World.answerQuery, World.answerFromLedger, World.yieldToRival, faultless,
    alone, World.take?, respond, inserted]
  rfl

/-- A rival only asks a query of the ledger. -/
theorem yieldToRival_later (row : Association) (world : World) :
    Later world.ledger (world.yieldToRival row).ledger ∧
      (world.yieldToRival row).faults = world.faults := by
  simp only [World.yieldToRival]
  split
  next rival others _ => exact ⟨.query (.insert { row with id := rival.id }) (.refl _), rfl⟩
  · exact ⟨.refl _, rfl⟩

theorem answerFromLedger_answers (query : Query) (world : World) :
    (∃ waited, Later world.ledger waited ∧
      Answers faulty waited (asked query (world.answerFromLedger query).1)
        (world.answerFromLedger query).2.ledger) ∧
      (world.answerFromLedger query).2.faults = world.faults := by
  cases query with
  | insert row =>
    obtain ⟨waited, same⟩ := yieldToRival_later row world
    exact ⟨⟨_, waited, .query rfl⟩, same⟩
  | _ => exact ⟨⟨_, .refl _, .query rfl⟩, rfl⟩

/-- A world answers as its ledger does, once a rival had its turn. Without faults to
come it is not faulty. -/
theorem answer_answers (need : Need) (world : World) (faultless : faulty ∨ world.faults = []) :
    (∃ waited, Later world.ledger waited ∧
      Answers faulty waited ⟨need, (world.answer need).1⟩ (world.answer need).2.ledger) ∧
      (faulty ∨ (world.answer need).2.faults = []) := by
  cases need with
  | call call =>
    obtain ⟨ledger, faults⟩ := answerCall_keeps call world
    simp only [World.answer]
    rw [ledger, faults]
    exact ⟨⟨_, .refl _, .call _ _ _⟩, faultless⟩
  | record event =>
    simp only [World.answer, World.answerEvent]
    split <;> exact ⟨⟨_, .refl _, .record _ _ _⟩, faultless⟩
  | ledger query =>
    simp only [World.answer, World.answerQuery]
    split
    next fault others due =>
      rcases faultless with possible | none
      · exact ⟨⟨_, .refl _, .fault possible _ _ _⟩, .inl possible⟩
      · rw [none] at due
        cases due
    next =>
      obtain ⟨answered, faults⟩ := answerFromLedger_answers query world
      rw [faults]
      exact ⟨answered, faultless⟩

/-- Whatever is run in a world is served by its ledger. -/
theorem served_transcript {α : Type} (program : Program Needs α) (world : World)
    (faultless : faulty ∨ world.faults = []) :
    Served faulty world.ledger (program.transcript World.answer world)
      (program.run World.answer world).2.ledger := by
  induction program generalizing world with
  | done => exact .refl _
  | ask question next ih =>
    obtain ⟨⟨waited, passed, answered⟩, still⟩ := answer_answers question world faultless
    exact .meanwhile passed (.answered answered (ih _ _ still))

/-- Surroundings without faults and rivals. -/
def calm (versions : Versions) (ledger : Ledger) : World :=
  { versions, canned := [], calls := [], ledger, faults := [], rivals := [],
    bus := { capacity := Bus.defaultCapacity, published := [], receivers := 0, closed := false },
    refusesEvents := false, links := ⟨LinkTable.defaultRootDomain, []⟩, brokenLinks := [] }

end ManifestVariables.Engine
