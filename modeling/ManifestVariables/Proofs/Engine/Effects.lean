import ManifestVariables.Proofs.Engine.Actions
import ManifestVariables.Proofs.Ledger.Questions
import ManifestVariables.Proofs.Ledger.Saves

/-!
# What a transcript did

The exchanges of a transcript concern the config server, the audit log or the ledger.
`Engine.calls`, `Engine.events`, `Engine.setsSaved` and `Engine.rowsAdded` are what was done to
each of them, in order. `Engine.Among` lets others change the ledger in their own ways
between the exchanges. Where there are none, `Engine.Alone`, the ledger gains the rows
that the transcript added and no others (`Engine.rowsOf_of_alone`), and a store operation
comes to what it comes to when it is run (`Engine.run_of_alone`).
-/

namespace ManifestVariables.Engine

open Program
open Ledger (Query Later respond)

/-- The call that is asked for. -/
def Need.call? : Need → Option Call
  | call made => some made
  | _ => none

/-- The event that is to be kept. -/
def Need.event? : Need → Option Event
  | record event => some event
  | _ => none

/-- The set that is to be recorded. -/
def Need.saved? : Need → Option VariableSet
  | ledger query => query.saved?
  | _ => none

/-- The row that was added. -/
def addedRow? : Exchange Needs → Option Association
  | ⟨.ledger (.insert row), (reply : Except LedgerError Unit)⟩ => reply.toOption.map fun _ => row
  | _ => none

/-- The calls to the config server. -/
def calls (transcript : List (Exchange Needs)) : List Call :=
  transcript.filterMap fun exchange => Need.call? exchange.question

/-- The events for the audit log, kept or not. -/
def events (transcript : List (Exchange Needs)) : List Event :=
  transcript.filterMap fun exchange => Need.event? exchange.question

/-- The sets that were to be recorded. -/
def setsSaved (transcript : List (Exchange Needs)) : List VariableSet :=
  transcript.filterMap fun exchange => Need.saved? exchange.question

/-- The rows that were added to the ledger. -/
def rowsAdded (transcript : List (Exchange Needs)) : List Association :=
  transcript.filterMap addedRow?

section Append

variable (first second : List (Exchange Needs))

@[simp] theorem calls_append : calls (first ++ second) = calls first ++ calls second :=
  List.filterMap_append

@[simp] theorem events_append : events (first ++ second) = events first ++ events second :=
  List.filterMap_append

@[simp] theorem setsSaved_append : setsSaved (first ++ second) = setsSaved first ++ setsSaved second :=
  List.filterMap_append

@[simp] theorem rowsAdded_append : rowsAdded (first ++ second) = rowsAdded first ++ rowsAdded second :=
  List.filterMap_append

end Append

theorem mem_calls {call : Call} {outcome : Outcome} {transcript : List (Exchange Needs)}
    (member : called call outcome ∈ transcript) : call ∈ calls transcript :=
  List.mem_filterMap.mpr ⟨_, member, rfl⟩

/-- The transcript had no effect: at most it looked something up. -/
structure Idle (transcript : List (Exchange Needs)) : Prop where
  calls : calls transcript = []
  events : events transcript = []
  rows : rowsAdded transcript = []
  sets : setsSaved transcript = []

theorem idle_nil : Idle [] := ⟨rfl, rfl, rfl, rfl⟩

theorem Idle.append {first second : List (Exchange Needs)} (idle : Idle first)
    (idleToo : Idle second) : Idle (first ++ second) where
  calls := by rw [calls_append, idle.calls, idleToo.calls]; rfl
  events := by rw [events_append, idle.events, idleToo.events]; rfl
  rows := by rw [rowsAdded_append, idle.rows, idleToo.rows]; rfl
  sets := by rw [setsSaved_append, idle.sets, idleToo.sets]; rfl

theorem Idle.not_called {call : Call} {outcome : Outcome} {transcript : List (Exchange Needs)}
    (idle : Idle transcript) : called call outcome ∉ transcript := by
  intro member
  have made := mem_calls member
  rw [idle.calls] at made
  cases made

variable {α : Type} {faulty : Prop} {others : Ledger → Ledger → Prop}
  {transcript : List (Exchange Needs)} {before after : Ledger}

/-- A ledger answers a transcript while others change it in their own ways. -/
abbrev Among (faulty : Prop) (others : Ledger → Ledger → Prop) :
    Ledger → List (Exchange Needs) → Ledger → Prop :=
  Serves (Answers faulty) others

/-- A ledger answers a transcript and nobody else comes to it. -/
abbrev Alone (faulty : Prop) : Ledger → List (Exchange Needs) → Ledger → Prop :=
  Among faulty fun _ _ => False

/-- Others who only ask the ledger are as good as any. -/
theorem Among.served (among : Among faulty others before transcript after)
    (asking : ∀ {first next}, others first next → Later first next) :
    Served faulty before transcript after := by
  induction among with
  | refl => exact .refl _
  | meanwhile change _ ih => exact .meanwhile (asking change) ih
  | answered reply _ ih => exact .answered reply ih

theorem Alone.served (alone : Alone faulty before transcript after) :
    Served faulty before transcript after :=
  Among.served alone nofun

theorem Alone.eq_of_nil (alone : Alone faulty before [] after) : after = before := by
  cases alone with
  | refl => rfl
  | meanwhile change _ => exact change.elim

/-- The first exchange is answered by the ledger as it is. -/
theorem Alone.exists_answered {exchange : Exchange Needs}
    (alone : Alone faulty before (exchange :: transcript) after) :
    ∃ next, Answers faulty before exchange next ∧ Alone faulty next transcript after := by
  obtain ⟨waited, next, idle, answered, rest⟩ := Serves.exists_answered alone
  obtain rfl := Alone.eq_of_nil idle
  exact ⟨next, answered, rest⟩

/-- A query that is not subject to a fault is answered by the ledger. -/
theorem Answers.responded {query : Query} {reply : Except LedgerError query.Result}
    (answered : Answers False before (asked query reply) after) :
    respond query before = (reply, after) := by
  cases answered with
  | query responded => exact responded
  | fault possible => exact possible.elim

/-- Where no exchange changes the ledger, only others do. -/
theorem Among.nil_of_idle (among : Among faulty others before transcript after)
    (idle : ∀ exchange ∈ transcript, ∀ first next, Answers faulty first exchange next → next = first) :
    Among faulty others before [] after := by
  induction among with
  | refl => exact .refl _
  | meanwhile change _ ih => exact .meanwhile change (ih idle)
  | answered reply _ ih =>
    obtain ⟨here, later⟩ := List.forall_mem_cons.mp idle
    rw [← here _ _ reply]
    exact ih later

/-- An exchange leaves the rows of a set as they are but for the one that it adds. -/
theorem Answers.rowsOf {exchange : Exchange Needs}
    (answered : Answers faulty before exchange after) (id : SetId) :
    after.rowsOf id = before.rowsOf id ++ (rowsAdded [exchange]).filter fun row => row.set = id := by
  cases answered with
  | @query _ _ query reply responded =>
    cases query with
    | insert row =>
      rw [respond] at responded
      split at responded
      next next inserted =>
        obtain ⟨rfl, rfl⟩ := Prod.mk.inj responded
        rw [Ledger.rowsOf_insert inserted]
        by_cases same : row.set = id
        · simp [rowsAdded, addedRow?, Except.toOption, same]
        · simp [rowsAdded, addedRow?, Except.toOption, same, Ne.symm same]
      next failure refused =>
        obtain ⟨rfl, rfl⟩ := Prod.mk.inj responded
        exact (List.append_nil _).symm
    | _ =>
      obtain ⟨_, rfl⟩ := Prod.mk.inj responded
      exact (List.append_nil _).symm
  | fault possible ledger query failure => cases query <;> exact (List.append_nil _).symm
  | call => exact (List.append_nil _).symm
  | record => exact (List.append_nil _).symm

/-- Where nobody else comes to the ledger, its sets have the rows that were added and the
ones that they had. -/
theorem rowsOf_of_alone (alone : Alone faulty before transcript after) (id : SetId) :
    after.rowsOf id = before.rowsOf id ++ (rowsAdded transcript).filter fun row => row.set = id := by
  induction transcript generalizing before with
  | nil =>
    obtain rfl := alone.eq_of_nil
    exact (List.append_nil _).symm
  | cons exchange rest ih =>
    obtain ⟨next, answered, alone⟩ := alone.exists_answered
    rw [ih alone, answered.rowsOf, List.append_assoc, ← List.filter_append, ← rowsAdded_append]
    rfl

/-- The version of a name that a set has is what it was where no row was added for it. -/
theorem idOf?_of_alone {id : SetId} {name : String} (alone : Alone faulty before transcript after)
    (others : ∀ row ∈ rowsAdded transcript, row.set = id → row.name ≠ name) :
    after.idOf? id name = before.idOf? id name := by
  have absent : ((rowsAdded transcript).filter fun row => row.set = id).find?
      (fun row => row.name = name) = none := by
    rw [List.find?_eq_none]
    intro row member
    obtain ⟨added, same⟩ := List.mem_filter.mp member
    simpa using others row added (by simpa using same)
  rw [Ledger.idOf?, rowsOf_of_alone alone, List.find?_append, absent, Option.or_none]
  rfl

/-- Only recording a set concerns the sets of a ledger. -/
theorem sets_of_alone (alone : Alone faulty before transcript after) (none : setsSaved transcript = []) :
    after.sets = before.sets ∧ after.order = before.order := by
  induction transcript generalizing before with
  | nil =>
    obtain rfl := alone.eq_of_nil
    exact ⟨rfl, rfl⟩
  | cons exchange rest ih =>
    obtain ⟨next, answered, alone⟩ := alone.exists_answered
    have unsaved : setsSaved [exchange] = [] ∧ setsSaved rest = [] :=
      List.append_eq_nil_iff.mp ((setsSaved_append [exchange] rest).symm.trans none)
    obtain ⟨sets, order⟩ := ih alone unsaved.2
    cases answered with
    | @query _ _ query _ responded =>
      have silent : query.saved? = Option.none := by
        cases query with
        | saveSet => cases unsaved.1
        | _ => rfl
      obtain ⟨sameSets, sameOrder⟩ := Ledger.respond_of_saved?_eq_none silent before
      rw [responded] at sameSets sameOrder
      exact ⟨sets.trans sameSets, order.trans sameOrder⟩
    | fault => exact ⟨sets, order⟩
    | call => exact ⟨sets, order⟩
    | record => exact ⟨sets, order⟩

/-- A store operation that is not subject to faults, alone with the ledger, is its run. -/
theorem run_of_alone {operation : Store.Operation α} {result : Except StoreError α}
    (ended : Ends (ofStore operation) transcript result)
    (alone : Alone False before transcript after) :
    operation.run respond before = (result, after) := by
  induction operation generalizing transcript before with
  | done =>
    obtain ⟨rfl, rfl⟩ := ends_done_iff.mp ended
    rw [alone.eq_of_nil]
    rfl
  | ask query next ih =>
    obtain ⟨reply, rest, rfl, tail⟩ := ends_ofStore_ask_iff.mp ended
    obtain ⟨_, answered, alone⟩ := alone.exists_answered
    have responded : respond query before = _ := answered.responded
    simp only [Program.run, responded]
    exact ih reply tail alone

/-- The queries that leave the ledger as it is. -/
def IsLookup : Query → Prop
  | .saveSet _ => False
  | .insert _ => False
  | _ => True

/-- A store operation that only looks things up has no effect. -/
theorem idle_of_lookups {operation : Store.Operation α} {result : Except StoreError α}
    (lookups : operation.Asks IsLookup) (ended : Ends (ofStore operation) transcript result) :
    Idle transcript := by
  induction operation generalizing transcript with
  | done =>
    obtain ⟨rfl, _⟩ := ends_done_iff.mp ended
    exact idle_nil
  | ask query next ih =>
    obtain ⟨reply, rest, rfl, tail⟩ := ends_ofStore_ask_iff.mp ended
    have later : Idle rest := ih reply (lookups.2 reply) tail
    cases query with
    | saveSet => exact lookups.1.elim
    | insert => exact lookups.1.elim
    | _ => exact ⟨later.calls, later.events, later.rows, later.sets⟩

section Adding

variable {set : VariableSet} {row : Association} {result : Except StoreError VariableId}

/-- Adding a row makes no calls, leaves no events and records no set. -/
theorem Adding.effects (adding : Adding set row transcript result) :
    calls transcript = [] ∧ events transcript = [] ∧ setsSaved transcript = [] := by
  cases adding <;> exact ⟨rfl, rfl, rfl⟩

/-- The row was added, and then its version is the one to go on with, or no row was. -/
theorem Adding.rowsAdded_cases (adding : Adding set row transcript result) :
    (rowsAdded transcript = [row] ∧ result = .ok row.id) ∨ rowsAdded transcript = [] := by
  cases adding with
  | added => exact .inl ⟨rfl, rfl⟩
  | _ => exact .inr rfl

/-- A recorded set takes a row for a name that it lacks, and no second one. -/
theorem Answers.insert_cases {reply : Except LedgerError Unit}
    (answered : Answers False before (asked (.insert row) reply) after)
    (recorded : Keyed.contains before.sets row.set = true) :
    (reply = .ok () ∧ before.idOf? row.set row.name = none) ∨
      ∃ detail id, reply = .error (.uniqueViolation detail) ∧
        before.idOf? row.set row.name = some id ∧ after = before := by
  have responded : respond (.insert row) before = (reply, after) := answered.responded
  rcases Ledger.respond_insert_cases recorded with
    ⟨next, _, unheld, same⟩ | ⟨detail, id, held, same⟩
  · rw [same] at responded
    exact .inl ⟨(Prod.mk.inj responded).1.symm, unheld⟩
  · rw [same] at responded
    obtain ⟨rfl, rfl⟩ := Prod.mk.inj responded
    exact .inr ⟨detail, id, rfl, held, rfl⟩

/-- A writer who has the ledger alone goes on with the version that the set has for the
name, and gives it one only where it has none. -/
theorem Adding.of_alone (adding : Adding set row transcript result)
    (alone : Alone False before transcript after)
    (recorded : Keyed.contains before.sets row.set = true) (writable : set.writable = true) :
    result = .ok ((before.idOf? row.set row.name).getD row.id) ∧
      rowsAdded transcript = if before.idOf? row.set row.name = none then [row] else [] := by
  cases adding with
  | frozen frozen => cases writable.symm.trans frozen
  | added =>
    obtain ⟨_, answered, _⟩ := alone.exists_answered
    rcases answered.insert_cases recorded with ⟨_, unheld⟩ | ⟨_, _, refused, _⟩
    · rw [unheld]
      exact ⟨rfl, rfl⟩
    · cases refused
  | failed _ other =>
    obtain ⟨_, answered, _⟩ := alone.exists_answered
    rcases answered.insert_cases recorded with ⟨same, _⟩ | ⟨detail, _, refused, _⟩
    · cases same
    · cases refused
      exact absurd rfl (other detail)
  | unread =>
    obtain ⟨_, answered, alone⟩ := alone.exists_answered
    obtain ⟨_, read, _⟩ := alone.exists_answered
    cases read.reply_of_findId
  | missing =>
    obtain ⟨_, answered, alone⟩ := alone.exists_answered
    obtain ⟨_, read, _⟩ := alone.exists_answered
    rcases answered.insert_cases recorded with ⟨same, _⟩ | ⟨_, id, _, held, rfl⟩
    · cases same
    · have absent := read.reply_of_findId
      rw [held] at absent
      cases absent
  | held =>
    obtain ⟨_, answered, alone⟩ := alone.exists_answered
    obtain ⟨_, read, _⟩ := alone.exists_answered
    rcases answered.insert_cases recorded with ⟨same, _⟩ | ⟨_, id, _, held, rfl⟩
    · cases same
    · have found := read.reply_of_findId
      rw [held] at found
      cases found
      rw [held]
      exact ⟨rfl, rfl⟩

end Adding

/-- Without faults and rivals to come, the ledger alone answers a question. -/
theorem answer_alone (need : Need) (world : World) (faultless : world.faults = [])
    (single : world.rivals = []) :
    Answers False world.ledger ⟨need, (world.answer need).1⟩ (world.answer need).2.ledger ∧
      (world.answer need).2.faults = [] ∧ (world.answer need).2.rivals = [] := by
  cases need with
  | call call =>
    obtain ⟨ledger, faults⟩ := answerCall_keeps call world
    refine ⟨?_, faults.trans faultless, (rivals_answerCall call world).trans single⟩
    simp only [World.answer]
    rw [ledger]
    exact .call _ _ _
  | record event =>
    simp only [World.answer, World.answerEvent]
    split <;> exact ⟨.record _ _ _, faultless, single⟩
  | ledger query =>
    have due : World.take? (fun fault => fault.1 = query.kind) world.faults = none := by
      rw [faultless]
      rfl
    simp only [World.answer, World.answerQuery, due, World.answerFromLedger]
    cases query with
    | insert row =>
      have yields : world.yieldToRival row = world := by
        rw [World.yieldToRival, single]
        rfl
      simp only [yields]
      exact ⟨.query rfl, faultless, single⟩
    | _ => exact ⟨.query rfl, faultless, single⟩

/-- Whatever is run in a world without faults and rivals to come has its ledger alone. -/
theorem alone_transcript (program : Program Needs α) (world : World)
    (faultless : world.faults = []) (single : world.rivals = []) :
    Alone False world.ledger (program.transcript World.answer world)
      (program.run World.answer world).2.ledger := by
  induction program generalizing world with
  | done => exact .refl _
  | ask question next ih =>
    obtain ⟨answered, stillFaultless, stillSingle⟩ :=
      answer_alone question world faultless single
    exact .answered answered (ih _ _ stillFaultless stillSingle)

end ManifestVariables.Engine
