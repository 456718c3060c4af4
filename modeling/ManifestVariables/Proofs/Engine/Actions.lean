import ManifestVariables.Proofs.Engine.Surroundings

/-!
# Transcripts of actions

What the transcripts of the parts of an action are: a sequence, a store operation, a
lookup. `Engine.FailsOnly` bounds the failures of an action by those of its parts.
`Engine.Adding` is the account of adding a row, and `Engine.Adding.recorded`
what an added row is good for: the version that the writer goes on with is the one
that the ledger has, whoever came first.
-/

namespace ManifestVariables.Engine

open Program
open Ledger (Query Access)

variable {ε δ α β : Type} {transcript : List (Exchange Needs)}

/-- A sequence fails where its first part does, and otherwise ends with its second
part. -/
theorem ends_bind_iff {first : Action ε α} {next : α → Action ε β} {result : Except ε β} :
    Ends (first >>= next : Action ε β) transcript result ↔
      (∃ error, Ends first transcript (.error error) ∧ result = .error error) ∨
        ∃ before value after, transcript = before ++ after ∧
          Ends first before (.ok value) ∧ Ends (next value) after result := by
  refine ends_andThen_iff.trans ⟨?_, ?_⟩
  · rintro ⟨before, reply, after, rfl, ended, followed⟩
    cases reply with
    | error error =>
      obtain ⟨rfl, rfl⟩ := ends_done_iff.mp followed
      rw [List.append_nil]
      exact .inl ⟨error, ended, rfl⟩
    | ok value => exact .inr ⟨before, value, after, rfl, ended, followed⟩
  · rintro (⟨error, ended, rfl⟩ | ⟨before, value, after, rfl, ended, followed⟩)
    · exact ⟨transcript, .error error, [], (List.append_nil _).symm, ended, .refl _⟩
    · exact ⟨before, .ok value, after, rfl, ended, followed⟩

/-- A run of a sequence goes on with its second part where the first has a result. -/
theorem run_bind_of_ok {σ : Type} {answer : (need : Need) → σ → need.Reply × σ} {state : σ}
    {first : Action ε α} {value : α} (came : (Program.run answer first state).1 = .ok value)
    (next : α → Action ε β) :
    Program.transcript answer (first >>= next : Action ε β) state =
        Program.transcript answer first state ++
          Program.transcript answer (next value) (Program.run answer first state).2 ∧
      Program.run answer (first >>= next : Action ε β) state =
        Program.run answer (next value) (Program.run answer first state).2 := by
  constructor
  · refine (transcript_andThen (I := Needs) answer first (ExceptT.bindCont next) state).trans ?_
    rw [came]
    rfl
  · refine (run_andThen (I := Needs) answer first (ExceptT.bindCont next) state).trans ?_
    rw [came]
    rfl

/-- Two actions are run alike: they ask the same, are answered the same, and leave the same result
and the same state. -/
structure RunAlike {σ : Type} (answer : (need : Need) → σ → need.Reply × σ) (state : σ)
    (first second : Action ε α) : Prop where
  transcript : Program.transcript answer first state = Program.transcript answer second state
  run : Program.run answer first state = Program.run answer second state

/-- Sequences with the same first part run alike if they go on alike with its result. -/
theorem RunAlike.bind {σ : Type} {answer : (need : Need) → σ → need.Reply × σ} {state : σ}
    {first : Action ε α} {next other : α → Action ε β}
    (alike : ∀ value, (Program.run answer first state).1 = .ok value → next value = other value) :
    RunAlike answer state (first >>= next) (first >>= other) := by
  have goesOn : ExceptT.bindCont next (Program.run answer first state).1 =
      ExceptT.bindCont other (Program.run answer first state).1 := by
    cases came : (Program.run answer first state).1 with
    | error error => rfl
    | ok value => exact alike value came
  have asks (next : α → Action ε β) :=
    transcript_andThen (I := Needs) answer first (ExceptT.bindCont next) state
  have runs (next : α → Action ε β) :=
    run_andThen (I := Needs) answer first (ExceptT.bindCont next) state
  exact ⟨(asks next).trans (goesOn ▸ (asks other).symm), (runs next).trans (goesOn ▸ (runs other).symm)⟩

theorem ends_ofProgram_iff {cause : δ → ε} {program : Program Needs (Except δ α)}
    {result : Except ε α} :
    Ends (Action.ofProgram cause program) transcript result ↔
      ∃ reply, Ends program transcript reply ∧ result = reply.mapError cause := by
  refine ends_andThen_iff.trans ⟨?_, ?_⟩
  · rintro ⟨before, reply, after, rfl, ended, followed⟩
    obtain ⟨rfl, rfl⟩ := ends_done_iff.mp followed
    rw [List.append_nil]
    exact ⟨reply, ended, rfl⟩
  · rintro ⟨reply, ended, rfl⟩
    exact ⟨transcript, reply, [], (List.append_nil _).symm, ended, .refl _⟩

theorem ends_ofStore_ask_iff {query : Query}
    {next : Except LedgerError query.Result → Store.Operation α} {result : Except StoreError α} :
    Ends (ofStore (.ask query next)) transcript result ↔
      ∃ reply rest, transcript = asked query reply :: rest ∧
        Ends (ofStore (next reply)) rest result :=
  ends_ask_iff (I := Needs)

/-- A store operation ends with a failed query or goes on with what it found. -/
theorem ends_query_iff {query : Query} {next : query.Result → Store.Operation α}
    {result : Except StoreError α} :
    Ends (ofStore (Store.query query next)) transcript result ↔
      (∃ failure, transcript = [asked query (.error failure)] ∧
        result = .error (.ledger failure)) ∨
      ∃ found rest, transcript = asked query (.ok found) :: rest ∧
        Ends (ofStore (next found)) rest result := by
  refine ends_ofStore_ask_iff.trans ⟨?_, ?_⟩
  · rintro ⟨reply, rest, rfl, tail⟩
    cases reply with
    | error failure =>
      obtain ⟨rfl, rfl⟩ := ends_done_iff.mp tail
      exact .inl ⟨failure, rfl, rfl⟩
    | ok found => exact .inr ⟨found, rest, rfl, tail⟩
  · rintro (⟨failure, rfl, rfl⟩ | ⟨found, rest, rfl, tail⟩)
    · exact ⟨.error failure, [], rfl, .refl _⟩
    · exact ⟨.ok found, rest, rfl, tail⟩

theorem ends_find_iff {set : VariableSet} {name : String}
    {result : Except StoreError (Option VariableId)} :
    Ends (ofStore (Store.find name set)) transcript result ↔
      ∃ reply, transcript = [asked (.findId set.id name) reply] ∧
        result = reply.mapError StoreError.ledger := by
  refine ends_query_iff.trans ⟨?_, ?_⟩
  · rintro (⟨failure, rfl, rfl⟩ | ⟨found, rest, rfl, tail⟩)
    · exact ⟨.error failure, rfl, rfl⟩
    · obtain ⟨rfl, rfl⟩ := ends_done_iff.mp tail
      exact ⟨.ok found, rfl, rfl⟩
  · rintro ⟨reply, rfl, rfl⟩
    cases reply with
    | error failure => exact .inl ⟨failure, rfl, rfl⟩
    | ok found => exact .inr ⟨found, [], rfl, .refl _⟩

/-- A client that makes one call ends with what it reads from the outcome. -/
theorem ends_call_iff {call : Call} {read : Outcome → α} {result : α} :
    Ends (ofClient (.ask call fun outcome => .done (read outcome))) transcript result ↔
      ∃ outcome, transcript = [called call outcome] ∧ result = read outcome := by
  refine (ends_ask_iff (I := Needs)).trans ⟨?_, ?_⟩
  · rintro ⟨outcome, rest, rfl, tail⟩
    obtain ⟨rfl, rfl⟩ := ends_done_iff.mp tail
    exact ⟨outcome, rfl, rfl⟩
  · rintro ⟨outcome, rfl, rfl⟩
    exact ⟨outcome, [], rfl, .refl _⟩

/-- Adding a row through a handle: the exchanges and the version that the writer goes
on with. -/
inductive Adding (set : VariableSet) (row : Association) :
    List (Exchange Needs) → Except StoreError VariableId → Prop where
  | frozen (frozen : set.writable = false) :
      Adding set row [] (.error (.frozenSet set.id set.deployment row.name))
  | added (writable : set.writable = true) :
      Adding set row [asked (.insert row) (.ok ())] (.ok row.id)
  | failed (writable : set.writable = true) {failure : LedgerError}
      (other : ∀ detail, failure ≠ .uniqueViolation detail) :
      Adding set row [asked (.insert row) (.error failure)] (.error (.ledger failure))
  | unread (writable : set.writable = true) {detail : String} {failure : LedgerError} :
      Adding set row
        [asked (.insert row) (.error (.uniqueViolation detail)),
          asked (.findId row.set row.name) (.error failure)]
        (.error (.ledger failure))
  | missing (writable : set.writable = true) {detail : String} :
      Adding set row
        [asked (.insert row) (.error (.uniqueViolation detail)),
          asked (.findId row.set row.name) (.ok none)]
        (.error (.ledger (.notFound s!"variable '{row.name}' in set {row.set.text}")))
  | held (writable : set.writable = true) {detail : String} {id : VariableId} :
      Adding set row
        [asked (.insert row) (.error (.uniqueViolation detail)),
          asked (.findId row.set row.name) (.ok (some id))]
        (.ok id)

theorem ends_insert_iff {set : VariableSet} {row : Association}
    {result : Except StoreError VariableId} :
    Ends (ofStore (Store.insert set row)) transcript result ↔ Adding set row transcript result := by
  cases writable : set.writable with
  | false =>
    simp only [Store.insert, writable, Bool.not_false, if_true]
    constructor
    · intro ended
      obtain ⟨rfl, rfl⟩ := ends_done_iff.mp ended
      exact .frozen writable
    · intro adding
      cases adding with
      | frozen => exact .refl _
      | _ held => cases writable.symm.trans held
  | true =>
    simp only [Store.insert, writable, Bool.not_true, Bool.false_eq_true, if_false]
    constructor
    · intro ended
      obtain ⟨reply, rest, rfl, tail⟩ := ends_ofStore_ask_iff.mp ended
      cases reply with
      | ok added =>
        obtain ⟨rfl, rfl⟩ := ends_done_iff.mp tail
        exact .added writable
      | error failure =>
        cases failure with
        | uniqueViolation detail =>
          rcases ends_query_iff.mp tail with ⟨failure, rfl, rfl⟩ | ⟨found, after, rfl, followed⟩
          · exact .unread writable
          · cases found with
            | none =>
              obtain ⟨rfl, rfl⟩ := ends_done_iff.mp followed
              exact .missing writable
            | some id =>
              obtain ⟨rfl, rfl⟩ := ends_done_iff.mp followed
              exact .held writable
        | notFound detail =>
          obtain ⟨rfl, rfl⟩ := ends_done_iff.mp tail
          exact .failed writable fun _ => nofun
        | database detail =>
          obtain ⟨rfl, rfl⟩ := ends_done_iff.mp tail
          exact .failed writable fun _ => nofun
    · intro adding
      cases adding with
      | frozen frozen => cases writable.symm.trans frozen
      | added => exact .ask (.refl _)
      | @failed _ failure other =>
        cases failure with
        | uniqueViolation detail => exact absurd rfl (other detail)
        | notFound => exact .ask (.refl _)
        | database => exact .ask (.refl _)
      | unread => exact .ask (ends_query_iff.mpr (.inl ⟨_, rfl, rfl⟩))
      | missing => exact .ask (ends_query_iff.mpr (.inr ⟨none, [], rfl, .refl _⟩))
      | @held _ detail id => exact .ask (ends_query_iff.mpr (.inr ⟨some id, [], rfl, .refl _⟩))

/-- The version that a writer goes on with is the one that the ledger has, whether the
writer added the row or came too late. -/
theorem Adding.recorded {faulty : Prop} {set : VariableSet} {row : Association} {id : VariableId}
    {before after : Ledger} (adding : Adding set row transcript (.ok id))
    (served : Served faulty before transcript after) :
    after.idOf? row.set row.name = some id := by
  cases adding with
  | added =>
    obtain ⟨waited, stored, _, answered, rest⟩ := served.exists_answered
    exact Served.later rest |>.idOf?_eq_some (Ledger.idOf?_insert answered.insert)
  | held =>
    obtain ⟨_, refused, _, _, served⟩ := served.exists_answered
    obtain ⟨waited, same, _, answered, rest⟩ := served.exists_answered
    obtain ⟨found, rfl⟩ := answered.findId
    exact Served.later rest |>.idOf?_eq_some found

/-- An action fails with nothing but expected failures, whatever it is answered. -/
def FailsOnly (expected : ε → Prop) (action : Action ε α) : Prop :=
  ∀ transcript error, Ends action transcript (.error error) → expected error

variable {expected : ε → Prop}

theorem failsOnly_pure (value : α) : FailsOnly expected (pure value : Action ε α) := by
  intro transcript error ended
  cases (ends_done_iff.mp ended).2

theorem failsOnly_throw {failure : ε} (holds : expected failure) :
    FailsOnly expected (throw failure : Action ε α) := by
  intro transcript error ended
  cases (ends_done_iff.mp ended).2
  exact holds

theorem FailsOnly.bind {first : Action ε α} {next : α → Action ε β}
    (fails : FailsOnly expected first) (followed : ∀ value, FailsOnly expected (next value)) :
    FailsOnly expected (first >>= next) := by
  intro transcript error ended
  rcases ends_bind_iff.mp ended with ⟨_, failed, same⟩ | ⟨_, value, _, _, _, failed⟩
  · cases same
    exact fails _ _ failed
  · exact followed value _ _ failed

theorem failsOnly_ofProgram {cause : δ → ε} {program : Program Needs (Except δ α)}
    (fails : ∀ transcript failure, Ends program transcript (.error failure) →
      expected (cause failure)) :
    FailsOnly expected (Action.ofProgram cause program) := by
  intro transcript error ended
  obtain ⟨reply, replied, same⟩ := ends_ofProgram_iff.mp ended
  cases reply with
  | ok => cases same
  | error failure =>
    cases same
    exact fails _ _ replied

end ManifestVariables.Engine
