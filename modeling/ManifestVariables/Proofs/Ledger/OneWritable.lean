import ManifestVariables.Proofs.Ledger.Questions
import ManifestVariables.Proofs.Ledger.Refinement
import ManifestVariables.Proofs.Ledger.Session
import ManifestVariables.Proofs.Program.Pool

/-!
# How many sets of a deployment are writable

To start a deploy attempt, the sets of the deployment are listed, those that are listed
as writable are saved as frozen, one by one, and then the new set is saved. Other calls
have their turns in between, so a set that is saved as writable after the listing is not
among those that are frozen. `Store.oneWritable_iff` says that there is no other way to
two writable sets: a deployment has at most one, in all states of a run, exactly if
nobody leaves a set of it writable between the listing and the save of another call.
Two calls that start attempts at once do (`Store.two_writable`).
-/

namespace ManifestVariables

open Program
open Ledger (Access Query respond lastSaved?)

namespace Ledger

variable {ledger : Ledger} {deployment : String} {id : SetId} {set : VariableSet}

/-- What stands under an identity is a writable set of a deployment. -/
def WritableAt (ledger : Ledger) (deployment : String) (id : SetId) : Prop :=
  ∃ set, Keyed.get? ledger.sets id = some set ∧ set.deployment = deployment ∧ set.writable = true

/-- A deployment has at most one writable set. -/
def OneWritable (ledger : Ledger) (deployment : String) : Prop :=
  ∀ id other, ledger.WritableAt deployment id → ledger.WritableAt deployment other → id = other

theorem oneWritable_empty (deployment : String) : empty.OneWritable deployment := by
  rintro _ _ ⟨_, stored, _⟩
  cases stored

theorem writableAt_after_iff {queries : List Query} :
    (empty.after queries).WritableAt deployment id ↔
      ∃ set, lastSaved? queries id = some set ∧ set.deployment = deployment ∧
        set.writable = true := by
  simp only [WritableAt, (kept_after queries).recorded]

/-- What is writable after a save is the saved set or was writable before. -/
theorem WritableAt.of_save (writable : (ledger.save set).WritableAt deployment id) :
    id = set.id ∧ set.deployment = deployment ∧ set.writable = true ∨
      id ≠ set.id ∧ ledger.WritableAt deployment id := by
  obtain ⟨found, stored, owner, open_⟩ := writable
  rw [get?_save] at stored
  split at stored
  next same =>
    cases stored
    exact .inl ⟨same, owner, open_⟩
  next different => exact .inr ⟨different, found, stored, owner, open_⟩

/-- A query keeps a deployment at one writable set unless it saves a second one. -/
theorem OneWritable.respond (one : ledger.OneWritable deployment) (query : Query)
    (alone : ∀ set, query = .saveSet set → set.deployment = deployment → set.writable = true →
      ∀ id, ledger.WritableAt deployment id → id = set.id) :
    (respond query ledger).2.OneWritable deployment := by
  cases saved : query.saved? with
  | none =>
    have same := (respond_of_saved?_eq_none saved ledger).1
    simpa only [OneWritable, WritableAt, same] using one
  | some set =>
    obtain rfl := Query.saved?_eq_some_iff.mp saved
    intro id other here there
    rcases WritableAt.of_save here with ⟨rfl, owner, writable⟩ | ⟨different, before⟩
    · rcases WritableAt.of_save there with ⟨rfl, _⟩ | ⟨apart, before⟩
      · rfl
      · exact absurd (alone set rfl owner writable other before) apart
    · rcases WritableAt.of_save there with ⟨rfl, owner, writable⟩ | ⟨_, also⟩
      · exact absurd (alone set rfl owner writable id before) different
      · exact one id other before also

/-- Some queries leave no set of a deployment writable but one. -/
def LeaveOnly (queries : List Query) (deployment : String) (set : VariableSet) : Prop :=
  ∀ id other, id ≠ set.id → lastSaved? queries id = some other →
    other.deployment = deployment → other.writable = false

theorem leaveOnly_of_saves {queries : List Query}
    (frozen : ∀ saved, .saveSet saved ∈ queries → saved.writable = false) :
    LeaveOnly queries deployment set :=
  fun _ other _ last _ => frozen other (mem_of_lastSaved? last)

/-- No set of a deployment is writable that was frozen since it was listed, unless some
query left it so. -/
theorem eq_of_writableAt_after {earlier between : List Query}
    (frozen : ∀ listed ∈ (empty.after earlier).setsOf deployment, listed.writable = true →
      .saveSet (listed.frozen false) ∈ between)
    (only : LeaveOnly between deployment set)
    (there : (empty.after (earlier ++ .findSets deployment :: between)).WritableAt deployment id) :
    id = set.id := by
  obtain ⟨other, last, owner, writable⟩ := writableAt_after_iff.mp there
  rw [lastSaved?_append, show lastSaved? (.findSets deployment :: between) id =
    lastSaved? between id from rfl] at last
  by_contra different
  cases since : lastSaved? between id with
  | some found =>
    obtain rfl : found = other := by simpa [since] using last
    exact absurd writable (by simp [only id found different since owner])
  | none =>
    rw [since, Option.none_or] at last
    obtain rfl := id_of_lastSaved? last
    obtain ⟨saved, again⟩ := exists_lastSaved?_of_mem
      (frozen other (mem_setsOf_after_iff.mpr ⟨last, owner⟩) writable)
    exact nomatch since.symm.trans again

/-- A second writable set is not left by any query before a set is saved as writable and is
the only one. -/
theorem leaveOnly_of_oneWritable {earlier between : List Query}
    (one : (empty.after (earlier ++ (between ++ [.saveSet set]))).OneWritable deployment)
    (owner : set.deployment = deployment) (writable : set.writable = true) :
    LeaveOnly between deployment set := by
  have last (id : SetId) : lastSaved? (earlier ++ (between ++ [.saveSet set])) id =
      if id = set.id then some set else (lastSaved? between id).or (lastSaved? earlier id) := by
    rw [lastSaved?_append, lastSaved?_concat_saveSet]
    split <;> rfl
  have here : (empty.after (earlier ++ (between ++ [.saveSet set]))).WritableAt deployment set.id :=
    writableAt_after_iff.mpr ⟨set, by rw [last, if_pos rfl], owner, writable⟩
  intro id other different left belongs
  by_contra closed
  have there : (empty.after (earlier ++ (between ++ [.saveSet set]))).WritableAt deployment id :=
    writableAt_after_iff.mpr
      ⟨other, by rw [last, if_neg different, left, Option.some_or], belongs, by simpa using closed⟩
  exact different (one id set.id there here)

end Ledger

namespace Store

open Ledger (LeaveOnly)

variable {α ι : Type} {set : VariableSet} {use : Use} {deployment : String}
  {before after : List (Exchange Access)} {rest : Operation α}

/-- An answered listing of the sets of a deployment. -/
def listing (deployment : String) (sets : List VariableSet) : Exchange Access :=
  ⟨.findSets deployment, (.ok sets : Except LedgerError (List VariableSet))⟩

theorem returning_query {β : Type} (sets : β → List VariableSet) (query : Query)
    (next : query.Result → Operation β) :
    returning sets (Store.query query next) =
      Store.query query fun result => returning sets (next result) := by
  refine congrArg (Program.ask (I := Access) query) (funext fun reply => ?_)
  match reply with
  | .ok _ => rfl
  | .error _ => rfl

theorem returning_freezeWritable {β : Type} (sets : β → List VariableSet) (next : Operation β)
    (listed : List VariableSet) :
    returning sets (freezeWritable next listed) = freezeWritable (returning sets next) listed := by
  induction listed with
  | nil => rfl
  | cons set more ih =>
    rw [freezeWritable, freezeWritable]
    split
    · simp only [returning_query, ih]
    · exact ih

/-- The start of a deploy attempt as one program of queries. -/
theorem operation_create (id : SetId) (deployment : String) :
    (Use.create id deployment).operation =
      Store.query (.findSets deployment) fun sets : List VariableSet =>
        freezeWritable (Store.query (.saveSet (.fresh id deployment)) fun _ =>
          .done (.ok [.fresh id deployment])) sets := by
  refine (returning_query _ _ _).trans (congrArg (Store.query _) (funext fun sets => ?_))
  refine (returning_freezeWritable _ _ _).trans (congrArg (freezeWritable · sets) ?_)
  exact returning_query _ _ _

/-- Where a program of queries goes on, its first query has succeeded. -/
theorem exists_ok_of_reaches_query {query : Query} {next : query.Result → Operation α}
    {exchange : Exchange Access} {transcript : List (Exchange Access)}
    (reached : Reaches (Store.query query next) (exchange :: transcript) rest)
    (more : transcript ≠ []) :
    ∃ result, exchange = ⟨query, (.ok result : Except LedgerError query.Result)⟩ ∧
      Reaches (next result) transcript rest := by
  obtain ⟨reply, rfl, tail⟩ := reaches_ask_cons_iff.mp reached
  match reply with
  | .ok result => exact ⟨result, rfl, tail⟩
  | .error _ => exact absurd (eq_nil_of_reaches_done tail) more

/-- By the time that a writable set is saved, those sets are frozen that were to be. -/
theorem exists_of_reaches_freezeWritable {next : Operation α} {sets : List VariableSet}
    {exchange : Exchange Access}
    (reached : Reaches (freezeWritable next sets) (before ++ exchange :: after) rest)
    (saves : exchange.question = .saveSet set) (writable : set.writable = true) :
    (∃ own, Reaches next (own ++ exchange :: after) rest) ∧
      ∀ listed ∈ sets, listed.writable = true →
        .saveSet (listed.frozen false) ∈ before.map Exchange.question := by
  induction sets generalizing before with
  | nil => exact ⟨⟨before, reached⟩, fun _ member => (nomatch member)⟩
  | cons first more ih =>
    rw [freezeWritable] at reached
    split at reached
    next open_ =>
      cases before with
      | nil =>
        obtain ⟨reply, rfl, _⟩ := reaches_ask_cons_iff.mp reached
        cases saves
        cases writable
      | cons freezing others =>
        obtain ⟨_, rfl, tail⟩ := exists_ok_of_reaches_query reached (by simp)
        obtain ⟨own, frozen⟩ := ih tail
        refine ⟨own, List.forall_mem_cons.mpr ⟨fun _ => List.mem_cons_self, ?_⟩⟩
        exact fun listed member open_ => List.mem_cons_of_mem _ (frozen listed member open_)
    next closed =>
      obtain ⟨own, frozen⟩ := ih reached
      exact ⟨own, List.forall_mem_cons.mpr ⟨fun open_ => absurd open_ closed, frozen⟩⟩

/-- A query saves no writable set. -/
def SavesFrozen (query : Query) : Prop :=
  ∀ set, query = .saveSet set → set.writable = false

/-- Only the start of a deploy attempt saves a writable set. -/
theorem Use.asks_savesFrozen (other : ∀ id deployment, use ≠ .create id deployment) :
    use.operation.Asks SavesFrozen := by
  cases use with
  | create id deployment => exact absurd rfl (other id deployment)
  | freeze handle deployedSuccessfully =>
    refine Asks.andThen (asks_query ?_ fun _ => trivial) fun _ => trivial
    rintro _ ⟨⟩
    rfl
  | add handle name id => exact (asks_insert handle nofun nofun).andThen fun _ => trivial
  | addLink handle name id provider => exact (asks_insert handle nofun nofun).andThen fun _ => trivial
  | get id =>
    refine Asks.andThen (asks_query nofun fun found => ?_) fun _ => trivial
    match found with
    | some _ => trivial
    | none => trivial
  | current deployment => exact Asks.andThen (asks_query nofun fun _ => trivial) fun _ => trivial
  | history deployment => exact Asks.andThen (asks_query nofun fun _ => trivial) fun _ => trivial

/-- A call that saves a writable set has listed the sets of the deployment first, and then
frozen those that were listed as writable. -/
theorem Use.exists_listing {reply : Except LedgerError Unit}
    {rest : Operation (List VariableSet)}
    (reached : Reaches use.operation (before ++ ⟨.saveSet set, reply⟩ :: after) rest)
    (writable : set.writable = true) :
    ∃ sets frozen, before = listing set.deployment sets :: frozen ∧
      ∀ listed ∈ sets, listed.writable = true →
        .saveSet (listed.frozen false) ∈ frozen.map Exchange.question := by
  by_cases creates : ∃ id deployment, use = .create id deployment
  · obtain ⟨id, deployment, rfl⟩ := creates
    rw [operation_create] at reached
    cases before with
    | nil =>
      obtain ⟨_, same, _⟩ := reaches_ask_cons_iff.mp reached
      cases same
    | cons first frozen =>
      obtain ⟨sets, rfl, tail⟩ := exists_ok_of_reaches_query reached (by simp)
      obtain ⟨⟨own, last⟩, saved⟩ := exists_of_reaches_freezeWritable tail rfl writable
      -- Behind the freezing there is one save left, which is the one of the new set.
      obtain ⟨rfl, here⟩ : own = [] ∧ set = .fresh id deployment := by
        cases own with
        | nil =>
          obtain ⟨_, same, _⟩ := reaches_ask_cons_iff.mp last
          cases same
          exact ⟨rfl, rfl⟩
        | cons exchange others =>
          obtain ⟨_, _, ended⟩ := exists_ok_of_reaches_query last (by simp)
          exact absurd (eq_nil_of_reaches_done ended) (by simp)
      exact ⟨sets, frozen, by rw [here]; rfl, saved⟩
  · have asks : use.operation.Asks SavesFrozen :=
      asks_savesFrozen fun id deployment same => creates ⟨id, deployment, same⟩
    have harmless := asks.of_reaches reached ⟨.saveSet set, reply⟩ (by simp) set rfl
    exact absurd writable (by simp [harmless])

/-- The ledger answers an exchange. -/
def Answered (before : Ledger) (exchange : Exchange Access) (after : Ledger) : Prop :=
  respond exchange.question before = (exchange.answer, after)

/-- Calls of the store take turns on a ledger that is empty at first and that nobody else
asks. -/
abbrev Turns (calls : ι → Use) :
    List (ι × Exchange Access) → Pool Access Ledger ι (Except StoreError (List VariableSet)) →
      Prop :=
  Pool.Steps Answered (fun _ _ => False) ⟨.empty, fun worker => (calls worker).operation⟩

/-- What is asked in some turns. -/
def asked (history : List (ι × Exchange Access)) : List Query :=
  history.map fun turn => turn.2.question

theorem asked_append (first second : List (ι × Exchange Access)) :
    asked (first ++ second) = asked first ++ asked second :=
  List.map_append ..

theorem after_of_serves {ledger final : Ledger} {transcript : List (Exchange Access)}
    (served : Serves Answered (fun _ _ => False) ledger transcript final) :
    final = ledger.after (transcript.map Exchange.question) := by
  induction served with
  | refl => rfl
  | meanwhile change _ => exact change.elim
  | answered reply _ ih =>
    rw [ih]
    exact congrArg (Ledger.after · _) (congrArg Prod.snd reply).symm

variable {calls : ι → Use} {history : List (ι × Exchange Access)}
  {final : Pool Access Ledger ι (Except StoreError (List VariableSet))}

/-- The state of a run is told by what was asked. -/
theorem Turns.state_eq (turns : Turns calls history final) :
    final.state = Ledger.empty.after (asked history) :=
  (after_of_serves turns.serves_all).trans (congrArg (Ledger.after _) (List.map_map ..))

/-- A listing in a run has the sets that the deployment has by then. -/
theorem Turns.sets_eq {before after : List (ι × Exchange Access)} {worker : ι}
    {sets : List VariableSet}
    (turns : Turns calls (before ++ (worker, listing deployment sets) :: after) final) :
    sets = (Ledger.empty.after (asked before)).setsOf deployment := by
  obtain ⟨between, upTo, followed⟩ := turns.exists_between
  obtain ⟨state, _, waited, answered, _⟩ := followed.serves_all.exists_answered
  obtain rfl : state = between.state := after_of_serves waited
  rw [← Turns.state_eq upTo]
  exact (Except.ok.inj (congrArg Prod.fst answered)).symm

/-- When a call saves a writable set, it has listed the sets that the deployment had by
then, and those of them that were writable were frozen since. -/
theorem Turns.exists_listing [DecidableEq ι] {before after : List (ι × Exchange Access)}
    {worker : ι} {reply : Except LedgerError Unit}
    (turns : Turns calls (before ++ (worker, ⟨.saveSet set, reply⟩) :: after) final)
    (writable : set.writable = true) :
    ∃ earlier sets between, before = earlier ++ (worker, listing set.deployment sets) :: between ∧
      ∀ listed ∈ (Ledger.empty.after (asked earlier)).setsOf set.deployment,
        listed.writable = true → .saveSet (listed.frozen false) ∈ asked between := by
  have mine := turns.reaches worker
  rw [Pool.own_append, Pool.own_cons_self] at mine
  obtain ⟨sets, frozen, first, saved⟩ := Use.exists_listing mine writable
  obtain ⟨earlier, between, rfl, rfl⟩ := Pool.exists_of_own_eq_cons first
  refine ⟨earlier, sets, between, rfl, fun listed member open_ => ?_⟩
  rw [List.append_assoc] at turns
  rw [← Turns.sets_eq turns] at member
  obtain ⟨exchange, among, same⟩ := List.mem_map.mp (saved listed member open_)
  obtain ⟨turn, here, rfl⟩ := List.mem_map.mp (Pool.own_subset worker between among)
  exact List.mem_map.mpr ⟨turn, here, same⟩

/-- Until a call saves a writable set of a deployment, nobody leaves another set of it
writable. -/
def Undisturbed (deployment : String) (worker : ι) (history : List (ι × Exchange Access)) : Prop :=
  ∀ between save after set, history = between ++ save :: after → save.1 = worker →
    save.2.question = .saveSet set → set.deployment = deployment → set.writable = true →
    LeaveOnly (asked between) deployment set

/-- Nobody comes between the listing of the sets of a deployment and what its caller saves
then. -/
def Unraced (deployment : String) (history : List (ι × Exchange Access)) : Prop :=
  ∀ before listing after, history = before ++ listing :: after →
    listing.2.question = .findSets deployment → Undisturbed deployment listing.1 after

theorem unraced_nil : Unraced deployment ([] : List (ι × Exchange Access)) := by
  intro before listing after whole
  exact absurd whole (by simp)

theorem unraced_cons_iff {turn : ι × Exchange Access} :
    Unraced deployment (turn :: history) ↔
      (turn.2.question = .findSets deployment → Undisturbed deployment turn.1 history) ∧
        Unraced deployment history := by
  constructor
  · intro unraced
    refine ⟨unraced [] turn history rfl, ?_⟩
    rintro before listing after rfl
    exact unraced (turn :: before) listing after rfl
  · rintro ⟨here, later⟩ before listing after whole
    cases before with
    | nil =>
      obtain ⟨rfl, rfl⟩ := List.cons.inj whole
      exact here
    | cons _ before =>
      obtain ⟨rfl, rest⟩ := List.cons.inj whole
      exact later before listing after rest

theorem Unraced.left {first second : List (ι × Exchange Access)}
    (unraced : Unraced deployment (first ++ second)) : Unraced deployment first := by
  rintro before listing after rfl lists between save later set rfl
  refine unraced before listing (between ++ save :: later ++ second) ?_ lists between save
    (later ++ second) set ?_ <;> simp

/-- Where nobody comes between, a set is alone when it is saved as writable. -/
theorem eq_of_writableAt [DecidableEq ι] {turn : ι × Exchange Access} {id : SetId}
    (turns : Turns calls (history ++ [turn]) final)
    (unraced : Unraced deployment (history ++ [turn])) (saves : turn.2.question = .saveSet set)
    (owner : set.deployment = deployment) (writable : set.writable = true)
    (there : (Ledger.empty.after (asked history)).WritableAt deployment id) : id = set.id := by
  obtain ⟨worker, question, reply⟩ := turn
  obtain rfl : question = .saveSet set := saves
  obtain ⟨earlier, sets, between, rfl, frozen⟩ := Turns.exists_listing turns writable
  subst owner
  rw [asked_append] at there
  refine Ledger.eq_of_writableAt_after frozen ?_ there
  exact unraced earlier _ _ (List.append_assoc _ _ _) rfl between _ [] set rfl rfl rfl rfl writable

/-- Where nobody comes between a listing and a save, a deployment has at most one writable
set. -/
theorem Turns.oneWritable [DecidableEq ι] (turns : Turns calls history final)
    (unraced : Unraced deployment history) :
    (Ledger.empty.after (asked history)).OneWritable deployment := by
  induction history using List.reverseRecOn generalizing final with
  | nil => exact Ledger.oneWritable_empty deployment
  | append_singleton history turn ih =>
    obtain ⟨between, upTo, _⟩ := turns.exists_between
    have step := (ih upTo unraced.left).respond turn.2.question
      fun set saves owner writable id => eq_of_writableAt turns unraced saves owner writable
    rw [asked_append]
    exact (Ledger.after_concat ..).symm ▸ step

/-- In every run of calls that take turns, a deployment has at most one writable set in all
states exactly if nobody leaves another set of it writable between the listing and the save
of a call that starts an attempt. -/
theorem oneWritable_iff [DecidableEq ι] (turns : Turns calls history final)
    (deployment : String) :
    (∀ first between, first <+: history → Turns calls first between →
        between.state.OneWritable deployment) ↔
      Unraced deployment history := by
  constructor
  · rintro one before listing _ whole _ between ⟨saver, question, reply⟩ after set rfl _ saves
      owner writable
    obtain rfl : question = .saveSet set := saves
    have shown : history = before ++ [listing] ++ (between ++ [(saver, ⟨.saveSet set, reply⟩)]) ++
        after := by simp [whole]
    obtain ⟨state, upTo, _⟩ := (shown ▸ turns).exists_between
    have here := one _ state ⟨after, shown.symm⟩ upTo
    rw [Turns.state_eq upTo, asked_append, asked_append, asked_append] at here
    exact Ledger.leaveOnly_of_oneWritable here owner writable
  · rintro unraced first between ⟨later, rfl⟩ upTo
    rw [Turns.state_eq upTo]
    exact Turns.oneWritable upTo unraced.left

/-- An answered save of a set. -/
def saving (set : VariableSet) : Exchange Access :=
  ⟨.saveSet set, (.ok () : Except LedgerError Unit)⟩

/-- Two deploy attempts of a deployment. -/
def firstAttempt : VariableSet := .fresh ⟨"set-1"⟩ "orders"

def secondAttempt : VariableSet := .fresh ⟨"set-2"⟩ "orders"

/-- Two calls start the attempts, and one says that the first attempt was successful. -/
def attempts : Fin 3 → Use
  | 0 => .create firstAttempt.id "orders"
  | 1 => .create secondAttempt.id "orders"
  | 2 => .freeze firstAttempt true

/-- The second attempt is started once the first is saved, which is frozen meanwhile. -/
def inTurn : List (Fin 3 × Exchange Access) :=
  [(0, listing "orders" []), (0, saving firstAttempt), (1, listing "orders" [firstAttempt]),
    (2, saving (firstAttempt.frozen true)), (1, saving (firstAttempt.frozen false)),
    (1, saving secondAttempt)]

def returned : Fin 3 → VariableSet
  | 0 => firstAttempt
  | 1 => secondAttempt
  | 2 => firstAttempt.frozen true

theorem turns_inTurn :
    Turns attempts inTurn
      ⟨Ledger.empty.after (asked inTurn), fun i => .done (.ok [returned i])⟩ := by
  refine Pool.Steps.of_serves ?_ ?_
  · exact .answered rfl (.answered rfl (.answered rfl (.answered rfl (.answered rfl
      (.answered rfl (.refl _))))))
  · intro i
    match i with
    | 0 => exact .ask (.ask (.refl _))
    | 1 => exact .ask (.ask (.ask (.refl _)))
    | 2 => exact .ask (.refl _)

theorem unraced_inTurn : Unraced "orders" inTurn := by
  have parts {turn save : Fin 3 × Exchange Access} {history between after} :
      turn :: history = between ++ save :: after ↔ between = [] ∧ turn = save ∧ history = after ∨
        ∃ more, between = turn :: more ∧ history = more ++ save :: after := by
    simp [List.cons_eq_append_iff, eq_comm]
  simp only [inTurn, unraced_cons_iff]
  refine ⟨fun _ => ?_, nofun, fun _ => ?_, nofun, nofun, nofun, unraced_nil⟩
  · intro between save after set whole same saves owner writable
    simp only [parts] at whole
    -- The first call saves its set at once, and all other turns are turns of the others.
    rcases whole with ⟨rfl, _⟩ | ⟨_, _, ⟨_, rfl, _⟩ | ⟨_, _, ⟨_, rfl, _⟩ | ⟨_, _, ⟨_, rfl, _⟩ |
      ⟨_, _, ⟨_, rfl, _⟩ | ⟨_, _, none⟩⟩⟩⟩⟩
    · exact Ledger.leaveOnly_of_saves nofun
    · exact absurd same (by decide)
    · exact absurd same (by decide)
    · exact absurd same (by decide)
    · exact absurd same (by decide)
    · exact absurd none (by simp)
  · intro between save after set whole same saves owner writable
    simp only [parts] at whole
    rcases whole with ⟨_, rfl, _⟩ | ⟨_, rfl, ⟨rfl, rfl, _⟩ | ⟨_, rfl, ⟨rfl, rfl, _⟩ | ⟨_, _, none⟩⟩⟩
    · exact absurd same (by decide)
    · cases saves
      cases writable
    · refine Ledger.leaveOnly_of_saves fun saved member => ?_
      rcases List.mem_cons.mp member with here | later
      · cases here
        rfl
      · cases List.mem_singleton.mp later
        rfl
    · exact absurd none (by simp)

theorem oneWritable_iff_inTurn :
    Turns attempts inTurn
        ⟨Ledger.empty.after (asked inTurn), fun i => .done (.ok [returned i])⟩ ∧
      ∀ first between, first <+: inTurn → Turns attempts first between →
        between.state.OneWritable "orders" :=
  ⟨turns_inTurn, (oneWritable_iff turns_inTurn "orders").mpr unraced_inTurn⟩

/-- Two calls start the attempts at once. -/
def rivals : Bool → Use
  | true => .create firstAttempt.id "orders"
  | false => .create secondAttempt.id "orders"

/-- Both list the sets of the deployment before either saves its own. -/
def race : List (Bool × Exchange Access) :=
  [(true, listing "orders" []), (false, listing "orders" []), (true, saving firstAttempt),
    (false, saving secondAttempt)]

/-- A deployment does not have at most one writable set in every run: two calls that start
attempts at once leave two. -/
theorem two_writable :
    ¬ ∀ (history : List (Bool × Exchange Access))
        (final : Pool Access Ledger Bool (Except StoreError (List VariableSet))),
      Turns rivals history final → final.state.OneWritable "orders" := by
  intro one
  have turns : Turns rivals race ⟨Ledger.empty.after (asked race),
      fun i => .done (.ok [if i then firstAttempt else secondAttempt])⟩ := by
    refine Pool.Steps.of_serves ?_ ?_
    · exact .answered rfl (.answered rfl (.answered rfl (.answered rfl (.refl _))))
    · intro i
      cases i with
      | true => exact .ask (.ask (.refl _))
      | false => exact .ask (.ask (.refl _))
  have same : firstAttempt.id = secondAttempt.id :=
    one race _ turns firstAttempt.id secondAttempt.id ⟨firstAttempt, by decide, rfl, rfl⟩
      ⟨secondAttempt, by decide, rfl, rfl⟩
  exact absurd same (by decide)

end Store

end ManifestVariables
