import ManifestVariables.Proofs.Ledger.OneWritable
import ManifestVariables.Proofs.Ledger.Previous

/-!
# Writers of one name

Any number of calls may add the same name to a set at once. Each of them asks to insert a row,
and one whose row is refused asks for the version that is stored; other queries come between
the two. The first row that is inserted is never changed or taken away, so whoever comes later
finds its version, and all calls return it (`Store.writers_agree`).
-/

namespace ManifestVariables

open Program
open Ledger (Access Query Later respond)

namespace Ledger

variable {ledger later : Ledger} {set : SetId}

/-- A set that is recorded stays recorded. -/
theorem Later.contains (passed : Later ledger later)
    (recorded : Keyed.contains ledger.sets set = true) :
    Keyed.contains later.sets set = true := by
  obtain ⟨queries, rfl⟩ := passed.exists_after
  rw [Keyed.contains, get?_after]
  simp only [Keyed.contains] at recorded
  simp [recorded]

end Ledger

namespace Store

variable {ι : Type} {set : SetId} {name : String} {ledger final : Ledger} {row : Association}
  {transcript : List (Exchange Access)} {rest : Operation VariableId}

/-- A call that adds a name to a set. -/
structure Writer where
  handle : VariableSet
  version : VariableId
  /-- The deployment that provides the value, if another one does. -/
  provider : Option String

/-- The operation of a writer. -/
def Writer.operation (name : String) (writer : Writer) : Operation VariableId :=
  match writer.provider with
  | none => Store.add name writer.version writer.handle
  | some provider => Store.addLink name writer.version provider writer.handle

/-- The row that a writer asks to insert. -/
def Writer.offer (name : String) (writer : Writer) : Association :=
  ⟨writer.handle.id, name, writer.version, writer.provider⟩

theorem Writer.operation_eq (name : String) (writer : Writer) :
    writer.operation name = Store.insert writer.handle (writer.offer name) := by
  obtain ⟨handle, version, provider⟩ := writer
  cases provider <;> rfl

/-- Somebody asks a query that inserts no row of a name into a set. -/
def Elsewhere (set : SetId) (name : String) (before after : Ledger) : Prop :=
  ∃ query, (∀ row, query = .insert row → row.set = set → row.name ≠ name) ∧
    after = (respond query before).2

/-- The version in the first row that is asked to be inserted. -/
def firstOffered? (transcript : List (Exchange Access)) : Option VariableId :=
  transcript.findSome? fun exchange =>
    match (exchange.question : Query) with
    | .insert row => some row.id
    | _ => none

/-- What writers of a name in a set ask for. -/
def Writes (set : SetId) (name : String) (query : Query) : Prop :=
  (∃ row, query = .insert row ∧ row.set = set ∧ row.name = name) ∨ query = .findId set name

theorem asks_writes (handle : VariableSet) (row : Association) :
    (Store.insert handle row).Asks (Writes row.set row.name) :=
  asks_insert handle (.inl ⟨row, rfl, rfl, rfl⟩) (.inr rfl)

theorem idOf?_of_elsewhere {after : Ledger} (elsewhere : Elsewhere set name ledger after) :
    after.idOf? set name = ledger.idOf? set name := by
  obtain ⟨query, apart, rfl⟩ := elsewhere
  cases query with
  | insert row =>
    rw [respond]
    split
    next next inserted =>
      by_cases named : name = row.name
      · have other : set ≠ row.set := fun same => apart row rfl same.symm named.symm
        rw [Ledger.idOf?, Ledger.idOf?, Ledger.rowsOf_insert inserted, if_neg other]
      · exact Ledger.idOf?_insert_of_ne inserted named set
    · rfl
  | saveSet saved => rfl
  | findSet id => rfl
  | findSets deployment => rfl
  | findId id other => rfl
  | findRows id => rfl

/-- Asking to insert a row leaves a recorded set with the version that it had for the name, or
else with the one of the row. -/
theorem idOf?_of_offered (recorded : Keyed.contains ledger.sets row.set = true) :
    (respond (.insert row) ledger).2.idOf? row.set row.name =
      (ledger.idOf? row.set row.name).or (some row.id) := by
  rcases Ledger.respond_insert_cases recorded with
    ⟨next, inserted, unheld, same⟩ | ⟨detail, id, held, same⟩
  · rw [same, Ledger.idOf?_insert inserted, unheld, Option.none_or]
  · rw [same, held, Option.some_or]

theorem later_of_elsewhere {after : Ledger} (elsewhere : Elsewhere set name ledger after) :
    Later ledger after := by
  obtain ⟨query, -, rfl⟩ := elsewhere
  exact .query query (.refl _)

theorem later_of_answered {exchange : Exchange Access} {after : Ledger}
    (answered : Answered ledger exchange after) : Later ledger after := by
  obtain rfl : (respond exchange.question ledger).2 = after := congrArg Prod.snd answered
  exact .query exchange.question (.refl _)

theorem later_of_serves (served : Serves Answered Later ledger transcript final) :
    Later ledger final :=
  served.keeps (fun change passed => passed.trans change)
    (fun answered passed => passed.trans (later_of_answered answered)) (.refl _)

/-- The version that a set has for a name is the one that it had before, or else the first that
was offered. -/
theorem idOf?_of_serves (recorded : Keyed.contains ledger.sets set = true)
    (writes : ∀ exchange ∈ transcript, Writes set name exchange.question)
    (served : Serves Answered (Elsewhere set name) ledger transcript final) :
    final.idOf? set name = (ledger.idOf? set name).or (firstOffered? transcript) := by
  induction served with
  | refl => simp [firstOffered?]
  | meanwhile change _ ih =>
    rw [ih ((later_of_elsewhere change).contains recorded) writes, idOf?_of_elsewhere change]
  | @answered before next _ exchange transcript reply _ ih =>
    obtain ⟨here, later⟩ := List.forall_mem_cons.mp writes
    rw [ih ((later_of_answered reply).contains recorded) later]
    obtain ⟨question, answer⟩ := exchange
    obtain rfl : (respond question before).2 = next := congrArg Prod.snd reply
    rcases here with ⟨row, rfl, rfl, rfl⟩ | rfl
    · rw [idOf?_of_offered recorded, Option.or_assoc]
      rfl
    · rfl

/-- A call through a writable handle asks for its row first. -/
theorem offers_of_reaches {handle : VariableSet} {exchange : Exchange Access}
    (writable : handle.writable = true)
    (reached : Reaches (Store.insert handle row) (exchange :: transcript) rest) :
    exchange.question = .insert row := by
  rw [Store.insert, writable, Bool.not_true, if_neg Bool.false_ne_true] at reached
  obtain ⟨reply, rfl, -⟩ := reaches_ask_cons_iff.mp reached
  rfl

/-- A call through a writable handle asks at most twice, and returns the version that the set
then has for the name. -/
theorem insert_returns {handle : VariableSet} (writable : handle.writable = true)
    (recorded : Keyed.contains ledger.sets row.set = true)
    (reached : Reaches (Store.insert handle row) transcript rest)
    (served : Serves Answered Later ledger transcript final) :
    transcript.length < 2 ∧ (∃ query next, rest = .ask query next) ∨
      ∃ id, rest = .done (.ok id) ∧ final.idOf? row.set row.name = some id := by
  rw [Store.insert, writable, Bool.not_true, if_neg Bool.false_ne_true] at reached
  cases transcript with
  | nil => exact .inl ⟨by simp, _, _, reached.eq_of_nil.symm⟩
  | cons exchange more =>
    obtain ⟨reply, rfl, tail⟩ := reaches_ask_cons_iff.mp reached
    obtain ⟨before, after, waited, answered, followed⟩ := served.exists_answered
    have recorded := (later_of_serves waited).contains recorded
    rcases Ledger.respond_insert_cases recorded with
      ⟨next, inserted, -, same⟩ | ⟨detail, id, held, same⟩
    · obtain ⟨rfl, rfl⟩ := Prod.mk.inj (same.symm.trans answered)
      obtain rfl := eq_nil_of_reaches_done tail
      exact .inr ⟨row.id, tail.eq_of_nil.symm,
        (later_of_serves followed).idOf?_eq_some (Ledger.idOf?_insert inserted)⟩
    · obtain ⟨rfl, rfl⟩ := Prod.mk.inj (same.symm.trans answered)
      -- Whatever came between, the row that was in the way is still there.
      cases more with
      | nil => exact .inl ⟨by simp, _, _, tail.eq_of_nil.symm⟩
      | cons exchange more =>
        obtain ⟨found, rfl, ended⟩ := reaches_ask_cons_iff.mp tail
        obtain ⟨state, _, waited, answered, followed⟩ := followed.exists_answered
        have held := (later_of_serves waited).idOf?_eq_some held
        simp only [Answered, respond, held] at answered
        obtain ⟨rfl, rfl⟩ := Prod.mk.inj answered
        obtain rfl := eq_nil_of_reaches_done ended
        exact .inr ⟨id, ended.eq_of_nil.symm, (later_of_serves followed).idOf?_eq_some held⟩

variable {writers : ι → Writer} {history : List (ι × Exchange Access)}
  {outcome : Pool Access Ledger ι (Except StoreError VariableId)}

/-- Writers of a name take turns on a ledger, which others may ask all else in between. -/
abbrev Racing (set : SetId) (name : String) (writers : ι → Writer) (ledger : Ledger) :
    List (ι × Exchange Access) → Pool Access Ledger ι (Except StoreError VariableId) → Prop :=
  Pool.Steps Answered (Elsewhere set name) ⟨ledger, fun worker => (writers worker).operation name⟩

/-- A row with the version that a set has for a name is the only one under the name. -/
theorem exists_filter_eq (started : Later .empty ledger) {version : VariableId}
    (held : ledger.idOf? set name = some version) :
    ∃ row, ((ledger.rowsOf set).filter fun row => row.name = name) = [row] ∧ row.id = version := by
  obtain ⟨queries, rfl⟩ := started.exists_after
  obtain ⟨-, distinct⟩ := Ledger.own_and_nodup_of_represents (Ledger.represents_after queries) set
  rw [Ledger.idOf?, Option.map_eq_some_iff] at held
  obtain ⟨row, found, rfl⟩ := held
  obtain ⟨named, before, after, rows, -⟩ := List.find?_eq_some_iff_append.mp found
  obtain rfl : row.name = name := by simpa using named
  rw [rows, List.map_append, List.map_cons, List.nodup_middle, List.nodup_cons] at distinct
  refine ⟨row, ?_, rfl⟩
  have apart : ∀ other ∈ before ++ after, other.name ≠ row.name := fun other member same =>
    distinct.1 (by rw [← List.map_append]; exact List.mem_map.mpr ⟨other, member, same⟩)
  have first : before.filter (fun other => other.name = row.name) = [] :=
    List.filter_eq_nil_iff.mpr fun other member => by
      simpa using apart other (List.mem_append_left _ member)
  have last : after.filter (fun other => other.name = row.name) = [] :=
    List.filter_eq_nil_iff.mpr fun other member => by
      simpa using apart other (List.mem_append_right _ member)
  rw [rows, List.filter_append, List.filter_cons, first, last]
  simp

section Race

variable [DecidableEq ι]

theorem insert_reaches (turns : Racing set name writers ledger history outcome) (worker : ι) :
    Reaches (Store.insert (writers worker).handle ((writers worker).offer name))
      (Pool.own worker history) (outcome.worker worker) := by
  rw [← Writer.operation_eq]
  exact turns.reaches worker

/-- Whoever has the first turn offers a row. -/
theorem exists_firstOffered? (writable : ∀ worker, (writers worker).handle.writable = true)
    (turns : Racing set name writers ledger history outcome)
    (begun : history ≠ []) : ∃ id, firstOffered? (history.map Prod.snd) = some id := by
  obtain ⟨⟨worker, exchange⟩, later, rfl⟩ := List.exists_cons_of_ne_nil begun
  have mine := insert_reaches turns worker
  rw [Pool.own_cons_self] at mine
  obtain ⟨question, reply⟩ := exchange
  obtain rfl := offers_of_reaches (writable worker) mine
  exact ⟨_, rfl⟩

variable (addressed : ∀ worker, (writers worker).handle.id = set)

include addressed

theorem writes_of_racing (turns : Racing set name writers ledger history outcome) :
    ∀ exchange ∈ history.map Prod.snd, Writes set name exchange.question := by
  intro exchange member
  obtain ⟨⟨worker, _⟩, taken, rfl⟩ := List.mem_map.mp member
  obtain rfl := addressed worker
  exact (asks_writes _ _).of_reaches (insert_reaches turns worker) _ (Pool.mem_own_iff.mpr taken)

variable (writable : ∀ worker, (writers worker).handle.writable = true)

include writable

/-- However writers of one name in a recorded set race, all return the same version: the one
that the set had before, or else the one of the first row that is offered. No call asks more
than twice or fails, and once the first of them has had a turn, the set has exactly one row
under the name, which has this version. -/
theorem writers_agree (started : Later .empty ledger)
    (recorded : Keyed.contains ledger.sets set = true)
    (turns : Racing set name writers ledger history outcome) :
    (∀ worker,
        (Pool.own worker history).length < 2 ∧
          (∃ query next, outcome.worker worker = .ask query next) ∨
        ∃ id, outcome.worker worker = .done (.ok id) ∧
          (ledger.idOf? set name).or (firstOffered? (history.map Prod.snd)) = some id) ∧
      (history ≠ [] →
        ∃ row, ((outcome.state.rowsOf set).filter fun row => row.name = name) = [row] ∧
          (ledger.idOf? set name).or (firstOffered? (history.map Prod.snd)) = some row.id) := by
  have agreed := idOf?_of_serves recorded (writes_of_racing addressed turns) turns.serves_all
  have raced : Pool.Steps Answered Later _ history outcome := turns.mono later_of_elsewhere
  rw [← agreed]
  constructor
  · intro worker
    obtain rfl := addressed worker
    exact insert_returns (writable worker) recorded (insert_reaches turns worker)
      (raced.serves worker later_of_answered)
  · intro begun
    obtain ⟨id, offered⟩ := exists_firstOffered? writable turns begun
    have held : ∃ version, outcome.state.idOf? set name = some version := by
      rw [agreed, offered]
      cases ledger.idOf? set name <;> simp
    obtain ⟨version, held⟩ := held
    have passed := started.trans (later_of_serves raced.serves_all)
    obtain ⟨row, only, rfl⟩ := exists_filter_eq passed held
    exact ⟨row, only, held⟩

end Race

/-- A name that writers race for. -/
def contested : String := "/d/orders/password"

/-- Three calls that add it to the set of the first attempt. -/
inductive Contender where
  | owner
  | linker
  | latecomer
deriving DecidableEq

def Contender.writer : Contender → Writer
  | owner => ⟨firstAttempt, "1", none⟩
  | linker => ⟨firstAttempt, "2", some "billing"⟩
  | latecomer => ⟨firstAttempt, "3", none⟩

/-- A contender asks to insert its row. -/
def Contender.offering (contender : Contender) (reply : Except LedgerError Unit) :
    Contender × Exchange Access :=
  (contender, ⟨.insert (contender.writer.offer contested), reply⟩)

/-- A contender asks for the version that is stored. -/
def Contender.asking (contender : Contender) (found : Except LedgerError (Option VariableId)) :
    Contender × Exchange Access :=
  (contender, ⟨.findId firstAttempt.id contested, found⟩)

/-- The ledger refuses a second row. -/
def refused : Except LedgerError Unit :=
  .error (.uniqueViolation "variable '/d/orders/password' already associated with set set-1")

/-- The linker is the first to insert its row. The owner has asked for its version in the end,
and the latecomer has yet to. -/
def contest : List (Contender × Exchange Access) :=
  [Contender.linker.offering (.ok ()), Contender.owner.offering refused,
    Contender.latecomer.offering refused, Contender.owner.asking (.ok (some "2"))]

/-- The ledger once the contest is over and the set was frozen in between. -/
def settled : Ledger :=
  Ledger.empty.after [.saveSet firstAttempt, .insert (Contender.linker.writer.offer contested),
    .saveSet (firstAttempt.frozen false)]

def remaining : Contender → Operation VariableId
  | .owner => .done (.ok "2")
  | .linker => .done (.ok "2")
  | .latecomer => winner (Contender.latecomer.writer.offer contested)

theorem racing_contest :
    Racing firstAttempt.id contested Contender.writer (Ledger.empty.save firstAttempt) contest
      ⟨settled, remaining⟩ := by
  have freezes : Elsewhere firstAttempt.id contested
      (Ledger.empty.after
        [.saveSet firstAttempt, .insert (Contender.linker.writer.offer contested)])
      settled := ⟨.saveSet (firstAttempt.frozen false), nofun, rfl⟩
  refine Pool.Steps.of_serves ?_ ?_
  · exact .answered rfl (.answered rfl (.meanwhile freezes
      (.answered rfl (.answered rfl (.refl _)))))
  · intro contender
    cases contender with
    | owner => exact .ask (.ask (.refl _))
    | linker => exact .ask (.refl _)
    | latecomer => exact .ask (.refl _)

theorem writers_agree_contest :
    Racing firstAttempt.id contested Contender.writer (Ledger.empty.save firstAttempt) contest
        ⟨settled, remaining⟩ ∧
      (∀ contender,
        (Pool.own contender contest).length < 2 ∧
            (∃ query next, remaining contender = .ask query next) ∨
          ∃ id, remaining contender = .done (.ok id) ∧ "2" = id) ∧
      ∃ row, ((settled.rowsOf firstAttempt.id).filter fun row => row.name = contested) = [row] ∧
        "2" = row.id := by
  have started : Ledger.Later .empty (Ledger.empty.save firstAttempt) :=
    .query (.saveSet firstAttempt) (.refl _)
  have same : ∀ contender : Contender, contender.writer.handle = firstAttempt := by
    intro contender
    cases contender <;> rfl
  obtain ⟨returned, stored⟩ := writers_agree
    (fun contender => congrArg VariableSet.id (same contender))
    (fun contender => congrArg VariableSet.writable (same contender)) started rfl racing_contest
  refine ⟨racing_contest, fun contender => ?_, ?_⟩
  · rcases returned contender with asking | ⟨id, done, only⟩
    · exact .inl asking
    · exact .inr ⟨id, done, Option.some.inj only⟩
  · obtain ⟨row, only, first⟩ := stored (by simp [contest])
    exact ⟨row, only, Option.some.inj first⟩

end Store

end ManifestVariables
