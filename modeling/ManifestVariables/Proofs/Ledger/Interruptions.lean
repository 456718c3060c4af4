import ManifestVariables.Proofs.Ledger.Previous

/-!
# Starting a deploy attempt while queries fail

To start a deploy attempt, the sets of the deployment that are still writable are saved as
frozen, one by one, and then the new set is saved. Any of these queries may fail, and the
rest is then not asked (`Store.run_freezeWritable_respondOr`). So the new set is stored only
where all others of its deployment are frozen, and where it is not stored, some sets that
were writable may be frozen already, but nothing else has changed
(`Store.createWritable_exact`).
-/

namespace ManifestVariables

namespace VariableSet

variable {set : VariableSet} {deployment : String}

/-- A set once a deployment has started another deploy attempt. -/
def superseded (deployment : String) (set : VariableSet) : VariableSet :=
  if set.deployment = deployment ∧ set.writable = true then set.frozen false else set

theorem superseded_of_writable (own : set.deployment = deployment)
    (writable : set.writable = true) : set.superseded deployment = set.frozen false :=
  if_pos ⟨own, writable⟩

theorem superseded_of_ne (other : set.deployment ≠ deployment) :
    set.superseded deployment = set :=
  if_neg fun both => other both.1

theorem writable_superseded (own : (set.superseded deployment).deployment = deployment) :
    (set.superseded deployment).writable = false := by
  unfold superseded at own ⊢
  split at own
  next both => rw [if_pos both, frozen]
  next apart =>
    rw [if_neg apart]
    exact Bool.eq_false_iff.mpr fun writable => apart ⟨own, writable⟩

end VariableSet

namespace Ledger

variable {ledger before after : Ledger} {sets : List VariableSet} {set : VariableSet}
  {id : SetId} {deployment : String} {queries : List Query}

/-- The saves that freeze the writable ones among some sets. -/
def freezes (sets : List VariableSet) : List Query :=
  (sets.filter VariableSet.writable).map fun set => .saveSet (set.frozen false)

theorem freezing_eq_after (sets : List VariableSet) (ledger : Ledger) :
    ledger.freezing sets = ledger.after (freezes sets) := by
  induction sets generalizing ledger with
  | nil => rfl
  | cons set rest ih =>
    rw [freezing, List.foldl_cons, freezes]
    split
    next writable =>
      rw [List.filter_cons_of_pos writable]
      exact ih _
    next frozen =>
      rw [List.filter_cons_of_neg frozen]
      exact ih _

theorem mem_freezes_iff :
    .saveSet set ∈ freezes sets ↔
      ∃ listed ∈ sets, listed.writable = true ∧ listed.frozen false = set := by
  simp [freezes, and_assoc]

/-- Sets that are saved again keep their places. -/
theorem order_after_of_recorded
    (recorded : ∀ set, .saveSet set ∈ queries → Keyed.contains ledger.sets set.id = true) :
    (ledger.after queries).order = ledger.order := by
  induction queries using List.reverseRecOn with
  | nil => rfl
  | append_singleton queries query ih =>
    have earlier := ih fun set member => recorded set (List.mem_append_left _ member)
    rw [after_concat]
    cases saved : query.saved? with
    | none => rw [(respond_of_saved?_eq_none saved _).2, earlier]
    | some set =>
      obtain rfl := Query.saved?_eq_some_iff.mp saved
      have known : Keyed.contains (ledger.after queries).sets set.id = true := by
        have before := recorded set (by simp)
        rw [Keyed.contains] at before ⊢
        rw [get?_after, Option.isSome_or, before, Bool.or_true]
      rw [respond, save, if_pos known, earlier]

theorem later_after (queries : List Query) (ledger : Ledger) :
    Later ledger (ledger.after queries) := by
  induction queries generalizing ledger with
  | nil => exact .refl ledger
  | cons query rest ih => exact .query query (ih _)

/-- The listed sets of a deployment are its own, as they are recorded. -/
theorem recorded_of_mem_setsOf_after
    (member : set ∈ (empty.after queries).setsOf deployment) :
    Keyed.get? (empty.after queries).sets set.id = some set ∧ set.deployment = deployment :=
  (mem_setsOf_iff (later_after queries empty)).mp member

section Listed

variable (listed : ∀ set ∈ sets, Keyed.get? ledger.sets set.id = some set)

include listed

/-- A listed set that is writable becomes frozen. -/
theorem get?_freezing_of_mem (member : set ∈ sets) (writable : set.writable = true) :
    Keyed.get? (ledger.freezing sets).sets set.id = some (set.frozen false) := by
  rw [freezing_eq_after, get?_after]
  obtain ⟨last, saved⟩ := exists_lastSaved?_of_mem
    (mem_freezes_iff.mpr ⟨set, member, writable, rfl⟩)
  change lastSaved? _ set.id = some last at saved
  rw [saved, Option.some_or]
  -- Whatever else is saved under the identity of the set was listed as the same set.
  obtain ⟨other, among, _, rfl⟩ := mem_freezes_iff.mp (mem_of_lastSaved? saved)
  have same : (other.frozen false).id = set.id := id_of_lastSaved? saved
  change other.id = set.id at same
  have stored := listed other among
  rw [same, listed set member] at stored
  cases stored
  rfl

theorem order_freezing : (ledger.freezing sets).order = ledger.order := by
  rw [freezing_eq_after]
  refine order_after_of_recorded fun set member => ?_
  obtain ⟨other, among, _, rfl⟩ := mem_freezes_iff.mp member
  change Keyed.contains ledger.sets other.id = true
  rw [Keyed.contains, listed other among]
  rfl

end Listed

/-- What a ledger is left as where a deploy attempt was not started. -/
structure Abandoned (deployment : String) (before after : Ledger) : Prop where
  order : after.order = before.order
  rows : after.rows = before.rows
  sets : ∀ id, Keyed.get? after.sets id = Keyed.get? before.sets id ∨
    ∃ set, Keyed.get? before.sets id = some set ∧ set.deployment = deployment ∧
      set.writable = true ∧ Keyed.get? after.sets id = some (set.frozen false)

/-- What a ledger is left as where a deploy attempt was started. -/
structure Started (id : SetId) (deployment : String) (before after : Ledger) : Prop where
  order : after.order = before.order ++ [id]
  rows : after.rows = before.rows
  stored : Keyed.get? after.sets id = some (.fresh id deployment)
  current : (Store.current deployment).run respond after =
    (.ok (some (.fresh id deployment)), after)
  others : ∀ other, other ≠ id → Keyed.get? after.sets other =
    (Keyed.get? before.sets other).map (VariableSet.superseded deployment)
  frozen : ∀ set, Keyed.get? after.sets set.id = some set → set.id ≠ id →
    set.deployment = deployment → set.writable = false

/-- Sets of other deployments stay as they are. -/
def Elsewhere (deployment : String) (before after : Ledger) : Prop :=
  ∀ id set, Keyed.get? before.sets id = some set → set.deployment ≠ deployment →
    Keyed.get? after.sets id = some set

theorem Abandoned.elsewhere (abandoned : Abandoned deployment before after) :
    Elsewhere deployment before after := by
  intro id set recorded other
  rcases abandoned.sets id with same | ⟨found, known, own, _⟩
  · exact same.trans recorded
  · cases known.symm.trans recorded
    exact absurd own other

theorem Started.elsewhere (started : Started id deployment before after)
    (new : Keyed.get? before.sets id = none) : Elsewhere deployment before after := by
  intro other set recorded apart
  have different : other ≠ id := by
    rintro rfl
    cases new.symm.trans recorded
  rw [started.others other different, recorded, Option.map_some,
    VariableSet.superseded_of_ne apart]

/-- Freezing some sets of a deployment changes nothing else. -/
theorem abandoned_freezing
    (listed : ∀ set ∈ sets, Keyed.get? ledger.sets set.id = some set ∧
      set.deployment = deployment) : Abandoned deployment ledger (ledger.freezing sets) where
  order := order_freezing fun set member => (listed set member).1
  rows := rows_freezing sets ledger
  sets := by
    intro id
    by_cases opened : ∃ set ∈ sets, set.id = id ∧ set.writable = true
    · obtain ⟨set, member, rfl, writable⟩ := opened
      obtain ⟨recorded, own⟩ := listed set member
      exact .inr ⟨set, recorded, own, writable,
        get?_freezing_of_mem (fun set member => (listed set member).1) member writable⟩
    · refine .inl (get?_freezing ledger fun set member same => ?_)
      exact Bool.eq_false_iff.mpr fun writable => opened ⟨set, member, same, writable⟩

/-- Freezing all sets of a deployment supersedes every set. -/
theorem get?_freezing_setsOf (queries : List Query) (deployment : String) (id : SetId) :
    Keyed.get? ((empty.after queries).freezing ((empty.after queries).setsOf deployment)).sets id =
      (Keyed.get? (empty.after queries).sets id).map (VariableSet.superseded deployment) := by
  have recorded := (kept_after queries).recorded
  have listed : ∀ set ∈ (empty.after queries).setsOf deployment,
      Keyed.get? (empty.after queries).sets set.id = some set :=
    fun set member => (recorded_of_mem_setsOf_after member).1
  cases found : Keyed.get? (empty.after queries).sets id with
  | none =>
    rw [Option.map_none, get?_freezing _ fun set member same => ?_, found]
    cases (same ▸ listed set member).symm.trans found
  | some set =>
    have saved := (recorded id).symm.trans found
    obtain rfl := id_of_lastSaved? saved
    rw [Option.map_some]
    by_cases opened : set.deployment = deployment ∧ set.writable = true
    · obtain ⟨own, writable⟩ := opened
      rw [VariableSet.superseded_of_writable own writable]
      exact get?_freezing_of_mem listed (mem_setsOf_after_iff.mpr ⟨saved, own⟩) writable
    · rw [VariableSet.superseded, if_neg opened, get?_freezing _ fun other member same => ?_, found]
      obtain ⟨stored, own⟩ := mem_setsOf_after_iff.mp member
      rw [same, saved] at stored
      cases stored
      exact Bool.eq_false_iff.mpr fun writable => opened ⟨own, writable⟩

/-- A deploy attempt that no failure stops supersedes all sets and adds its own. -/
theorem started_begun (new : Keyed.get? (empty.after queries).sets id = none) :
    Started id deployment (empty.after queries) ((empty.after queries).begun id deployment) := by
  have listed : ∀ set ∈ (empty.after queries).setsOf deployment,
      Keyed.get? (empty.after queries).sets set.id = some set :=
    fun set member => (recorded_of_mem_setsOf_after member).1
  have unsaved : ¬ Keyed.contains ((empty.after queries).freezing
      ((empty.after queries).setsOf deployment)).sets id = true := by
    rw [Keyed.contains, get?_freezing_setsOf, new]
    exact Bool.false_ne_true
  have others : ∀ other, other ≠ id →
      Keyed.get? ((empty.after queries).begun id deployment).sets other =
        (Keyed.get? (empty.after queries).sets other).map (VariableSet.superseded deployment) := by
    intro other different
    rw [begun, get?_save, VariableSet.fresh, if_neg different, get?_freezing_setsOf]
  constructor
  case order =>
    rw [begun, save, ← order_freezing listed]
    exact if_neg unsaved
  case rows => exact rows_freezing _ _
  case stored => exact (get?_save _ _ _).trans (if_pos rfl)
  case current =>
    have newest : (Store.current deployment).run respond
        ((empty.after queries).begun id deployment) =
      (.ok (((empty.after queries).begun id deployment).setsOf deployment).head?,
        (empty.after queries).begun id deployment) := rfl
    rw [newest, head?_setsOf_begun (later_after queries empty) new]
  case others => exact others
  case frozen =>
    intro set stored different own
    rw [others set.id different] at stored
    obtain ⟨earlier, _, rfl⟩ := Option.map_eq_some_iff.mp stored
    exact VariableSet.writable_superseded own

/-- Answers a query from the ledger in memory, or fails without effect. A plan says which
queries fail, by the number of queries that were asked before. -/
def respondOr (plan : Nat → Option LedgerError) (query : Query) (state : Nat × Ledger) :
    Except LedgerError query.Result × Nat × Ledger :=
  match plan state.1 with
  | some failure => (.error failure, state.1 + 1, state.2)
  | none => ((respond query state.2).1, state.1 + 1, (respond query state.2).2)

/-- A plan spares the queries from one on until another. -/
def Spares (plan : Nat → Option LedgerError) (first past : Nat) : Prop :=
  ∀ asked, first ≤ asked → asked < past → plan asked = none

variable {plan : Nat → Option LedgerError} {first past : Nat}

theorem Spares.refl (plan : Nat → Option LedgerError) (first : Nat) : Spares plan first first := by
  intro asked above below
  omega

theorem Spares.cons (spared : plan first = none) (later : Spares plan (first + 1) past) :
    Spares plan first past := by
  intro asked above below
  rcases Nat.eq_or_lt_of_le above with rfl | above
  · exact spared
  · exact later asked above below

end Ledger

namespace Store

open Ledger

variable {α : Type} {plan : Nat → Option LedgerError} {asked : Nat} {ledger after : Ledger}
  {question : Query} {next : question.Result → Operation α}

theorem run_query_of_failure {failure : LedgerError} (fails : plan asked = some failure) :
    (query question next).run (respondOr plan) (asked, ledger) =
      (.error (.ledger failure), asked + 1, ledger) := by
  simp only [query, Program.run, respondOr, fails]

theorem run_query_of_answered {result : question.Result} (spared : plan asked = none)
    (answered : respond question ledger = (.ok result, after)) :
    (query question next).run (respondOr plan) (asked, ledger) =
      (next result).run (respondOr plan) (asked + 1, after) := by
  simp only [query, Program.run, respondOr, spared, answered]

/-- The writable ones among some sets are frozen as far as no query fails. -/
theorem run_freezeWritable_respondOr (plan : Nat → Option LedgerError) (next : Operation α)
    (sets : List VariableSet) (asked : Nat) (ledger : Ledger) :
    ∃ past, Spares plan asked past ∧
      ((freezeWritable next sets).run (respondOr plan) (asked, ledger) =
          next.run (respondOr plan) (past, ledger.freezing sets) ∨
        ∃ failure processed, plan past = some failure ∧ processed <+: sets ∧
          (freezeWritable next sets).run (respondOr plan) (asked, ledger) =
            (.error (.ledger failure), past + 1, ledger.freezing processed)) := by
  induction sets generalizing asked ledger with
  | nil => exact ⟨asked, .refl plan asked, .inl rfl⟩
  | cons set rest ih =>
    rw [freezeWritable]
    split
    next writable =>
      cases planned : plan asked with
      | some failure =>
        refine ⟨asked, .refl plan asked, .inr ⟨failure, [], planned, List.nil_prefix, ?_⟩⟩
        exact run_query_of_failure planned
      | none =>
        have saved : (query (.saveSet (set.frozen false)) fun _ => freezeWritable next rest).run
            (respondOr plan) (asked, ledger) =
          (freezeWritable next rest).run (respondOr plan)
            (asked + 1, ledger.save (set.frozen false)) := run_query_of_answered planned rfl
        obtain ⟨past, spared, ran⟩ := ih (asked + 1) (ledger.save (set.frozen false))
        have more (sets : List VariableSet) : ledger.freezing (set :: sets) =
            (ledger.save (set.frozen false)).freezing sets := by
          rw [freezing, List.foldl_cons, if_pos writable, freezing]
        rw [saved, more]
        refine ⟨past, .cons planned spared, ran.imp id ?_⟩
        rintro ⟨failure, processed, fails, upTo, stopped⟩
        refine ⟨failure, set :: processed, fails, List.cons_prefix_cons.mpr ⟨rfl, upTo⟩, ?_⟩
        rw [stopped, more]
    next frozen =>
      obtain ⟨past, spared, ran⟩ := ih asked ledger
      have more (sets : List VariableSet) :
          ledger.freezing (set :: sets) = ledger.freezing sets := by
        rw [freezing, List.foldl_cons, if_neg frozen, freezing]
      rw [more]
      refine ⟨past, spared, ran.imp id ?_⟩
      rintro ⟨failure, processed, fails, upTo, stopped⟩
      refine ⟨failure, set :: processed, fails, List.cons_prefix_cons.mpr ⟨rfl, upTo⟩, ?_⟩
      rw [stopped, more]

/-- The start of a deploy attempt goes as far as no query fails. -/
theorem run_createWritable_respondOr (plan : Nat → Option LedgerError) (id : SetId)
    (deployment : String) (ledger : Ledger) :
    ∃ past, Spares plan 0 past ∧
      (plan past = none ∧
          (createWritable id deployment).run (respondOr plan) (0, ledger) =
            (.ok (.fresh id deployment), past + 1, ledger.begun id deployment) ∨
        ∃ failure processed, plan past = some failure ∧
          processed <+: ledger.setsOf deployment ∧
          (createWritable id deployment).run (respondOr plan) (0, ledger) =
            (.error (.ledger failure), past + 1, ledger.freezing processed)) := by
  cases lists : plan 0 with
  | some failure =>
    refine ⟨0, .refl plan 0, .inr ⟨failure, [], lists, List.nil_prefix, ?_⟩⟩
    exact run_query_of_failure lists
  | none =>
    have listed : (createWritable id deployment).run (respondOr plan) (0, ledger) =
        (freezeWritable (query (.saveSet (.fresh id deployment)) fun _ =>
          .done (.ok (.fresh id deployment))) (ledger.setsOf deployment)).run (respondOr plan)
            (1, ledger) := run_query_of_answered lists rfl
    rw [listed]
    obtain ⟨past, spared, went | stopped⟩ := run_freezeWritable_respondOr plan
      (query (.saveSet (.fresh id deployment)) fun _ =>
        .done (.ok (VariableSet.fresh id deployment)))
      (ledger.setsOf deployment) 1 ledger
    · refine ⟨past, .cons lists spared, ?_⟩
      rw [went]
      cases saves : plan past with
      | some failure =>
        refine .inr ⟨failure, ledger.setsOf deployment, rfl, List.prefix_refl _, ?_⟩
        exact run_query_of_failure saves
      | none => exact .inl ⟨rfl, run_query_of_answered saves rfl⟩
    · exact ⟨past, .cons lists spared, .inr stopped⟩

/-- Whatever was asked of an empty ledger and whichever queries fail now, a deploy attempt is
started under a new identity just where no failure comes up, and its set is then the newest
one and the only one of its deployment that is writable. Else the error is the failure, no set
is added, and some sets of the deployment that were writable may be frozen as not successful.
Sets of other deployments and all rows are as they were. -/
theorem createWritable_exact (queries : List Query) (id : SetId) (deployment : String)
    (plan : Nat → Option LedgerError)
    (new : Keyed.get? (Ledger.empty.after queries).sets id = none) :
    ∃ result past after,
      (createWritable id deployment).run (respondOr plan) (0, Ledger.empty.after queries) =
        (result, past + 1, after) ∧
      Spares plan 0 past ∧ Elsewhere deployment (Ledger.empty.after queries) after ∧
      (plan past = none ∧ result = .ok (.fresh id deployment) ∧
          Started id deployment (Ledger.empty.after queries) after ∨
        ∃ failure, plan past = some failure ∧ result = .error (.ledger failure) ∧
          Abandoned deployment (Ledger.empty.after queries) after) := by
  obtain ⟨past, spared, ⟨saved, ran⟩ | ⟨failure, processed, fails, upTo, ran⟩⟩ :=
    run_createWritable_respondOr plan id deployment (Ledger.empty.after queries)
  · have started : Started id deployment _ _ := started_begun new
    exact ⟨_, past, _, ran, spared, started.elsewhere new, .inl ⟨saved, rfl, started⟩⟩
  · have abandoned : Abandoned deployment (Ledger.empty.after queries)
        ((Ledger.empty.after queries).freezing processed) :=
      abandoned_freezing fun set member => recorded_of_mem_setsOf_after (upTo.subset member)
    exact ⟨_, past, _, ran, spared, abandoned.elsewhere, .inr ⟨failure, fails, rfl, abandoned⟩⟩

/-- A deploy attempt that was left writable. -/
def leftWritable : List Query :=
  [.saveSet (.fresh ⟨"set-1"⟩ "orders")]

/-- The listing and the first save are answered, the save behind them is not. -/
def secondSaveFails (asked : Nat) : Option LedgerError :=
  if asked = 2 then some (.database "disk full") else none

theorem createWritable_exact_leftWritable :
    Keyed.get? (Ledger.empty.after leftWritable).sets ⟨"set-2"⟩ = none ∧
      ∃ result past after,
        (createWritable ⟨"set-2"⟩ "orders").run (respondOr secondSaveFails)
            (0, Ledger.empty.after leftWritable) = (result, past + 1, after) ∧
          Spares secondSaveFails 0 past ∧
          Elsewhere "orders" (Ledger.empty.after leftWritable) after ∧
          (secondSaveFails past = none ∧ result = .ok (.fresh ⟨"set-2"⟩ "orders") ∧
              Started ⟨"set-2"⟩ "orders" (Ledger.empty.after leftWritable) after ∨
            ∃ failure, secondSaveFails past = some failure ∧ result = .error (.ledger failure) ∧
              Abandoned "orders" (Ledger.empty.after leftWritable) after) :=
  ⟨rfl, createWritable_exact leftWritable ⟨"set-2"⟩ "orders" secondSaveFails rfl⟩

/-- What was left writable is frozen, and there is no new set. -/
example : (createWritable ⟨"set-2"⟩ "orders").run (respondOr secondSaveFails)
      (0, Ledger.empty.after leftWritable) =
    (.error (.ledger (.database "disk full")), 3,
      Ledger.empty.save ⟨⟨"set-1"⟩, "orders", false, false⟩) := rfl

end Store

end ManifestVariables
