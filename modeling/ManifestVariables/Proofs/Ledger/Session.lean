import ManifestVariables.Proofs.Ledger.Saves

/-!
# Sessions of the store

A session is a ledger in memory with the sets that callers of the store hold. A set is
held as it was returned, so the ledger may have changed since. `Session.after` is what
a list of uses makes of a session, and `Session.Allows` says that each use names a set
that is held by then, a new one being created under an identity that is not taken.
`Session.Sound` is what such uses keep: a set is recorded under its own identity, and
whoever holds a set knows its deployment.
-/

namespace ManifestVariables

open Ledger (respond)

namespace Store

/-- What callers do with the store. -/
inductive Use where
  | create (id : SetId) (deployment : String)
  | freeze (set : VariableSet) (deployedSuccessfully : Bool)
  | add (set : VariableSet) (name : String) (id : VariableId)
  | addLink (set : VariableSet) (name : String) (id : VariableId) (provider : String)
  | get (id : SetId)
  | current (deployment : String)
  | history (deployment : String)
deriving DecidableEq, Repr

/-- An operation that answers with the sets in its result. -/
def returning {α : Type} (sets : α → List VariableSet) (operation : Operation α) :
    Operation (List VariableSet) :=
  operation.andThen fun result => .done (result.map sets)

/-- The operation of a use, which answers with the sets that it returns. -/
def Use.operation : Use → Operation (List VariableSet)
  | create id deployment => returning (fun set => [set]) (createWritable id deployment)
  | freeze set deployedSuccessfully =>
    returning (fun set => [set]) (Store.freeze set deployedSuccessfully)
  | add set name id => returning (fun _ => []) (Store.add name id set)
  | addLink set name id provider => returning (fun _ => []) (Store.addLink name id provider set)
  | get id => returning (fun set => [set]) (Store.get id)
  | current deployment => returning Option.toList (Store.current deployment)
  | history deployment => returning (fun sets => sets) (Store.history deployment)

end Store

/-- A ledger and the sets that callers hold. -/
structure Session where
  ledger : Ledger
  held : List VariableSet
deriving DecidableEq, Repr

namespace Session

open Store

/-- A ledger without sets, of which nobody holds any. -/
def start : Session := ⟨.empty, []⟩

/-- The session after one use. What it returns is held from now on. -/
def use (session : Session) (use : Use) : Session :=
  let ran := use.operation.run respond session.ledger
  ⟨ran.2, session.held ++ ran.1.toOption.getD []⟩

/-- The session after some uses. -/
def after (session : Session) (uses : List Use) : Session :=
  uses.foldl use session

/-- A set that is used must be held, and one that is created must be new. -/
def AllowsUse (session : Session) : Use → Prop
  | .create id _ => Keyed.get? session.ledger.sets id = none
  | .freeze set _ => set ∈ session.held
  | .add set _ _ => set ∈ session.held
  | .addLink set _ _ _ => set ∈ session.held
  | _ => True

/-- Each use is allowed when its turn has come. -/
def Allows : Session → List Use → Prop
  | _, [] => True
  | session, use :: rest => session.AllowsUse use ∧ (session.use use).Allows rest

instance (session : Session) : DecidablePred session.AllowsUse
  | .create _ _ => inferInstanceAs (Decidable (_ = _))
  | .freeze _ _ => inferInstanceAs (Decidable (_ ∈ _))
  | .add _ _ _ => inferInstanceAs (Decidable (_ ∈ _))
  | .addLink _ _ _ _ => inferInstanceAs (Decidable (_ ∈ _))
  | .get _ => inferInstanceAs (Decidable True)
  | .current _ => inferInstanceAs (Decidable True)
  | .history _ => inferInstanceAs (Decidable True)

instance decidableAllows : (session : Session) → DecidablePred session.Allows
  | _, [] => inferInstanceAs (Decidable True)
  | session, use :: rest =>
    have := decidableAllows (session.use use) rest
    inferInstanceAs (Decidable (_ ∧ _))

theorem after_append (session : Session) (first second : List Use) :
    session.after (first ++ second) = (session.after first).after second :=
  List.foldl_append ..

theorem allows_append_iff {session : Session} {first second : List Use} :
    session.Allows (first ++ second) ↔
      session.Allows first ∧ (session.after first).Allows second := by
  induction first generalizing session with
  | nil => exact ⟨fun allowed => ⟨trivial, allowed⟩, And.right⟩
  | cons use rest ih =>
    simp only [List.cons_append, Allows, ih, and_assoc]
    rfl

end Session

namespace Ledger

variable {ledger : Ledger} {set : VariableSet}

/-- The ledger with the writable ones among some sets frozen. -/
def freezing (ledger : Ledger) (sets : List VariableSet) : Ledger :=
  sets.foldl
    (fun ledger set => if set.writable then ledger.save (set.frozen false) else ledger) ledger

theorem rows_freezing (sets : List VariableSet) (ledger : Ledger) :
    (ledger.freezing sets).rows = ledger.rows := by
  induction sets generalizing ledger with
  | nil => rfl
  | cons set rest ih =>
    rw [freezing, List.foldl_cons]
    exact (ih _).trans (by split <;> rfl)

theorem rowsOf_freezing (sets : List VariableSet) (ledger : Ledger) (id : SetId) :
    (ledger.freezing sets).rowsOf id = ledger.rowsOf id := by
  rw [rowsOf, rows_freezing, rowsOf]

/-- Freezing concerns only the sets that are writable in the list. -/
theorem get?_freezing {sets : List VariableSet} {id : SetId} (ledger : Ledger)
    (spared : ∀ set ∈ sets, set.id = id → set.writable = false) :
    Keyed.get? (ledger.freezing sets).sets id = Keyed.get? ledger.sets id := by
  induction sets generalizing ledger with
  | nil => rfl
  | cons set rest ih =>
    rw [freezing, List.foldl_cons]
    refine (ih _ fun other member => spared other (List.mem_cons_of_mem _ member)).trans ?_
    split
    next writable =>
      have different : id ≠ set.id := by
        rintro rfl
        exact absurd (spared set List.mem_cons_self rfl) (by simp [writable])
      rw [get?_save, VariableSet.frozen, if_neg different]
    · rfl

/-- The ledger once a row was added through a handle, if it could be. -/
def adding (ledger : Ledger) (set : VariableSet) (row : Association) : Ledger :=
  if set.writable then (ledger.insert row).toOption.getD ledger else ledger

theorem sets_adding (ledger : Ledger) (set : VariableSet) (row : Association) :
    (ledger.adding set row).sets = ledger.sets := by
  unfold adding
  split
  · cases inserted : ledger.insert row with
    | error => rfl
    | ok next =>
      obtain ⟨_, _, rfl⟩ := insert_eq_ok_iff.mp inserted
      rfl
  · rfl

theorem exists_get?_of_mem_setsOf {deployment : String} (member : set ∈ ledger.setsOf deployment) :
    ∃ id, Keyed.get? ledger.sets id = some set := by
  obtain ⟨listed, _⟩ := List.mem_filter.mp member
  obtain ⟨id, _, stored⟩ := List.mem_filterMap.mp listed
  exact ⟨id, stored⟩

end Ledger

namespace Store

open Ledger

theorem run_returning {α : Type} (sets : α → List VariableSet) (operation : Operation α)
    (ledger : Ledger) :
    (returning sets operation).run respond ledger =
      ((operation.run respond ledger).1.map sets, (operation.run respond ledger).2) :=
  Program.run_andThen (I := Access) respond operation _ ledger

theorem run_freezeWritable {α : Type} (next : Operation α) (sets : List VariableSet)
    (ledger : Ledger) :
    (freezeWritable next sets).run respond ledger = next.run respond (ledger.freezing sets) := by
  induction sets generalizing ledger with
  | nil => rfl
  | cons set rest ih =>
    rw [freezeWritable, freezing, List.foldl_cons]
    split
    · exact ih _
    · exact ih _

theorem run_createWritable (id : SetId) (deployment : String) (ledger : Ledger) :
    (createWritable id deployment).run respond ledger =
      (.ok (.fresh id deployment),
        (ledger.freezing (ledger.setsOf deployment)).save (.fresh id deployment)) :=
  run_freezeWritable _ _ _

/-- Asking for the winner leaves the ledger as it is. -/
theorem run_winner (row : Association) (ledger : Ledger) :
    ((winner row).run respond ledger).2 = ledger := by
  simp only [winner, query, Program.run, respond]
  cases ledger.idOf? row.set row.name with
  | none => rfl
  | some id => rfl

/-- Adding a row through a writable handle inserts it unless the ledger refuses it. -/
theorem run_insert (set : VariableSet) (row : Association) (ledger : Ledger) :
    ((Store.insert set row).run respond ledger).2 = ledger.adding set row := by
  unfold adding
  cases writable : set.writable with
  | false =>
    simp only [Store.insert, writable]
    rfl
  | true =>
    simp only [Store.insert, writable, Bool.not_true, Bool.false_eq_true, if_false, if_true,
      Program.run, respond]
    cases ledger.insert row with
    | ok next => rfl
    | error failure =>
      cases failure with
      | uniqueViolation detail => exact run_winner row ledger
      | notFound detail => rfl
      | database detail => rfl

end Store

namespace Session

open Store

theorem use_eq (session : Session) (use : Use) :
    session.use use =
      ⟨(use.operation.run respond session.ledger).2,
        session.held ++ (use.operation.run respond session.ledger).1.toOption.getD []⟩ :=
  rfl

theorem use_create (session : Session) (id : SetId) (deployment : String) :
    session.use (.create id deployment) =
      ⟨(session.ledger.freezing (session.ledger.setsOf deployment)).save (.fresh id deployment),
        session.held ++ [.fresh id deployment]⟩ := by
  simp only [use_eq, Use.operation, run_returning, run_createWritable]
  rfl

theorem use_freeze (session : Session) (set : VariableSet) (deployedSuccessfully : Bool) :
    session.use (.freeze set deployedSuccessfully) =
      ⟨session.ledger.save (set.frozen deployedSuccessfully),
        session.held ++ [set.frozen deployedSuccessfully]⟩ :=
  rfl

/-- A use that adds a row returns no set. -/
theorem use_of_insert (session : Session) {use : Use} {set : VariableSet} {row : Association}
    (inserts : use.operation = returning (fun _ => []) (Store.insert set row)) :
    session.use use = ⟨session.ledger.adding set row, session.held⟩ := by
  rw [use_eq, inserts, run_returning, run_insert]
  cases ((Store.insert set row).run respond session.ledger).1 <;>
    exact congrArg _ (List.append_nil _)

theorem use_add (session : Session) (set : VariableSet) (name : String) (id : VariableId) :
    session.use (.add set name id) =
      ⟨session.ledger.adding set ⟨set.id, name, id, none⟩, session.held⟩ :=
  session.use_of_insert rfl

theorem use_addLink (session : Session) (set : VariableSet) (name : String) (id : VariableId)
    (provider : String) :
    session.use (.addLink set name id provider) =
      ⟨session.ledger.adding set ⟨set.id, name, id, some provider⟩, session.held⟩ :=
  session.use_of_insert rfl

theorem use_get (session : Session) (id : SetId) :
    session.use (.get id) =
      ⟨session.ledger, session.held ++ (Keyed.get? session.ledger.sets id).toList⟩ := by
  simp only [use_eq, Use.operation, run_returning, Store.get, Store.query, Program.run, respond]
  cases Keyed.get? session.ledger.sets id with
  | none => rfl
  | some set => rfl

theorem use_current (session : Session) (deployment : String) :
    session.use (.current deployment) =
      ⟨session.ledger, session.held ++ (session.ledger.setsOf deployment).head?.toList⟩ :=
  rfl

theorem use_history (session : Session) (deployment : String) :
    session.use (.history deployment) =
      ⟨session.ledger, session.held ++ session.ledger.setsOf deployment⟩ :=
  rfl

/-- A set is recorded under its own identity, and a set that is held belongs to the same
deployment as it is recorded. -/
structure Sound (session : Session) : Prop where
  named : ∀ id set, Keyed.get? session.ledger.sets id = some set → set.id = id
  known : ∀ set ∈ session.held, ∃ recorded,
    Keyed.get? session.ledger.sets set.id = some recorded ∧ recorded.deployment = set.deployment

variable {session : Session} {ledger : Ledger} {held : List VariableSet}

theorem sound_start : start.Sound :=
  ⟨fun _ _ recorded => (nomatch recorded), fun _ member => (nomatch member)⟩

theorem Sound.ledger_eq {other : Ledger} (sound : Sound ⟨ledger, held⟩)
    (same : other.sets = ledger.sets) : Sound ⟨other, held⟩ := by
  constructor
  · simpa only [same] using sound.named
  · simpa only [same] using sound.known

/-- Sets that are recorded may be held. -/
theorem Sound.hold {more : List VariableSet} (sound : Sound ⟨ledger, held⟩)
    (recorded : ∀ set ∈ more, ∃ id, Keyed.get? ledger.sets id = some set) :
    Sound ⟨ledger, held ++ more⟩ := by
  refine ⟨sound.named, ?_⟩
  intro set member
  rcases List.mem_append.mp member with before | new
  · exact sound.known set before
  · obtain ⟨id, stored⟩ := recorded set new
    obtain rfl := sound.named id set stored
    exact ⟨set, stored, rfl⟩

/-- A set may be recorded anew with its deployment unchanged. -/
theorem Sound.save {set : VariableSet} (sound : Sound ⟨ledger, held⟩)
    (same : ∀ recorded, Keyed.get? ledger.sets set.id = some recorded →
      recorded.deployment = set.deployment) :
    Sound ⟨ledger.save set, held⟩ := by
  constructor
  · intro id other stored
    simp only [Ledger.get?_save] at stored
    split at stored
    next here =>
      cases stored
      exact here.symm
    · exact sound.named id other stored
  · intro other member
    obtain ⟨recorded, stored, deployment⟩ := sound.known other member
    by_cases here : other.id = set.id
    · refine ⟨set, by simp [Ledger.get?_save, here], ?_⟩
      rw [here] at stored
      rw [← same recorded stored, deployment]
    · exact ⟨recorded, by simpa [Ledger.get?_save, here] using stored, deployment⟩

/-- Sets need not be held. -/
theorem Sound.drop {fewer : List VariableSet} (sound : Sound ⟨ledger, held⟩)
    (among : fewer ⊆ held) : Sound ⟨ledger, fewer⟩ :=
  ⟨sound.named, fun set member => sound.known set (among member)⟩

/-- Sets that are held may be frozen. -/
theorem Sound.freezing {sets : List VariableSet} (sound : Sound ⟨ledger, held⟩)
    (among : sets ⊆ held) : Sound ⟨ledger.freezing sets, held⟩ := by
  induction sets generalizing ledger with
  | nil => exact sound
  | cons set rest ih =>
    have others : rest ⊆ held := fun _ member => among (List.mem_cons_of_mem _ member)
    rw [Ledger.freezing, List.foldl_cons]
    refine ih ?_ others
    split
    · obtain ⟨recorded, stored, deployment⟩ := sound.known set (among List.mem_cons_self)
      refine sound.save ?_
      intro found here
      cases Option.some.inj (stored.symm.trans here)
      exact deployment
    · exact sound

/-- What is allowed keeps a session sound. -/
theorem Sound.use {use : Use} (sound : session.Sound) (allowed : session.AllowsUse use) :
    (session.use use).Sound := by
  have listed (deployment : String) : ∀ set ∈ session.ledger.setsOf deployment,
      ∃ id, Keyed.get? session.ledger.sets id = some set :=
    fun _ member => Ledger.exists_get?_of_mem_setsOf member
  cases use with
  | create id deployment =>
    rw [use_create]
    have froze := ((sound.hold (listed deployment)).freezing (List.subset_append_right _ _)).drop
      (List.subset_append_left _ _)
    have unaffected : Keyed.get?
        (session.ledger.freezing (session.ledger.setsOf deployment)).sets id = none := by
      -- Only recorded sets are frozen, and the new identity is none of theirs.
      refine (Ledger.get?_freezing session.ledger ?_).trans allowed
      rintro set member rfl
      obtain ⟨id, stored⟩ := listed deployment set member
      obtain rfl := sound.named id set stored
      exact nomatch stored.symm.trans allowed
    have saved : Sound ⟨(session.ledger.freezing (session.ledger.setsOf deployment)).save
        (.fresh id deployment), session.held⟩ :=
      froze.save fun _ stored => (nomatch stored.symm.trans unaffected)
    refine saved.hold fun set member => ⟨id, ?_⟩
    rw [List.mem_singleton.mp member, Ledger.get?_save]
    exact if_pos rfl
  | freeze set deployedSuccessfully =>
    rw [use_freeze]
    obtain ⟨recorded, stored, deployment⟩ := sound.known set allowed
    have saved : Sound ⟨session.ledger.save (set.frozen deployedSuccessfully), session.held⟩ := by
      refine sound.save ?_
      intro found here
      cases Option.some.inj (stored.symm.trans here)
      exact deployment
    refine saved.hold fun other member => ⟨set.id, ?_⟩
    rw [List.mem_singleton.mp member, Ledger.get?_save]
    exact if_pos rfl
  | add set name id =>
    rw [use_add]
    exact sound.ledger_eq (Ledger.sets_adding _ _ _)
  | addLink set name id provider =>
    rw [use_addLink]
    exact sound.ledger_eq (Ledger.sets_adding _ _ _)
  | get id =>
    rw [use_get]
    exact sound.hold fun set member => ⟨id, Option.mem_toList.mp member⟩
  | current deployment =>
    rw [use_current]
    exact sound.hold fun set member =>
      listed deployment set (List.mem_of_mem_head? (Option.mem_toList.mp member))
  | history deployment =>
    rw [use_history]
    exact sound.hold (listed deployment)

theorem Sound.after {uses : List Use} (sound : session.Sound) (allowed : session.Allows uses) :
    (session.after uses).Sound := by
  induction uses generalizing session with
  | nil => exact sound
  | cons use rest ih => exact ih (sound.use allowed.1) allowed.2

end Session

end ManifestVariables
