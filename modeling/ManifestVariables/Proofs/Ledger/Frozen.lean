import ManifestVariables.Proofs.Ledger.Session

/-!
# When a frozen set stays as it is

Freezing is recorded in the ledger, but whether a set may be changed is read from the
set that a caller holds. `Session.frozen_unchanged_iff` says which uses leave a frozen
set alone: it is frozen again with the same outcome only, and rows are added through
writable handles only under names that it has. A handle from before the freeze is free
to do otherwise (`Session.frozen_changed`).
-/

namespace ManifestVariables

open Store

namespace Ledger

/-- A set is recorded as before, with the same rows. -/
def Unchanged (before after : Ledger) (id : SetId) : Prop :=
  Keyed.get? after.sets id = Keyed.get? before.sets id ∧ after.rowsOf id = before.rowsOf id

theorem Unchanged.trans {before between after : Ledger} {id : SetId}
    (first : Unchanged before between id) (second : Unchanged between after id) :
    Unchanged before after id :=
  ⟨second.1.trans first.1, second.2.trans first.2⟩

theorem Unchanged.symm {before after : Ledger} {id : SetId} (same : Unchanged before after id) :
    Unchanged after before id :=
  ⟨same.1.symm, same.2.symm⟩

variable {ledger : Ledger} {set : VariableSet} {row : Association}

/-- Adding a row changes the rows of its set unless the handle is frozen or the name has a
version. -/
theorem rowsOf_adding_eq_iff (recorded : Keyed.contains ledger.sets row.set = true) :
    (ledger.adding set row).rowsOf row.set = ledger.rowsOf row.set ↔
      (set.writable = true → (ledger.idOf? row.set row.name).isSome = true) := by
  unfold adding
  cases writable : set.writable with
  | false => simp
  | true =>
    simp only [if_true, true_implies]
    cases inserted : ledger.insert row with
    | ok next =>
      have new := (exists_insert_iff recorded).mp ⟨next, inserted⟩
      simp [Except.toOption, rowsOf_insert inserted, new]
    | error failure =>
      have held : ledger.idOf? row.set row.name ≠ none := by
        intro new
        obtain ⟨next, added⟩ := (exists_insert_iff recorded).mpr new
        exact nomatch inserted.symm.trans added
      simpa [Except.toOption] using Option.isSome_iff_ne_none.mpr held

theorem rowsOf_adding_of_ne {id : SetId} (different : id ≠ row.set) :
    (ledger.adding set row).rowsOf id = ledger.rowsOf id := by
  unfold adding
  split
  · cases inserted : ledger.insert row with
    | ok next => simp [Except.toOption, rowsOf_insert inserted, different]
    | error => rfl
  · rfl

/-- Recording a set anew leaves it as it is if nothing about it is new. -/
theorem unchanged_save_iff {saved : VariableSet}
    (stored : Keyed.get? ledger.sets saved.id = some set) :
    Unchanged ledger (ledger.save saved) saved.id ↔ saved = set := by
  rw [Unchanged, get?_save, if_pos rfl, stored, Option.some.injEq]
  exact and_iff_left rfl

end Ledger

namespace Session

variable {session : Session} {set : VariableSet} {uses : List Use}

/-- Adding a row under a name through a handle leaves a set alone. -/
def SparesRows (ledger : Ledger) (set handle : VariableSet) (name : String) : Prop :=
  handle.id = set.id → handle.writable = true → (ledger.idOf? set.id name).isSome = true

/-- A use leaves a frozen set alone, given the rows that it has. -/
def Spares (ledger : Ledger) (set : VariableSet) : Use → Prop
  | .freeze handle deployedSuccessfully =>
    handle.id = set.id → deployedSuccessfully = set.deployedSuccessfully
  | .add handle name _ => SparesRows ledger set handle name
  | .addLink handle name _ _ => SparesRows ledger set handle name
  | _ => True

instance (ledger : Ledger) (set handle : VariableSet) (name : String) :
    Decidable (SparesRows ledger set handle name) :=
  inferInstanceAs (Decidable (_ → _ → _))

instance (ledger : Ledger) (set : VariableSet) : DecidablePred (Spares ledger set)
  | .create _ _ => inferInstanceAs (Decidable True)
  | .freeze _ _ => inferInstanceAs (Decidable (_ → _))
  | .add handle name _ => inferInstanceAs (Decidable (SparesRows ledger set handle name))
  | .addLink handle name _ _ => inferInstanceAs (Decidable (SparesRows ledger set handle name))
  | .get _ => inferInstanceAs (Decidable True)
  | .current _ => inferInstanceAs (Decidable True)
  | .history _ => inferInstanceAs (Decidable True)

/-- Which uses spare a set depends on its rows only. -/
theorem spares_iff_of_unchanged {before after : Ledger} {use : Use}
    (same : Ledger.Unchanged before after set.id) :
    Spares after set use ↔ Spares before set use := by
  have names (name : String) : after.idOf? set.id name = before.idOf? set.id name := by
    rw [Ledger.idOf?, Ledger.idOf?, same.2]
  cases use <;> simp only [Spares, SparesRows, names]

theorem unchanged_adding_iff {ledger : Ledger} {handle : VariableSet} {row : Association}
    (stored : Keyed.get? ledger.sets set.id = some set) (own : row.set = handle.id) :
    Ledger.Unchanged ledger (ledger.adding handle row) set.id ↔
      SparesRows ledger set handle row.name := by
  rw [Ledger.Unchanged, Ledger.sets_adding, SparesRows]
  by_cases same : handle.id = set.id
  · have recorded : Keyed.contains ledger.sets row.set = true := by
      rw [own, same, Keyed.contains, stored]
      rfl
    have changes : (ledger.adding handle row).rowsOf row.set = ledger.rowsOf row.set ↔ _ :=
      Ledger.rowsOf_adding_eq_iff recorded
    rw [own, same] at changes
    simp [changes, same]
  · have different : set.id ≠ row.set := by
      rw [own]
      exact Ne.symm same
    simp [Ledger.rowsOf_adding_of_ne different, same]

/-- A frozen set that is frozen again differs by the outcome only. -/
theorem frozen_eq_iff {handle : VariableSet} {deployedSuccessfully : Bool}
    (same : handle.id = set.id) (deployment : handle.deployment = set.deployment)
    (frozen : set.writable = false) :
    handle.frozen deployedSuccessfully = set ↔
      deployedSuccessfully = set.deployedSuccessfully := by
  obtain ⟨id, owner, writable, outcome⟩ := set
  subst same deployment frozen
  simp [VariableSet.frozen]

/-- One use leaves a frozen set as it is exactly if it spares it. -/
theorem unchanged_use_iff {use : Use} (sound : session.Sound) (allowed : session.AllowsUse use)
    (stored : Keyed.get? session.ledger.sets set.id = some set) (frozen : set.writable = false) :
    Ledger.Unchanged session.ledger (session.use use).ledger set.id ↔
      Spares session.ledger set use := by
  cases use with
  | create id deployment =>
    rw [use_create]
    refine iff_of_true ⟨?_, Ledger.rowsOf_freezing _ _ _⟩ trivial
    have different : set.id ≠ id := by
      rintro rfl
      exact nomatch stored.symm.trans allowed
    refine (Ledger.get?_save _ _ _).trans ((if_neg different).trans (Ledger.get?_freezing _ ?_))
    intro listed member same
    obtain ⟨recordedUnder, recorded⟩ := Ledger.exists_get?_of_mem_setsOf member
    obtain rfl := sound.named recordedUnder listed recorded
    rw [same, stored] at recorded
    cases recorded
    exact frozen
  | freeze handle deployedSuccessfully =>
    rw [use_freeze]
    by_cases same : handle.id = set.id
    · obtain ⟨recorded, here, deployment⟩ := sound.known handle allowed
      rw [same, stored] at here
      cases here
      have again : Ledger.Unchanged session.ledger
          (session.ledger.save (handle.frozen deployedSuccessfully)) set.id ↔
            handle.frozen deployedSuccessfully = set := by
        rw [← same] at stored ⊢
        exact Ledger.unchanged_save_iff stored
      rw [again, frozen_eq_iff same deployment.symm frozen]
      exact ⟨fun outcome _ => outcome, fun outcome => outcome same⟩
    · have elsewhere : Ledger.Unchanged session.ledger
          (session.ledger.save (handle.frozen deployedSuccessfully)) set.id :=
        ⟨(Ledger.get?_save _ _ _).trans (if_neg (Ne.symm same)), rfl⟩
      exact iff_of_true elsewhere fun here => absurd here same
  | add handle name id =>
    rw [use_add]
    exact unchanged_adding_iff stored rfl
  | addLink handle name id provider =>
    rw [use_addLink]
    exact unchanged_adding_iff stored rfl
  | get id =>
    rw [use_get]
    exact iff_of_true ⟨rfl, rfl⟩ trivial
  | current deployment => exact iff_of_true ⟨rfl, rfl⟩ trivial
  | history deployment => exact iff_of_true ⟨rfl, rfl⟩ trivial

/-- Some uses leave a frozen set as it is, from one to the next, exactly if each of them
spares it. -/
theorem unchanged_after_iff (sound : session.Sound) (allowed : session.Allows uses)
    (stored : Keyed.get? session.ledger.sets set.id = some set) (frozen : set.writable = false) :
    (∀ first, first <+: uses →
        Ledger.Unchanged session.ledger (session.after first).ledger set.id) ↔
      ∀ use ∈ uses, Spares session.ledger set use := by
  induction uses generalizing session with
  | nil =>
    constructor
    · exact fun _ use member => (nomatch member)
    · intro _ first none
      obtain rfl := List.prefix_nil.mp none
      exact ⟨rfl, rfl⟩
  | cons use rest ih =>
    have step := unchanged_use_iff sound allowed.1 stored frozen
    -- Either way the first use leaves the rows alone, so that sparing means the same after it.
    constructor
    · intro kept
      have here := kept [use] (List.prefix_append [use] rest)
      have later : ∀ first, first <+: rest → Ledger.Unchanged (session.use use).ledger
          ((session.use use).after first).ledger set.id :=
        fun first started =>
          here.symm.trans (kept (use :: first) (List.cons_prefix_cons.mpr ⟨rfl, started⟩))
      have spared := (ih (sound.use allowed.1) allowed.2 (here.1.trans stored)).mp later
      intro other member
      rcases List.mem_cons.mp member with rfl | among
      · exact step.mp here
      · exact (spares_iff_of_unchanged here).mp (spared other among)
    · intro spared
      have here := step.mpr (spared use List.mem_cons_self)
      have later := (ih (sound.use allowed.1) allowed.2 (here.1.trans stored)).mpr
        fun other among =>
          (spares_iff_of_unchanged here).mpr (spared other (List.mem_cons_of_mem _ among))
      intro first started
      cases first with
      | nil => exact ⟨rfl, rfl⟩
      | cons head tail =>
        obtain ⟨rfl, more⟩ := List.cons_prefix_cons.mp started
        exact here.trans (later tail more)

/-- In every session of the store, a frozen set stays as it is exactly as long as it is
spared: it is not frozen again with another outcome, and no row under a new name is added
through a handle from before the freeze. -/
theorem frozen_unchanged_iff {before : List Use} (allowed : start.Allows (before ++ uses))
    (stored : Keyed.get? (start.after before).ledger.sets set.id = some set)
    (frozen : set.writable = false) :
    (∀ first, first <+: uses →
        Ledger.Unchanged (start.after before).ledger (start.after (before ++ first)).ledger
          set.id) ↔
      ∀ use ∈ uses, Spares (start.after before).ledger set use := by
  obtain ⟨reached, continued⟩ := allows_append_iff.mp allowed
  simp only [after_append]
  exact unchanged_after_iff (sound_start.after reached) continued stored frozen

/-- A set as it is held before and after its deploy attempt. -/
def attempt : VariableSet := .fresh ⟨"set-1"⟩ "orders"

def deployed : VariableSet := attempt.frozen true

/-- An attempt with one variable that is over, and what others may do then: add the
variable through the old handle once more, start the next attempt, and freeze the set
with the same outcome. -/
def finishedAttempt : List Use :=
  [.create attempt.id "orders", .add attempt "/d1/orders/pw" "1", .freeze attempt true]

def sparingUses : List Use :=
  [.add attempt "/d1/orders/pw" "2", .create ⟨"set-2"⟩ "orders", .freeze deployed true]

theorem frozen_unchanged_iff_sparingUses :
    (start.Allows (finishedAttempt ++ sparingUses) ∧
      Keyed.get? (start.after finishedAttempt).ledger.sets deployed.id = some deployed) ∧
      ∀ first, first <+: sparingUses →
        Ledger.Unchanged (start.after finishedAttempt).ledger
          (start.after (finishedAttempt ++ first)).ledger deployed.id := by
  have allowed : start.Allows (finishedAttempt ++ sparingUses) := by decide
  have stored : Keyed.get? (start.after finishedAttempt).ledger.sets deployed.id =
      some deployed := by decide
  have spared : ∀ use ∈ sparingUses, Spares (start.after finishedAttempt).ledger deployed use := by
    decide
  exact ⟨⟨allowed, stored⟩, (frozen_unchanged_iff allowed stored rfl).mpr spared⟩

/-- A frozen set does not stay as it is in every session: a row is added to it through the
handle from before the freeze. -/
theorem frozen_changed :
    ¬ ∀ (before uses : List Use) (set : VariableSet), start.Allows (before ++ uses) →
      Keyed.get? (start.after before).ledger.sets set.id = some set → set.writable = false →
      Ledger.Unchanged (start.after before).ledger (start.after (before ++ uses)).ledger
        set.id := by
  intro immutable
  have allowed : start.Allows
      ([.create attempt.id "orders", .freeze attempt true] ++
        [.add attempt "/d1/orders/pw" "1"]) := by decide
  have rows := (immutable _ _ deployed allowed (by decide) rfl).2
  exact absurd rows (by decide)

end Session

end ManifestVariables
