import ManifestVariables.Proofs.Ledger.Refinement
import ManifestVariables.Proofs.Ledger.Session

/-!
# The version of an earlier deploy

`Store.previousId` goes back through the successful deploys of a deployment to the latest
one that has a name (`Store.run_previousId`). `Ledger.Deployed` says that some successful
deploy has a version of a name, and `Ledger.Steady` that all of them have the same one.
Starting a deploy attempt keeps this as it is (`Ledger.Steady.create`), and so does ending
one that has, if successful, no other version (`Ledger.Steady.freeze`).
-/

namespace ManifestVariables

open Ledger (Later respond)

namespace Ledger

variable {ledger later : Ledger} {set : VariableSet} {deployment name : String}
  {id version : VariableId}

/-- The version of a name that the latest successful deploy before a set has. -/
def previousId? (ledger : Ledger) (set : VariableSet) (name : String) : Option VariableId :=
  (Store.successfulBefore set (ledger.setsOf set.deployment)).findSome? fun previous =>
    ledger.idOf? previous.id name

end Ledger

namespace Store

theorem run_firstHeld (name : String) (sets : List VariableSet) (ledger : Ledger) :
    (firstHeld name sets).run respond ledger =
      (.ok (sets.findSome? fun set => ledger.idOf? set.id name), ledger) := by
  induction sets with
  | nil => rfl
  | cons set rest ih =>
    rw [List.findSome?_cons]
    simp only [firstHeld, query, Program.run, respond]
    cases ledger.idOf? set.id name with
    | some id => rfl
    | none => exact ih

theorem run_previousId (name : String) (set : VariableSet) (ledger : Ledger) :
    (previousId name set).run respond ledger = (.ok (ledger.previousId? set name), ledger) :=
  run_firstHeld name _ ledger

end Store

namespace Ledger

variable {ledger later : Ledger} {set : VariableSet} {deployment name : String}
  {id : SetId} {version other : VariableId}

/-- What queries make of a ledger is what they make of it one after the other. -/
theorem Later.exists_after (passed : Later ledger later) :
    ∃ queries, later = ledger.after queries := by
  induction passed with
  | refl ledger => exact ⟨[], rfl⟩
  | query query _ ih =>
    obtain ⟨queries, rfl⟩ := ih
    exact ⟨query :: queries, rfl⟩

section Started

variable (started : Later .empty ledger)

include started

theorem mem_setsOf_iff :
    set ∈ ledger.setsOf deployment ↔
      Keyed.get? ledger.sets set.id = some set ∧ set.deployment = deployment := by
  obtain ⟨queries, rfl⟩ := started.exists_after
  rw [mem_setsOf_after_iff, (kept_after queries).recorded]

/-- A set that is not recorded has no versions. -/
theorem idOf?_of_unrecorded (unrecorded : Keyed.get? ledger.sets id = none) (name : String) :
    ledger.idOf? id name = none := by
  obtain ⟨queries, rfl⟩ := started.exists_after
  have unheld : Keyed.get? (Ledger.empty.after queries).rows id = none := by
    by_contra held
    obtain ⟨rows, held⟩ := Option.ne_none_iff_exists'.mp held
    have known := ((kept_after queries).rows id rows held).1
    rw [Keyed.mem_keys_iff, Keyed.contains, unrecorded] at known
    cases known
  rw [idOf?, rowsOf, unheld]
  rfl

end Started

/-- Some successful deploy of a deployment has a version of a name. -/
def Deployed (ledger : Ledger) (deployment name : String) (version : VariableId) : Prop :=
  ∃ set, Keyed.get? ledger.sets set.id = some set ∧ set.deployment = deployment ∧
    set.deployedSuccessfully = true ∧ ledger.idOf? set.id name = some version

/-- All successful deploys of a deployment that have a name have the same version of it. -/
structure Steady (deployment name : String) (ledger : Ledger) : Prop where
  started : Later .empty ledger
  /-- A deploy attempt that was successful is over. -/
  ended : ∀ set, Keyed.get? ledger.sets set.id = some set → set.deployment = deployment →
    set.deployedSuccessfully = true → set.writable = false
  agree : ∀ version other, ledger.Deployed deployment name version →
    ledger.Deployed deployment name other → version = other

theorem steady_empty : Steady deployment name .empty where
  started := .refl _
  ended := fun _ recorded => nomatch recorded
  agree := fun _ _ ⟨_, recorded, _⟩ => nomatch recorded

/-- Behind a set that is the newest one stands every successful deploy, so that the one
version that they have is found. -/
theorem Steady.previousId?_eq_some (steady : Steady set.deployment name ledger)
    (newest : (ledger.setsOf set.deployment).head? = some set)
    (unfinished : set.deployedSuccessfully = false)
    (deployed : ledger.Deployed set.deployment name version) :
    ledger.previousId? set name = some version := by
  obtain ⟨older, listed⟩ := List.head?_eq_some_iff.mp newest
  have behind : Store.successfulBefore set (ledger.setsOf set.deployment) =
      older.filter VariableSet.deployedSuccessfully := by
    simp [Store.successfulBefore, listed]
  rw [previousId?, behind]
  obtain ⟨success, recorded, own, successful, held⟩ := deployed
  have among : success ∈ older.filter VariableSet.deployedSuccessfully := by
    have member := (mem_setsOf_iff steady.started).mpr ⟨recorded, own⟩
    rw [listed] at member
    rcases List.mem_cons.mp member with rfl | member
    · cases unfinished.symm.trans successful
    · exact List.mem_filter.mpr ⟨member, successful⟩
  cases found : (older.filter VariableSet.deployedSuccessfully).findSome? fun previous =>
      ledger.idOf? previous.id name with
  | none => exact nomatch held.symm.trans (List.findSome?_eq_none_iff.mp found success among)
  | some other =>
    obtain ⟨earlier, member, holds⟩ := List.exists_of_findSome?_eq_some found
    obtain ⟨member, finished⟩ := List.mem_filter.mp member
    have known := (mem_setsOf_iff steady.started).mp (listed ▸ List.mem_cons_of_mem set member)
    rw [steady.agree other version ⟨earlier, known.1, known.2, finished, holds⟩
      ⟨success, recorded, own, successful, held⟩]

/-- What happens to other sets than those of successful deploys does not matter. -/
theorem deployed_congr (sets : later.sets = ledger.sets)
    (rows : ∀ set, Keyed.get? ledger.sets set.id = some set → set.deployedSuccessfully = true →
      later.idOf? set.id name = ledger.idOf? set.id name) :
    later.Deployed deployment name version ↔ ledger.Deployed deployment name version := by
  unfold Deployed
  rw [sets]
  refine exists_congr fun set => and_congr_right fun recorded => and_congr_right fun _ =>
    and_congr_right fun successful => ?_
  rw [rows set recorded successful]

theorem Steady.congr (steady : Steady deployment name ledger) (passed : Later ledger later)
    (sets : later.sets = ledger.sets)
    (rows : ∀ set, Keyed.get? ledger.sets set.id = some set → set.deployedSuccessfully = true →
      later.idOf? set.id name = ledger.idOf? set.id name) : Steady deployment name later where
  started := steady.started.trans passed
  ended := by simpa only [sets] using steady.ended
  agree := by simpa only [deployed_congr sets rows] using steady.agree

theorem get?_freezing_cases {sets : List VariableSet}
    (recorded : Keyed.get? (ledger.freezing sets).sets id = some set) :
    Keyed.get? ledger.sets id = some set ∨ set.deployedSuccessfully = false := by
  induction sets generalizing ledger with
  | nil => exact .inl recorded
  | cons first rest ih =>
    rw [freezing, List.foldl_cons] at recorded
    rcases ih recorded with before | failed
    · split at before
      · rw [get?_save] at before
        split at before
        · cases before
          exact .inr rfl
        · exact .inl before
      · exact .inl before
    · exact .inr failed

/-- The ledger once a deploy attempt has started. -/
def begun (ledger : Ledger) (id : SetId) (deployment : String) : Ledger :=
  (ledger.freezing (ledger.setsOf deployment)).save (.fresh id deployment)

theorem later_begun (ledger : Ledger) (id : SetId) (deployment : String) :
    Later ledger (ledger.begun id deployment) := by
  have ran := later_run (Store.createWritable id deployment) ledger
  rwa [Store.run_createWritable] at ran

/-- Starting a deploy attempt makes no difference to the rows. -/
theorem idOf?_begun (ledger : Ledger) (id : SetId) (deployment : String) (set : SetId)
    (name : String) : (ledger.begun id deployment).idOf? set name = ledger.idOf? set name := by
  unfold idOf?
  rw [← rowsOf_freezing (ledger.setsOf deployment) ledger]
  rfl

/-- Starting a deploy attempt spares the sets of successful deploys, and adds none. -/
theorem Steady.get?_begun_iff (steady : Steady deployment name ledger)
    (new : Keyed.get? ledger.sets id = none) (own : set.deployment = deployment)
    (successful : set.deployedSuccessfully = true) :
    Keyed.get? (ledger.begun id deployment).sets set.id = some set ↔
      Keyed.get? ledger.sets set.id = some set := by
  rw [begun, get?_save]
  constructor
  · intro recorded
    split at recorded
    · cases recorded
      cases successful
    · rcases get?_freezing_cases recorded with before | failed
      · exact before
      · cases failed.symm.trans successful
  · intro recorded
    have different : set.id ≠ (VariableSet.fresh id deployment).id := by
      rintro same
      rw [same] at recorded
      cases new.symm.trans recorded
    rw [if_neg different, get?_freezing ledger]
    · exact recorded
    · intro listed member same
      have known := ((mem_setsOf_iff steady.started).mp member).1
      rw [same, recorded] at known
      cases known
      exact steady.ended set recorded own successful

theorem Steady.deployed_begun_iff (steady : Steady deployment name ledger)
    (new : Keyed.get? ledger.sets id = none) :
    (ledger.begun id deployment).Deployed deployment name version ↔
      ledger.Deployed deployment name version := by
  unfold Deployed
  refine exists_congr fun set => ?_
  rw [idOf?_begun]
  constructor
  · rintro ⟨recorded, own, successful, held⟩
    exact ⟨(steady.get?_begun_iff new own successful).mp recorded, own, successful, held⟩
  · rintro ⟨recorded, own, successful, held⟩
    exact ⟨(steady.get?_begun_iff new own successful).mpr recorded, own, successful, held⟩

theorem Steady.create (steady : Steady deployment name ledger)
    (new : Keyed.get? ledger.sets id = none) :
    Steady deployment name (ledger.begun id deployment) where
  started := steady.started.trans (later_begun ledger id deployment)
  ended := fun set recorded own successful =>
    steady.ended set ((steady.get?_begun_iff new own successful).mp recorded) own successful
  agree := by simpa only [steady.deployed_begun_iff new] using steady.agree

/-- A set that is saved under a new identity is the newest one. -/
theorem head?_setsOf_begun (started : Later .empty ledger)
    (new : Keyed.get? ledger.sets id = none) :
    ((ledger.begun id deployment).setsOf deployment).head? = some (.fresh id deployment) := by
  have still : Keyed.get? (ledger.freezing (ledger.setsOf deployment)).sets id = none := by
    rw [get?_freezing ledger, new]
    rintro listed member rfl
    cases new.symm.trans ((mem_setsOf_iff started).mp member).1
  have unsaved : Keyed.contains (ledger.freezing (ledger.setsOf deployment)).sets
      (VariableSet.fresh id deployment).id = false := by
    rw [Keyed.contains, VariableSet.fresh, still]
    rfl
  rw [begun, setsOf, save, unsaved]
  simp [VariableSet.fresh]

/-- Ending a deploy attempt adds its set to the successful ones if it was successful. -/
theorem deployed_save_frozen_iff {deployedSuccessfully : Bool} (own : set.deployment = deployment)
    (recorded : Keyed.get? ledger.sets set.id = some set)
    (unfinished : set.deployedSuccessfully = false) :
    (ledger.save (set.frozen deployedSuccessfully)).Deployed deployment name version ↔
      ledger.Deployed deployment name version ∨
        deployedSuccessfully = true ∧ ledger.idOf? set.id name = some version := by
  unfold Deployed
  constructor
  · rintro ⟨other, known, belongs, successful, held⟩
    rw [get?_save] at known
    split at known
    next same =>
      cases known
      exact .inr ⟨successful, held⟩
    next => exact .inl ⟨other, known, belongs, successful, held⟩
  · rintro (⟨other, known, belongs, successful, held⟩ | ⟨rfl, held⟩)
    · refine ⟨other, ?_, belongs, successful, held⟩
      rw [get?_save, if_neg]
      · exact known
      · intro same
        change other.id = set.id at same
        rw [same, recorded] at known
        cases known
        cases unfinished.symm.trans successful
    · refine ⟨set.frozen true, ?_, own, rfl, held⟩
      rw [get?_save, if_pos rfl]

theorem Steady.freeze {deployedSuccessfully : Bool} (steady : Steady deployment name ledger)
    (own : set.deployment = deployment) (recorded : Keyed.get? ledger.sets set.id = some set)
    (unfinished : set.deployedSuccessfully = false)
    (consistent : ∀ version other, ledger.idOf? set.id name = some version →
      ledger.Deployed deployment name other → version = other) :
    Steady deployment name (ledger.save (set.frozen deployedSuccessfully)) where
  started := steady.started.trans (.query (.saveSet _) (.refl _))
  ended := by
    intro other known belongs successful
    rw [get?_save] at known
    split at known
    · cases known
      rfl
    · exact steady.ended other known belongs successful
  agree := by
    intro version other here there
    rw [deployed_save_frozen_iff own recorded unfinished] at here there
    rcases here with here | ⟨_, held⟩
    · rcases there with there | ⟨_, held⟩
      · exact steady.agree version other here there
      · exact (consistent other version held here).symm
    · rcases there with there | ⟨_, also⟩
      · exact consistent version other held there
      · exact Option.some.inj (held.symm.trans also)

end Ledger

end ManifestVariables
