import Mathlib.Data.List.Nodup
import Mathlib.Data.List.TakeWhile
import ManifestVariables.Proofs.Ledger.Previous

/-!
# The latest precedent of a set

A set has precedents for a name: the successful deploys of its deployment that were first
saved before it and have the name. `Store.previousId` walks back through a list that has the
newest set first. That it comes to the latest precedent is due to the order of this list,
which is the one of the first saves whatever was saved since (`Ledger.setsOf_after_pairwise`).
-/

namespace ManifestVariables

namespace Ledger

variable {queries : List Query} {set earlier other : VariableSet} {deployment name : String}
  {version : VariableId}

/-- A set was saved for the first time before another one was. -/
def SavedBefore (queries : List Query) (earlier later : SetId) : Prop :=
  later ∈ firstSaved queries ∧
    (firstSaved queries).idxOf earlier < (firstSaved queries).idxOf later

theorem SavedBefore.asymm {first second : SetId} (before : SavedBefore queries first second) :
    ¬ SavedBefore queries second first := by
  intro after
  have forwards := before.2
  have backwards := after.2
  omega

theorem SavedBefore.ne {first second : SetId} (before : SavedBefore queries first second) :
    first ≠ second := by
  rintro rfl
  exact before.asymm before

/-- A set is among the stored sets of its deployment, whatever else was saved of it. -/
def Listed (queries : List Query) (set : VariableSet) : Prop :=
  ∃ stored, lastSaved? queries set.id = some stored ∧ stored.deployment = set.deployment

/-- An earlier set whose version of a name another set can go back to. -/
structure Precedent (queries : List Query) (set : VariableSet) (name : String)
    (earlier : VariableSet) (version : VariableId) : Prop where
  listed : Listed queries set
  /-- The earlier set as it was saved last. -/
  stored : lastSaved? queries earlier.id = some earlier
  own : earlier.deployment = set.deployment
  successful : earlier.deployedSuccessfully = true
  before : SavedBefore queries earlier.id set.id
  holds : (empty.after queries).idOf? earlier.id name = some version

/-- The identities of sets are in the order of their first saves, each once. -/
theorem pairwise_firstSaved (queries : List Query) :
    (firstSaved queries).Pairwise (SavedBefore queries) := by
  have kept := kept_after queries
  have distinct : (firstSaved queries).Nodup := kept.order ▸ kept.order_nodup
  rw [List.pairwise_iff_getElem]
  intro i j hi hj less
  refine ⟨List.getElem_mem hj, ?_⟩
  rwa [distinct.idxOf_getElem i hi, distinct.idxOf_getElem j hj]

/-- The sets of a deployment are listed with the newest first. -/
theorem setsOf_after_pairwise (queries : List Query) (deployment : String) :
    ((empty.after queries).setsOf deployment).Pairwise fun newer older =>
      SavedBefore queries older.id newer.id := by
  have listed := setsOf_after_sublist queries deployment
  exact List.pairwise_map.mp ((List.pairwise_reverse.mpr (pairwise_firstSaved queries)).sublist listed)

/-- Behind a set in a list that has the newest first stand the sets of the list that were
saved before it. -/
theorem mem_drop_dropWhile_iff {history : List VariableSet}
    (sorted : history.Pairwise fun newer older => SavedBefore queries older.id newer.id)
    (listed : set.id ∈ history.map VariableSet.id) :
    earlier ∈ (history.dropWhile fun candidate => candidate.id ≠ set.id).drop 1 ↔
      earlier ∈ history ∧ SavedBefore queries earlier.id set.id := by
  induction history with
  | nil => cases listed
  | cons first rest ih =>
    obtain ⟨older, sorted⟩ := List.pairwise_cons.mp sorted
    by_cases here : first.id = set.id
    · rw [List.dropWhile_cons_of_neg (by simp [here]), List.drop_succ_cons, List.drop_zero]
      constructor
      · intro behind
        exact ⟨List.mem_cons_of_mem _ behind, here ▸ older earlier behind⟩
      · rintro ⟨member, before⟩
        rcases List.mem_cons.mp member with rfl | behind
        · exact absurd here before.ne
        · exact behind
    · have later : set.id ∈ rest.map VariableSet.id := by
        rcases List.mem_cons.mp listed with same | later
        · exact absurd same.symm here
        · exact later
      rw [List.dropWhile_cons_of_pos (by simpa using here), ih sorted later]
      refine and_congr_left fun before => ⟨List.mem_cons_of_mem _, fun member => ?_⟩
      rcases List.mem_cons.mp member with rfl | behind
      · -- The set stands behind the first one, so that one is the newer.
        obtain ⟨stored, among, same⟩ := List.mem_map.mp later
        exact absurd before (same ▸ older stored among).asymm
      · exact behind

theorem listed_iff :
    Listed queries set ↔
      set.id ∈ ((empty.after queries).setsOf set.deployment).map VariableSet.id := by
  simp only [Listed, List.mem_map, mem_setsOf_after_iff]
  constructor
  · rintro ⟨stored, saved, own⟩
    have same := id_of_lastSaved? saved
    exact ⟨stored, ⟨same ▸ saved, own⟩, same⟩
  · rintro ⟨stored, ⟨saved, own⟩, same⟩
    exact ⟨stored, same ▸ saved, own⟩

/-- The sets that are searched are those that were deployed successfully before. -/
theorem mem_successfulBefore_iff :
    earlier ∈ Store.successfulBefore set ((empty.after queries).setsOf set.deployment) ↔
      Listed queries set ∧ lastSaved? queries earlier.id = some earlier ∧
        earlier.deployment = set.deployment ∧ earlier.deployedSuccessfully = true ∧
        SavedBefore queries earlier.id set.id := by
  rw [Store.successfulBefore, List.mem_filter]
  by_cases listed : Listed queries set
  · rw [mem_drop_dropWhile_iff (setsOf_after_pairwise queries _) (listed_iff.mp listed),
      mem_setsOf_after_iff]
    constructor
    · rintro ⟨⟨⟨stored, own⟩, before⟩, successful⟩
      exact ⟨listed, stored, own, successful, before⟩
    · rintro ⟨_, stored, own, successful, before⟩
      exact ⟨⟨⟨stored, own⟩, before⟩, successful⟩
  · have skipped : ((empty.after queries).setsOf set.deployment).dropWhile
        (fun candidate => candidate.id ≠ set.id) = [] := by
      rw [List.dropWhile_eq_nil_iff]
      intro candidate member
      refine decide_eq_true fun same => listed (listed_iff.mpr ?_)
      exact List.mem_map.mpr ⟨candidate, member, same⟩
    rw [skipped]
    constructor
    · rintro ⟨found, _⟩
      cases found
    · rintro ⟨known, _⟩
      exact absurd known listed

theorem precedent_iff :
    Precedent queries set name earlier version ↔
      earlier ∈ Store.successfulBefore set ((empty.after queries).setsOf set.deployment) ∧
        (empty.after queries).idOf? earlier.id name = some version := by
  rw [mem_successfulBefore_iff]
  constructor
  · rintro ⟨listed, stored, own, successful, before, holds⟩
    exact ⟨⟨listed, stored, own, successful, before⟩, holds⟩
  · rintro ⟨⟨listed, stored, own, successful, before⟩, holds⟩
    exact ⟨listed, stored, own, successful, before, holds⟩

/-- The search meets the latest precedent first. -/
theorem previousId?_eq_some_iff :
    (empty.after queries).previousId? set name = some version ↔
      ∃ earlier, Precedent queries set name earlier version ∧
        ∀ other found, Precedent queries set name other found →
          other = earlier ∨ SavedBefore queries other.id earlier.id := by
  have sorted : (Store.successfulBefore set
      ((empty.after queries).setsOf set.deployment)).Pairwise
        fun newer older => SavedBefore queries older.id newer.id := by
    refine (setsOf_after_pairwise queries set.deployment).sublist ?_
    exact List.filter_sublist.trans
      ((List.drop_sublist _ _).trans (List.dropWhile_sublist _))
  simp only [precedent_iff]
  rw [previousId?, List.findSome?_eq_some_iff]
  constructor
  · rintro ⟨newer, earlier, older, split, holds, lacking⟩
    rw [split] at sorted ⊢
    obtain ⟨_, sorted, _⟩ := List.pairwise_append.mp sorted
    refine ⟨earlier, ⟨by simp, holds⟩, ?_⟩
    rintro other found ⟨member, held⟩
    rcases List.mem_append.mp member with among | among
    · cases (lacking other among).symm.trans held
    · rcases List.mem_cons.mp among with rfl | behind
      · exact .inl rfl
      · exact .inr ((List.pairwise_cons.mp sorted).1 other behind)
  · rintro ⟨earlier, ⟨member, holds⟩, latest⟩
    obtain ⟨newer, older, split⟩ := List.append_of_mem member
    refine ⟨newer, earlier, older, split, holds, fun other among => ?_⟩
    rw [split] at sorted latest
    obtain ⟨_, _, apart⟩ := List.pairwise_append.mp sorted
    have before := apart other among earlier List.mem_cons_self
    cases held : (empty.after queries).idOf? other.id name with
    | none => rfl
    | some found =>
      rcases latest other found ⟨List.mem_append_left _ among, held⟩ with rfl | after
      · exact absurd before before.asymm
      · exact absurd after before.asymm

end Ledger

namespace Store

open Ledger

/-- Whatever was asked of an empty ledger, the version that is gone back to is the one of the
latest precedent, which is an older set than the given one, and there is none just where there
is no precedent; so it is where the set is not among those of its deployment. The ledger is
left as it is. -/
theorem previousId_exact (queries : List Query) (name : String) (set : VariableSet) :
    ∃ found, (previousId name set).run respond (Ledger.empty.after queries) =
        (.ok found, Ledger.empty.after queries) ∧
      (∀ version, found = some version ↔
        ∃ earlier, Precedent queries set name earlier version ∧
          ∀ other held, Precedent queries set name other held →
            other = earlier ∨ SavedBefore queries other.id earlier.id) ∧
      (found = none ↔ ∀ earlier version, ¬ Precedent queries set name earlier version) ∧
      (¬ Listed queries set → found = none) ∧
      ∀ earlier version, Precedent queries set name earlier version →
        earlier.id ≠ set.id ∧ ¬ SavedBefore queries set.id earlier.id := by
  have none_iff : (Ledger.empty.after queries).previousId? set name = none ↔
      ∀ earlier version, ¬ Precedent queries set name earlier version := by
    simp only [precedent_iff, previousId?, List.findSome?_eq_none_iff, not_and]
    refine forall_congr' fun earlier => ⟨fun lacking version member held => ?_, ?_⟩
    · cases (lacking member).symm.trans held
    · intro lacking member
      exact Option.eq_none_iff_forall_ne_some.mpr fun version => lacking version member
  refine ⟨_, run_previousId name set _, fun _ => previousId?_eq_some_iff, none_iff, ?_, ?_⟩
  · intro unlisted
    exact none_iff.mpr fun earlier version precedent => unlisted precedent.listed
  · intro earlier version precedent
    exact ⟨precedent.before.ne, precedent.before.asymm⟩

end Store

end ManifestVariables
