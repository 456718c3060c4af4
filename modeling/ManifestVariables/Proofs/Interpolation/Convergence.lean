import ManifestVariables.Proofs.Interpolation.PinnedFetch
import ManifestVariables.Proofs.Program.Pool

/-!
# Concurrent fetches converge

Any number of workers may fetch a name through the same set at once. Whatever the
order of their exchanges, and whatever else is asked of the ledger meanwhile, those
that get a value get the same (`Interpolation.fetchPinned_converges`): each of them
leaves with the value of the version that the set has in the end, and the set never
has more than one version of a name.
-/

namespace ManifestVariables.Interpolation

open Program Engine
open Ledger (Later)

variable {ι : Type} [DecidableEq ι] {faulty : Prop} {set : SetId} {name : String}
  {handle : ι → VariableSet}
  {start between final : Pool Needs Ledger ι (Except FetchFailure Json)}
  {history later : List (ι × Exchange Needs)} {worker : ι} {value : Json}

/-- Turns of workers that ask the ledger, others asking it as well. -/
abbrev Turns (faulty : Prop) (first : Pool Needs Ledger ι (Except FetchFailure Json)) :
    List (ι × Exchange Needs) → Pool Needs Ledger ι (Except FetchFailure Json) → Prop :=
  Pool.Steps (Answers faulty) Later first

theorem Turns.served (turns : Turns faulty start history final) (worker : ι) :
    Served faulty start.state (Pool.own worker history) final.state :=
  turns.serves worker Answers.later

/-- A worker that has its value has it from the version that the set has. -/
theorem exists_version_of_done (fetching : ∀ i, start.worker i = fetchPinned (handle i) name)
    (sameSet : ∀ i, (handle i).id = set) (turns : Turns faulty start history final)
    (finished : final.worker worker = .done (.ok value)) :
    ∃ id, final.state.idOf? set name = some id ∧ Reported (history.map Prod.snd) id value := by
  have ended := turns.reaches worker
  rw [fetching, finished] at ended
  obtain ⟨id, held, reported⟩ :=
    (ends_fetchPinned_iff.mp ended).exists_recorded (Turns.served turns worker)
  rw [sameSet] at held
  exact ⟨id, held, reported.mono (Pool.own_subset worker history)⟩

/-- Once a worker has its value, the set has the version that this is the value of, and
whoever gets a value then or later gets the same. -/
theorem fetchPinned_converges (fetching : ∀ i, start.worker i = fetchPinned (handle i) name)
    (sameSet : ∀ i, (handle i).id = set) (turns : Turns faulty start history between)
    (finished : between.worker worker = .done (.ok value))
    (followed : Turns faulty between later final)
    (consistent : ∀ id first second, Reported ((history ++ later).map Prod.snd) id first →
      Reported ((history ++ later).map Prod.snd) id second → first = second) :
    ∃ id, between.state.idOf? set name = some id ∧ final.state.idOf? set name = some id ∧
      Reported (history.map Prod.snd) id value ∧
      ∀ i other, final.worker i = .done (.ok other) → other = value := by
  obtain ⟨id, held, reported⟩ := exists_version_of_done fetching sameSet turns finished
  have still := (Served.later (Turns.served followed worker)).idOf?_eq_some held
  refine ⟨id, held, still, reported, ?_⟩
  intro i other done
  obtain ⟨otherId, otherHeld, otherReported⟩ :=
    exists_version_of_done fetching sameSet (turns.append followed) done
  obtain rfl : otherId = id := Option.some.inj (otherHeld.symm.trans still)
  refine consistent otherId other value otherReported (reported.mono ?_)
  rw [List.map_append]
  exact List.subset_append_left _ _

/-- Two workers that find no version, of which the slower one gets a newer version from
the config server and comes too late to record it. -/
def raceHistory : List (Bool × Exchange Needs) :=
  [(true, asked (.findId ⟨"set-1"⟩ "/d/o/pw") (.ok none)),
    (false, asked (.findId ⟨"set-1"⟩ "/d/o/pw") (.ok none)),
    (true, called (.get "/d/o/pw") latestOutcome),
    (false, called (.get "/d/o/pw") newerOutcome),
    (true, asked (.insert ⟨⟨"set-1"⟩, "/d/o/pw", "1", none⟩) (.ok ())),
    (false, asked (.insert ⟨⟨"set-1"⟩, "/d/o/pw", "2", none⟩)
      (recordedLedger.respond (.insert ⟨⟨"set-1"⟩, "/d/o/pw", "2", none⟩)).1),
    (false, asked (.findId ⟨"set-1"⟩ "/d/o/pw") (.ok (some "1"))),
    (false, called (.getById "1") versionOutcome)]

theorem turns_raceHistory :
    Turns False ⟨sampleLedger, fun _ => fetchPinned sampleSet "/d/o/pw"⟩ raceHistory
      ⟨recordedLedger, fun _ => .done (.ok (.str "old"))⟩ := by
  refine Pool.Steps.of_serves ?_ ?_
  · refine .answered (.query rfl) (.answered (.query rfl) (.answered (.call _ _ _)
      (.answered (.call _ _ _) (.answered (.query rfl) ?_))))
    exact .answered (.query rfl) (.answered (.query rfl) (.answered (.call _ _ _) (.refl _)))
  · intro i
    refine ends_fetchPinned_iff.mpr ?_
    cases i with
    | true => exact .recorded rfl readByName_latestOutcome (.added rfl)
    | false =>
      have different : ("1" : VariableId) ≠ "2" := by decide
      rw [← readVersion_versionOutcome]
      exact .overtaken rfl readByName_newerOutcome (.held rfl) different

theorem reported_raceHistory {id : VariableId}
    (reported : Reported (raceHistory.map Prod.snd) id value) :
    value = if id = "1" then .str "old" else .str "new" := by
  obtain ⟨exchange, member, reports⟩ := reported
  simp only [raceHistory, List.map_cons, List.map_nil, List.mem_cons, List.not_mem_nil,
    or_false] at member
  rcases member with rfl | rfl | rfl | rfl | rfl | rfl | rfl | rfl
  · cases reports
  · cases reports
  · cases reports with
    | latest read =>
      rw [readByName_latestOutcome] at read
      cases read
      rfl
  · cases reports with
    | latest read =>
      rw [readByName_newerOutcome] at read
      cases read
      rfl
  · cases reports
  · cases reports
  · cases reports
  · have asked : id = "1" := by
      cases reports
      rfl
    subst asked
    have read : readVersion "/d/o/pw" "1" versionOutcome = .ok value :=
      readVersion_iff_reports.mpr reports
    rw [readVersion_versionOutcome] at read
    cases read
    rfl

theorem fetchPinned_converges_raceHistory :
    Turns False ⟨sampleLedger, fun _ => fetchPinned sampleSet "/d/o/pw"⟩ raceHistory
        ⟨recordedLedger, fun _ => .done (.ok (.str "old"))⟩ ∧
      ∃ id, recordedLedger.idOf? ⟨"set-1"⟩ "/d/o/pw" = some id ∧
        Reported (raceHistory.map Prod.snd) id (.str "old") := by
  have finished : (⟨recordedLedger, fun _ => .done (.ok (.str "old"))⟩ :
      Pool Needs Ledger Bool (Except FetchFailure Json)).worker true =
        .done (.ok (.str "old")) := rfl
  have consistent : ∀ id first second,
      Reported ((raceHistory ++ []).map Prod.snd) id first →
      Reported ((raceHistory ++ []).map Prod.snd) id second → first = second := by
    intro id first second reported again
    rw [List.append_nil] at reported again
    exact (reported_raceHistory reported).trans (reported_raceHistory again).symm
  obtain ⟨id, held, _, reported, _⟩ := fetchPinned_converges (fun _ => rfl) (fun _ => rfl)
    turns_raceHistory finished (.refl _) consistent
  exact ⟨turns_raceHistory, id, held, reported⟩

end ManifestVariables.Interpolation
