import ManifestVariables.Proofs.Interpolation.Stability
import ManifestVariables.Proofs.Resolution.Fetches

/-!
# Fresh names are resolved alike with and without a set

Through a writable set that has none of a manifest's variables yet, each variable is
given its latest version, which is what it is given without a set. The set only makes
the difference that the version is recorded. `Interpolation.pinned_eq_latest` says that
the two ways come to the same result and make the same calls. It rests on every variable
being fetched once: what one fetch records is not looked up by another.
-/

namespace ManifestVariables.Interpolation

open Program Engine Resolution

variable {director name : String} {tree : Json} {set : VariableSet} {options : InterpolationOptions}
  {world other : World}

/-- The value of the latest version, from the outcome of its lookup. -/
def readLatest (name : String) (outcome : Outcome) : Except FetchFailure Json :=
  ((Client.readByName name outcome).mapError FetchFailure.ofServer).map Variable.value

theorem fetchLatest_eq (name : String) :
    (fetchLatest name : Program Needs (Except FetchFailure Json)) =
      .ask (.call (.get name) : Need) fun outcome => .done (readLatest name outcome) := by
  refine congrArg (Program.ask (I := Needs) (.call (.get name) : Need)) (funext fun outcome => ?_)
  simp only [readLatest, Program.translate, Program.andThen]
  cases Client.readByName name outcome <;> rfl

/-- A world in which a set is recorded and lacks some names, and nobody else comes to the
ledger; and one with the same config server. -/
structure Fresh (set : VariableSet) (names : List String) (world other : World) : Prop where
  server : SameServer world other
  faultless : world.faults = []
  alone : world.rivals = []
  recorded : Keyed.contains world.ledger.sets set.id = true
  distinct : names.Nodup
  lacking : ∀ name ∈ names, world.ledger.idOf? set.id name = none

/-- Through a writable set that lacks a name, the value is read from the outcome of asking
for the latest version, which is recorded where there is one. -/
theorem run_fetchPinned_of_lacking {outcome : Outcome} {called : World}
    (writable : set.writable = true) (faultless : world.faults = []) (alone : world.rivals = [])
    (recorded : Keyed.contains world.ledger.sets set.id = true)
    (lacking : world.ledger.idOf? set.id name = none)
    (call : world.answerCall (.get name) = (outcome, called)) :
    ∃ ledger, Program.run World.answer (fetchPinned set name) world =
        (readLatest name outcome, { called with ledger }) ∧
      ledger.sets = world.ledger.sets ∧
      ∀ base, base ≠ name → ledger.idOf? set.id base = world.ledger.idOf? set.id base := by
  have find : World.answer (.ledger (.findId set.id name)) world = (.ok none, world) := by
    rcases answer_findId_cases set.id name world with ⟨found, _⟩ | ⟨_, _, due, _⟩
    · rw [found, lacking]
    · rw [faultless] at due
      cases due
  have get : World.answer (.call (.get name)) world = (outcome, called) := call
  obtain ⟨ledger, faults⟩ := answerCall_keeps (.get name) world
  have rivals := rivals_answerCall (.get name) world
  rw [call] at ledger faults rivals
  cases read : Client.readByName name outcome with
  | error failure =>
    have fetch : PinnedFetch set name _ _ := .unknown writable read
    have ran := (ends_fetchPinned_iff.mpr fetch).run_of_serves
      (.answered find (.answered get (.refl _)))
    refine ⟨world.ledger, ?_, rfl, fun _ _ => rfl⟩
    rw [ran, readLatest, read, ← ledger]
    rfl
  | ok latest =>
    obtain ⟨next, inserted⟩ : ∃ next, world.ledger.insert ⟨set.id, name, latest.id, none⟩ =
        .ok next := (Ledger.exists_insert_iff recorded).mpr lacking
    have insert := answer_insert (faults.trans faultless) (rivals.trans alone) (ledger ▸ inserted)
    have fetch : PinnedFetch set name _ _ := .recorded writable read (.added writable)
    have ran := (ends_fetchPinned_iff.mpr fetch).run_of_serves
      (.answered find (.answered get (.answered insert (.refl _))))
    refine ⟨next, ?_, Ledger.sets_insert inserted,
      fun base different => Ledger.idOf?_insert_of_ne inserted different set.id⟩
    rw [ran, readLatest, read]
    rfl

/-- A fetch through a fresh set and one without a set come to the same value by the same
calls, and leave the set fresh for other names. -/
theorem run_fetchPinned_eq_fetchLatest {later : List String} (writable : set.writable = true)
    (fresh : Fresh set (name :: later) world other) :
    (Program.run World.answer (fetchPinned set name) world).1 =
        (Program.run World.answer (fetchLatest name) other).1 ∧
      Fresh set later (Program.run World.answer (fetchPinned set name) world).2
        (Program.run World.answer (fetchLatest name) other).2 := by
  obtain ⟨lacking, others⟩ := List.forall_mem_cons.mp fresh.lacking
  obtain ⟨new, distinct⟩ := List.nodup_cons.mp fresh.distinct
  obtain ⟨same, server⟩ := fresh.server.answerCall (.get name)
  obtain ⟨_, faults⟩ := answerCall_keeps (.get name) world
  have rivals := rivals_answerCall (.get name) world
  obtain ⟨outcome, called, call⟩ : ∃ outcome called, world.answerCall (.get name) =
      (outcome, called) := ⟨_, _, rfl⟩
  rw [call] at same server faults rivals
  obtain ⟨ledger, ran, sets, kept⟩ := run_fetchPinned_of_lacking writable fresh.faultless
    fresh.alone fresh.recorded lacking call
  rw [ran, fetchLatest_eq]
  refine ⟨congrArg (readLatest name) same, ⟨server.versions, server.canned, server.calls⟩,
    faults.trans fresh.faultless, rivals.trans fresh.alone, ?_, distinct, ?_⟩
  · rw [Keyed.contains, sets]
    exact fresh.recorded
  · intro base member
    have different : base ≠ name := fun equal => new (equal ▸ member)
    rw [kept base different]
    exact others base member

/-- Through a writable set that has none of a manifest's variables, with no other writer and
no fault of the ledger, the manifest is resolved as it is without a set, for the
deployment of the set: the result is the same, and so are the calls. -/
theorem pinned_eq_latest (director : String) (tree : Json) (options : InterpolationOptions)
    (writable : set.writable = true) (recorded : Keyed.contains world.ledger.sets set.id = true)
    (faultless : world.faults = []) (alone : world.rivals = [])
    (lacking : ∀ name ∈ variablesOf tree options.ignored (Name.qualify director set.deployment),
      world.ledger.idOf? set.id name = none) :
    ((pinned director tree set { options with deployment := none }).run World.answer world).1 =
        ((latest director tree { options with deployment := some set.deployment }).run World.answer
          world).1 ∧
      ((pinned director tree set { options with deployment := none }).run World.answer
          world).2.calls =
        ((latest director tree { options with deployment := some set.deployment }).run World.answer
          world).2.calls := by
  have fresh : Fresh set (variablesOf tree options.ignored (Name.qualify director set.deployment))
      world world :=
    ⟨⟨rfl, rfl, rfl⟩, faultless, alone, recorded, nodup_variablesOf _ _ _, lacking⟩
  have step (name : String) (later : List String) (world other : World)
      (fresh : Fresh set (name :: later) world other) :=
    run_fetchPinned_eq_fetchLatest writable fresh
  have byPinned : pinned director tree set { options with deployment := none } =
      checkAbsolute tree options (resolveWith (fetchPinned set) tree options.ignored
        (Name.qualify director set.deployment)) := rfl
  have byLatest : latest director tree { options with deployment := some set.deployment } =
      checkAbsolute tree options (resolveWith fetchLatest tree options.ignored
        (Name.qualify director set.deployment)) := rfl
  rw [byPinned, byLatest]
  rcases checkAbsolute_cases tree options with goesOn | ⟨_, names, refused⟩
  · rw [goesOn, goesOn, run_resolveWith, run_resolveWith]
    obtain ⟨same, _, still⟩ :=
      AsksInOrder.run_related (I := Fetching) (asksInOrder_resolve _ _ _) step fresh
    exact ⟨same, still.server.calls.symm⟩
  · rw [refused, refused]
    exact ⟨rfl, rfl⟩

theorem pinned_eq_latest_sampleManifest :
    (sampleSet.writable = true ∧ Keyed.contains sampleLedger.sets sampleSet.id = true ∧
      ∀ name ∈ variablesOf sampleManifest [] (Name.qualify "d" sampleSet.deployment),
        sampleLedger.idOf? sampleSet.id name = none) ∧
      ((latest "d" sampleManifest
          { sampleOptions with deployment := some sampleSet.deployment }).run World.answer
        (calm sampleVersions sampleLedger)).1 =
          .ok (.obj [("password", .str "old"), ("port", .int 1)]) := by
  have writable : sampleSet.writable = true := rfl
  have recorded : Keyed.contains sampleLedger.sets sampleSet.id = true := by decide
  have lacking : ∀ name ∈ variablesOf sampleManifest [] (Name.qualify "d" sampleSet.deployment),
      sampleLedger.idOf? sampleSet.id name = none := fun _ _ => rfl
  have faultless : (calm sampleVersions sampleLedger).faults = [] := rfl
  have same : { sampleOptions with deployment := none } = sampleOptions := rfl
  obtain ⟨alike, _⟩ :=
    pinned_eq_latest "d" sampleManifest sampleOptions writable recorded faultless rfl lacking
  rw [same] at alike
  exact ⟨⟨writable, recorded, lacking⟩, alike.symm.trans run_recording.2.1⟩

end ManifestVariables.Interpolation
