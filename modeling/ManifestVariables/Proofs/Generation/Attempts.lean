import ManifestVariables.Proofs.Generation.KeptVersion

/-!
# Deploy attempts one after the other

A deployment goes from one deploy attempt to the next. An attempt creates its set, generates
variables into it any number of times, and is then over, successfully or not, or is given up.
Where a variable is only to change with the stemcell and the stemcell stays the same, the
version of it that is deployed is the one that every later attempt has
(`Generation.attempts_keep_version`).

An attempt preserves that all successful deploys which have the name have the same version
of it (`Generation.Attempting.steady`): where there is such a version the attempt keeps it,
and where there is none the attempt may be the first to deploy one.
-/

namespace ManifestVariables.Generation

open Program Engine
open Ledger (Later Steady respond)

/-- A run of the generator during a deploy attempt. -/
structure Round where
  context : GenerationContext
  flags : GenerationFlags
  declarations : List Declaration
  transcript : List (Exchange Needs)
  result : Except GenerationError (List GeneratedVariable)

/-- A variable of the deployment is only to change with the stemcell, which is the same. -/
structure Round.Fixes (round : Round) (deployment name : String) : Prop where
  same : round.flags.stemcellChanged = false
  modes : ∀ declaration ∈ round.declarations,
    nameOf round.context deployment declaration = name →
      declaration.updateMode = some .onStemcellChange

/-- Runs of the generator for a deployment, one after the other and alone with the ledger. -/
inductive Rounds (deployment : String) : Ledger → List Round → Ledger → Prop where
  | nil (ledger : Ledger) : Rounds deployment ledger [] ledger
  | cons {round : Round} {rest : List Round} {before between after : Ledger}
      (ended : Ends (generateAll round.context deployment round.flags round.declarations)
        round.transcript round.result)
      (alone : Alone False before round.transcript between)
      (tail : Rounds deployment between rest after) :
      Rounds deployment before (round :: rest) after

/-- A deploy attempt. -/
structure Attempt where
  /-- The identity of its set. -/
  id : SetId
  rounds : List Round
  /-- Whether it was successful; nothing where it was given up. -/
  outcome : Option Bool

/-- All rounds of an attempt are such that the variable keeps its version. -/
def Attempt.Fixes (attempt : Attempt) (deployment name : String) : Prop :=
  ∀ round ∈ attempt.rounds, round.Fixes deployment name

/-- A deploy attempt creates its set and generates variables into it. -/
structure Working (deployment : String) (before : Ledger) (id : SetId) (rounds : List Round)
    (set : VariableSet) (after : Ledger) : Prop where
  new : Keyed.get? before.sets id = none
  generates : ∃ created,
    (Store.createWritable id deployment).run respond before = (.ok set, created) ∧
      Rounds deployment created rounds after

/-- A deploy attempt from its beginning to its end. -/
inductive Attempting (deployment : String) (before : Ledger) : Attempt → Ledger → Prop where
  | abandoned {id : SetId} {rounds : List Round} {set : VariableSet} {after : Ledger}
      (working : Working deployment before id rounds set after) :
      Attempting deployment before ⟨id, rounds, none⟩ after
  | ended {id : SetId} {rounds : List Round} {set frozen : VariableSet} {successful : Bool}
      {worked after : Ledger} (working : Working deployment before id rounds set worked)
      (froze : (Store.freeze set successful).run respond worked = (.ok frozen, after)) :
      Attempting deployment before ⟨id, rounds, some successful⟩ after

/-- Deploy attempts of a deployment, one after the other. -/
inductive Attempts (deployment : String) : Ledger → List Attempt → Ledger → Prop where
  | nil (ledger : Ledger) : Attempts deployment ledger [] ledger
  | cons {attempt : Attempt} {rest : List Attempt} {before between after : Ledger}
      (here : Attempting deployment before attempt between)
      (tail : Attempts deployment between rest after) :
      Attempts deployment before (attempt :: rest) after

variable {deployment name : String} {version : VariableId} {id : SetId} {set : VariableSet}
  {rounds : List Round} {attempt : Attempt} {attempts : List Attempt}
  {before after : Ledger}

theorem Rounds.later (went : Rounds deployment before rounds after) : Later before after := by
  induction went with
  | nil => exact .refl _
  | cons _ alone _ ih => exact (Alone.served alone).later.trans ih

/-- The rounds of an attempt leave it under way. -/
theorem Rounds.underway (went : Rounds set.deployment before rounds after)
    (underway : Underway set name before) :
    Underway set name after ∧ ∀ version, after.Deployed set.deployment name version ↔
      before.Deployed set.deployment name version := by
  induction went with
  | nil => exact ⟨underway, fun _ => .rfl⟩
  | cons ended alone _ ih =>
    obtain ⟨still, same⟩ := underway.all (ends_generateAll_iff.mp ended) alone
    obtain ⟨final, sameLater⟩ := ih still
    exact ⟨final, fun version => (sameLater version).trans (same version)⟩

/-- All rounds of an attempt keep the version that is kept. -/
theorem Rounds.keeping (went : Rounds set.deployment before rounds after)
    (keeping : Keeping set name version before)
    (fixes : ∀ round ∈ rounds, round.Fixes set.deployment name) :
    (∀ round ∈ rounds, Keeps round.context set round.flags name version round.declarations
      round.transcript round.result after) ∧ Keeping set name version after := by
  induction went with
  | nil => exact ⟨List.forall_mem_nil _, keeping⟩
  | cons ended alone tail ih =>
    obtain ⟨fixed, fixedLater⟩ := List.forall_mem_cons.mp fixes
    obtain ⟨keeps, still⟩ := keeping.all (ends_generateAll_iff.mp ended) alone fixed.modes fixed.same
    obtain ⟨keepsLater, final⟩ := ih still fixedLater
    exact ⟨List.forall_mem_cons.mpr ⟨keeps.mono tail.later, keepsLater⟩, final⟩

/-- An attempt starts with a set of its own. -/
theorem Working.exists_created (working : Working deployment before id rounds set after) :
    set = .fresh id deployment ∧ Rounds deployment (before.begun id deployment) rounds after := by
  obtain ⟨created, ran, went⟩ := working.generates
  rw [Store.run_createWritable] at ran
  obtain ⟨same, rfl⟩ := Prod.mk.inj ran
  exact ⟨(Except.ok.inj same).symm, went⟩

/-- What is left of an attempt once its rounds are over: to freeze its set, or nothing. -/
theorem Attempting.exists_working (attempting : Attempting deployment before attempt after) :
    ∃ worked, Working deployment before attempt.id attempt.rounds (.fresh attempt.id deployment)
        worked ∧
      ((attempt.outcome = none ∧ after = worked) ∨
        ∃ successful, attempt.outcome = some successful ∧
          after = worked.save ((VariableSet.fresh attempt.id deployment).frozen successful)) := by
  cases attempting with
  | abandoned working =>
    obtain ⟨rfl, _⟩ := working.exists_created
    exact ⟨after, working, .inl ⟨rfl, rfl⟩⟩
  | @ended id rounds set frozen successful worked _ working froze =>
    obtain ⟨rfl, _⟩ := working.exists_created
    exact ⟨worked, working, .inr ⟨successful, rfl, (Prod.mk.inj froze).2.symm⟩⟩

theorem underway_begun (steady : Steady deployment name before)
    (new : Keyed.get? before.sets id = none) :
    Underway (.fresh id deployment) name (before.begun id deployment) :=
  ⟨steady.create new, Ledger.head?_setsOf_begun steady.started new, rfl, rfl⟩

/-- The set of an attempt has no version to begin with. -/
theorem keeping_begun (steady : Steady deployment name before)
    (new : Keyed.get? before.sets id = none) (deployed : before.Deployed deployment name version) :
    Keeping (.fresh id deployment) name version (before.begun id deployment) :=
  { underway_begun steady new with
    deployed := (steady.deployed_begun_iff new).mpr deployed
    own := by
      intro other held
      rw [VariableSet.fresh, Ledger.idOf?_begun, Ledger.idOf?_of_unrecorded steady.started new] at held
      cases held }

/-- An attempt that is not over keeps the version that is deployed. -/
theorem Working.keeping (working : Working deployment before id rounds set after)
    (steady : Steady deployment name before) (deployed : before.Deployed deployment name version)
    (fixes : ∀ round ∈ rounds, round.Fixes deployment name) :
    (∀ round ∈ rounds, Keeps round.context set round.flags name version round.declarations
      round.transcript round.result after) ∧ Keeping set name version after := by
  obtain ⟨rfl, went⟩ := working.exists_created
  exact Rounds.keeping went (keeping_begun steady working.new deployed) fixes

/-- An attempt that is not over leaves the successful deploys as they are. -/
theorem Working.underway (working : Working deployment before id rounds set after)
    (steady : Steady deployment name before) :
    Underway set name after ∧ ∀ version, after.Deployed deployment name version ↔
      before.Deployed deployment name version := by
  obtain ⟨rfl, went⟩ := working.exists_created
  obtain ⟨underway, same⟩ := Rounds.underway went (underway_begun steady working.new)
  exact ⟨underway, fun version => (same version).trans (steady.deployed_begun_iff working.new)⟩

/-- Where a version is deployed, every round of an attempt keeps it. -/
theorem Attempting.keeps (attempting : Attempting deployment before attempt after)
    (steady : Steady deployment name before) (deployed : before.Deployed deployment name version)
    (fixes : attempt.Fixes deployment name) :
    ∀ round ∈ attempt.rounds, Keeps round.context (.fresh attempt.id deployment) round.flags name
      version round.declarations round.transcript round.result after := by
  obtain ⟨worked, working, ending⟩ := attempting.exists_working
  obtain ⟨keeps, _⟩ := working.keeping steady deployed fixes
  rcases ending with ⟨_, rfl⟩ | ⟨successful, _, rfl⟩
  · exact keeps
  · exact fun round member => (keeps round member).mono (.query (.saveSet _) (.refl _))

/-- An attempt leaves all successful deploys with the same version of the name. -/
theorem Attempting.steady (attempting : Attempting deployment before attempt after)
    (steady : Steady deployment name before)
    (fixes : attempt.Fixes deployment name) :
    Steady deployment name after ∧ ∀ version, before.Deployed deployment name version →
      after.Deployed deployment name version := by
  obtain ⟨worked, working, ending⟩ := attempting.exists_working
  obtain ⟨underway, same⟩ := working.underway steady
  rcases ending with ⟨_, rfl⟩ | ⟨successful, _, rfl⟩
  · exact ⟨underway.steady, fun version => (same version).mpr⟩
  · refine ⟨Steady.freeze underway.steady rfl underway.recorded rfl ?_, fun version deployed => ?_⟩
    -- Where some version is deployed, the attempt had no other one to deploy.
    · intro version other held deployed
      have keeping := (working.keeping steady ((same other).mp deployed) fixes).2
      exact keeping.own version held
    · exact (Ledger.deployed_save_frozen_iff rfl underway.recorded rfl).mpr
        (.inl ((same version).mpr deployed))

/-- What the set of a successful attempt has is deployed. -/
theorem Attempting.deployed (attempting : Attempting deployment before attempt after)
    (successful : attempt.outcome = some true)
    (held : after.idOf? attempt.id name = some version) :
    after.Deployed deployment name version := by
  obtain ⟨worked, working, ending⟩ := attempting.exists_working
  rcases ending with ⟨none, _⟩ | ⟨_, outcome, rfl⟩
  · cases none.symm.trans successful
  · cases outcome.symm.trans successful
    refine ⟨(VariableSet.fresh attempt.id deployment).frozen true, ?_, rfl, rfl, held⟩
    rw [Ledger.get?_save, if_pos rfl]

theorem Attempts.steady (went : Attempts deployment before attempts after)
    (steady : Steady deployment name before)
    (fixes : ∀ attempt ∈ attempts, attempt.Fixes deployment name) :
    Steady deployment name after ∧ ∀ version, before.Deployed deployment name version →
      after.Deployed deployment name version := by
  induction went with
  | nil => exact ⟨steady, fun _ => id⟩
  | cons here _ ih =>
    obtain ⟨fixed, fixedLater⟩ := List.forall_mem_cons.mp fixes
    obtain ⟨still, deployed⟩ := here.steady steady fixed
    obtain ⟨final, deployedLater⟩ := ih still fixedLater
    exact ⟨final, fun version had => deployedLater version (deployed version had)⟩

/-- The version that a successful attempt has is the one that every later attempt has, as
long as the variable is only to change with the stemcell and the stemcell is the same. -/
theorem attempts_keep_version {earlier between : List Attempt} {success : Attempt}
    {started deployed reached : Ledger} (began : Attempts deployment .empty earlier started)
    (succeeded : Attempting deployment started success deployed)
    (successful : success.outcome = some true)
    (held : deployed.idOf? success.id name = some version)
    (went : Attempts deployment deployed between reached)
    (attempting : Attempting deployment reached attempt after)
    (fixes : ∀ each ∈ earlier ++ success :: (between ++ [attempt]), each.Fixes deployment name) :
    ∀ round ∈ attempt.rounds, Keeps round.context (.fresh attempt.id deployment) round.flags name
      version round.declarations round.transcript round.result after := by
  obtain ⟨fixedEarlier, fixes⟩ := List.forall_mem_append.mp fixes
  obtain ⟨fixedSuccess, fixes⟩ := List.forall_mem_cons.mp fixes
  obtain ⟨fixedBetween, fixes⟩ := List.forall_mem_append.mp fixes
  have fixed := fixes attempt List.mem_cons_self
  obtain ⟨steady, _⟩ := began.steady Ledger.steady_empty fixedEarlier
  obtain ⟨steady, _⟩ := succeeded.steady steady fixedSuccess
  obtain ⟨steady, kept⟩ := went.steady steady fixedBetween
  exact attempting.keeps steady (kept version (succeeded.deployed successful held)) fixed

/-- A variable that is only to change with the stemcell. -/
def sampleSteady : Declaration :=
  { sampleDeclaration with updateMode := some .onStemcellChange }

/-- It is generated in calm surroundings, where nothing is known of it. -/
def sampleRound (ledger : Ledger) : Round where
  context := sampleContext
  flags := sampleFlags
  declarations := [sampleSteady]
  transcript := Program.transcript World.answer
    (generateAll sampleContext "o" sampleFlags [sampleSteady]) (calm [] ledger)
  result := (Program.run World.answer
    (generateAll sampleContext "o" sampleFlags [sampleSteady]) (calm [] ledger)).1

/-- What the ledger has come to after the only round of an attempt. -/
def sampleWorked (before : Ledger) (id : SetId) : Ledger :=
  (Program.run World.answer (generateAll sampleContext "o" sampleFlags [sampleSteady])
    (calm [] (before.begun id "o"))).2.ledger

theorem working_sample (new : Keyed.get? before.sets id = none) :
    Working "o" before id [sampleRound (before.begun id "o")] (.fresh id "o")
      (sampleWorked before id) where
  new := new
  generates := ⟨_, Store.run_createWritable id "o" before,
    .cons (ends_transcript (I := Needs) World.answer _ _) 
      (alone_transcript _ (calm [] (before.begun id "o")) rfl rfl) (.nil _)⟩

theorem fixes_sample {outcome : Option Bool} (ledger : Ledger) :
    Attempt.Fixes ⟨id, [sampleRound ledger], outcome⟩ "o" name := by
  intro round member
  obtain rfl := List.mem_singleton.mp member
  refine ⟨rfl, fun declaration declared _ => ?_⟩
  obtain rfl := List.mem_singleton.mp declared
  rfl

/-- The ledger after a successful attempt. -/
def sampleDeployed : Ledger :=
  (sampleWorked .empty ⟨"set-1"⟩).save ((VariableSet.fresh ⟨"set-1"⟩ "o").frozen true)

/-- The ledger after one more attempt, which was given up. -/
def sampleReached : Ledger :=
  sampleWorked sampleDeployed ⟨"set-2"⟩

/-- A third attempt keeps the version of the first one. -/
theorem attempts_keep_version_third :
    sampleDeployed.idOf? ⟨"set-1"⟩ "/d/o/pw" = some "1" ∧
      Keyed.get? sampleReached.sets ⟨"set-3"⟩ = none ∧
      (sampleRound (sampleReached.begun ⟨"set-3"⟩ "o")).result =
        .ok [⟨"/d/o/pw", "1", .onStemcellChange, false⟩] ∧
      Keeps sampleContext (.fresh ⟨"set-3"⟩ "o") sampleFlags "/d/o/pw" "1" [sampleSteady]
        (sampleRound (sampleReached.begun ⟨"set-3"⟩ "o")).transcript
        (sampleRound (sampleReached.begun ⟨"set-3"⟩ "o")).result
        (sampleWorked sampleReached ⟨"set-3"⟩) := by
  have held : sampleDeployed.idOf? ⟨"set-1"⟩ "/d/o/pw" = some "1" := by decide +kernel
  have second : Keyed.get? sampleDeployed.sets ⟨"set-2"⟩ = none := by decide +kernel
  have third : Keyed.get? sampleReached.sets ⟨"set-3"⟩ = none := by decide +kernel
  refine ⟨held, third, by decide +kernel, ?_⟩
  have succeeded : Attempting "o" .empty
      ⟨⟨"set-1"⟩, [sampleRound (Ledger.empty.begun ⟨"set-1"⟩ "o")], some true⟩ sampleDeployed :=
    .ended (working_sample rfl) rfl
  have went : Attempts "o" sampleDeployed
      [⟨⟨"set-2"⟩, [sampleRound (sampleDeployed.begun ⟨"set-2"⟩ "o")], none⟩] sampleReached :=
    .cons (.abandoned (working_sample second)) (.nil _)
  refine attempts_keep_version (.nil _) succeeded rfl held went
    (.abandoned (working_sample third)) ?_ _ List.mem_cons_self
  intro attempt member
  rcases List.mem_cons.mp member with rfl | member
  · exact fixes_sample _
  rcases List.mem_cons.mp member with rfl | member
  · exact fixes_sample _
  obtain rfl := List.mem_singleton.mp member
  exact fixes_sample _

end ManifestVariables.Generation
