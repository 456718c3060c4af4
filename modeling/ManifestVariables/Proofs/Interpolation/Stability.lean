import ManifestVariables.Proofs.Interpolation.PinnedFetch
import ManifestVariables.Proofs.Program.Questions
import ManifestVariables.Proofs.Resolution.Substitution

/-!
# Pinning is stable

A manifest that was resolved through a variable set is resolved to the same result
ever after (`Interpolation.pinned_stable`). The first resolution leaves a version for
each of its names in the set, and no query takes it away. So every fetch of a second
resolution finds a version, asks for it by its id and gets the value that was reported
for it. Two resolutions whose fetches bring the same values are the same. This goes for
all fetches that record what they bring and recall it (`Interpolation.ends_again`).
-/

namespace ManifestVariables.Interpolation

open Program Engine Resolution
open Ledger (Later)

variable {director : String} {tree : Json} {set again : VariableSet}
  {options : InterpolationOptions} {result : Json} {transcript : List (Exchange Needs)}
  {outer : List (Exchange Fetching)}

/-- A tree is resolved by running the fetch of each variable. -/
theorem run_resolveWith {σ : Type} (answer : (need : Need) → σ → need.Reply × σ)
    (fetch : String → Fetch Json) (tree : Json) (ignored : List SubtreePattern)
    (qualify : String → String) (state : σ) :
    (resolveWith fetch tree ignored qualify).run answer state =
      Program.run (I := Fetching) (fun name state => Program.run answer (fetch name) state)
        (resolve tree ignored qualify) state :=
  run_translate (I := Fetching) (J := Needs) fetch _ state

/-- Names may be relative, or none of them is. -/
def NamesPermitted (tree : Json) (options : InterpolationOptions) : Prop :=
  options.mustBeAbsolute = true → Name.requireAbsolute (Tree.rawNames tree options.ignored) = .ok ()

theorem checkAbsolute_cases (tree : Json) (options : InterpolationOptions) :
    (∀ next, checkAbsolute tree options next = next) ∨
      ¬ NamesPermitted tree options ∧
        ∃ names, ∀ next,
          checkAbsolute tree options next = .done (.error (.relativeNames names)) := by
  unfold checkAbsolute NamesPermitted
  cases options.mustBeAbsolute with
  | false => exact .inl fun _ => rfl
  | true =>
    cases Name.requireAbsolute (Tree.rawNames tree options.ignored) with
    | ok => exact .inl fun _ => rfl
    | error names => exact .inr ⟨fun permitted => (nomatch permitted rfl), names, fun _ => rfl⟩

/-- Whether names must be absolute and are is the same for every resolution. -/
theorem checkAbsolute_of_ends_ok {next : Program Needs (Except ResolutionError Json)}
    (ended : Ends (checkAbsolute tree options next) transcript (.ok result))
    (other : Program Needs (Except ResolutionError Json)) :
    checkAbsolute tree options other = other := by
  rcases checkAbsolute_cases tree options with goesOn | ⟨_, names, refused⟩
  · exact goesOn other
  · rw [refused] at ended
    exact nomatch (ends_done_iff.mp ended).2

/-- A fetch that brings a value leaves a version for its name in the set, and the value is
one that was reported for this version. -/
def Records (faulty : Prop) (set : SetId) (fetch : String → Fetch Json) : Prop :=
  ∀ {name inner value before after}, Ends (fetch name) inner (.ok value) →
    Served faulty before inner after →
    ∃ id, after.idOf? set name = some id ∧ Reported inner id value

/-- A fetch of a name that the set has asks for the version of the set and for nothing
else. -/
def Recalls (set : SetId) (fetch : String → Fetch Json) : Prop :=
  ∀ {name inner reply before after id}, Ends (fetch name) inner reply →
    Served False before inner after → before.idOf? set name = some id →
    ∃ outcome, inner = [asked (.findId set name) (.ok (some id)), called (.getById id) outcome] ∧
      reply = readVersion name id outcome

theorem records_fetchPinned {faulty : Prop} : Records faulty set.id (fetchPinned set) :=
  fun ended served => (ends_fetchPinned_iff.mp ended).exists_recorded served

theorem recalls_fetchPinned : Recalls set.id (fetchPinned set) :=
  fun ended served held => (ends_fetchPinned_iff.mp ended).of_held served held

section Again

variable {faulty : Prop} {fetch refetch : String → Fetch Json} {id : SetId}
  {ledger after resumed final : Ledger}

/-- Each fetch that brought a value has left a version for its name in the set, with
the value that was reported for it. -/
theorem exists_recorded_of_mem {name : String} {value : Json} (records : Records faulty id fetch)
    (expanded : Expands (I := Fetching) fetch outer transcript)
    (served : Served faulty ledger transcript after)
    (member : fetching name (.ok value) ∈ outer) :
    ∃ version, after.idOf? id name = some version ∧ Reported transcript version value := by
  obtain ⟨before, inner, rest, rfl, ended⟩ := expanded.exists_part member
  obtain ⟨_, _, _, part, followed⟩ := served.exists_within
  obtain ⟨version, held, reported⟩ := records ended part
  refine ⟨version, (Served.later followed).idOf?_eq_some held, reported.mono ?_⟩
  intro exchange found
  simp [found]

/-- Where the fetches of a resolution have left their versions in a set, another one whose
fetches rely on the set consists of lookups of recorded versions, and its result is the
first one. -/
theorem ends_again {ignored : List SubtreePattern} {qualify : String → String}
    {transcriptAgain : List (Exchange Needs)} {resultAgain : Except ResolutionError Json}
    (records : Records faulty id fetch) (recalls : Recalls id refetch)
    (first : Ends (resolveWith fetch tree ignored qualify) transcript (.ok result))
    (served : Served faulty ledger transcript after) (between : Later after resumed)
    (second : Ends (resolveWith refetch tree ignored qualify) transcriptAgain resultAgain)
    (servedAgain : Served False resumed transcriptAgain final)
    (lasting : ∀ version value outcome, Reported transcript version value →
      called (.getById version) outcome ∈ transcriptAgain →
      Reports (called (.getById version) outcome) version value) :
    resultAgain = .ok result ∧
      ∀ exchange ∈ transcriptAgain, ∃ name version, resumed.idOf? id name = some version ∧
        (exchange = asked (.findId id name) (.ok (some version)) ∨
          ∃ outcome, exchange = called (.getById version) outcome) := by
  obtain ⟨outer, resolved, expanded⟩ := ends_translate_iff.mp first
  obtain ⟨outerAgain, resolvedAgain, expandedAgain⟩ := ends_translate_iff.mp second
  have held {name : String} {value : Json} (member : fetching name (.ok value) ∈ outer) :
      ∃ version, resumed.idOf? id name = some version ∧ Reported transcript version value := by
    obtain ⟨version, recorded, reported⟩ := exists_recorded_of_mem records expanded served member
    exact ⟨version, between.idOf?_eq_some recorded, reported⟩
  -- Every name that is fetched again has its version by now, and so its former value.
  have agree : ∀ name reply other, ⟨name, reply⟩ ∈ outer → ⟨name, other⟩ ∈ outerAgain →
      reply = other := by
    intro name reply other member found
    obtain ⟨_, value, same⟩ := exists_value_of_ends_resolve resolved member
    cases same
    obtain ⟨version, recorded, reported⟩ := held member
    obtain ⟨before, inner, rest, rfl, ended⟩ := expandedAgain.exists_part found
    obtain ⟨_, _, passed, part, _⟩ := servedAgain.exists_within
    obtain ⟨outcome, rfl, replied⟩ :=
      recalls ended part ((Served.later passed).idOf?_eq_some recorded)
    have reports := lasting version value outcome reported (by simp)
    exact (replied.trans (readVersion_iff_reports.mpr reports)).symm
  obtain ⟨rfl, rfl⟩ := resolved.eq_of_agree resolvedAgain agree
  -- The same names are fetched, each of which the set has.
  refine ⟨rfl, ?_⟩
  intro exchange member
  obtain ⟨fetch, among, before, inner, rest, rfl, ended, within⟩ :=
    expandedAgain.exists_of_mem member
  obtain ⟨name, value, rfl⟩ := exists_value_of_ends_resolve resolved among
  obtain ⟨version, recorded, _⟩ := held among
  obtain ⟨_, _, passed, part, _⟩ := servedAgain.exists_within
  obtain ⟨outcome, rfl, _⟩ := recalls ended part ((Served.later passed).idOf?_eq_some recorded)
  refine ⟨name, version, recorded, ?_⟩
  rcases List.mem_cons.mp within with rfl | call
  · exact .inl rfl
  · exact .inr ⟨outcome, List.mem_singleton.mp call⟩

end Again

/-- The transcript of a second resolution is served by lookups of recorded versions, and
its result is the first one. -/
theorem ends_pinned_again {faulty : Prop} {ledger after resumed final : Ledger}
    {transcriptAgain : List (Exchange Needs)} {resultAgain : Except ResolutionError Json}
    (first : Ends (pinned director tree set options) transcript (.ok result))
    (served : Served faulty ledger transcript after) (between : Later after resumed)
    (sameSet : again.id = set.id) (sameDeployment : again.deployment = set.deployment)
    (second : Ends (pinned director tree again options) transcriptAgain resultAgain)
    (servedAgain : Served False resumed transcriptAgain final)
    (lasting : ∀ id value outcome, Reported transcript id value →
      called (.getById id) outcome ∈ transcriptAgain →
      Reports (called (.getById id) outcome) id value) :
    resultAgain = .ok result ∧
      ∀ exchange ∈ transcriptAgain, ∃ name id, resumed.idOf? set.id name = some id ∧
        (exchange = asked (.findId set.id name) (.ok (some id)) ∨
          ∃ outcome, exchange = called (.getById id) outcome) := by
  unfold pinned at first second
  rw [checkAbsolute_of_ends_ok first, sameDeployment] at second
  rw [checkAbsolute_of_ends_ok first] at first
  have recalls : Recalls set.id (fetchPinned again) := sameSet ▸ recalls_fetchPinned
  exact ends_again records_fetchPinned recalls first served between second servedAgain lasting

/-- A manifest that was resolved through a set is resolved through it to the same result
again, whatever was asked of the ledger and stored on the config server meanwhile, as
long as a version keeps its value. The second resolution asks for versions that the set
has, and for nothing else. -/
theorem pinned_stable {σ : Type} {answer : (need : Need) → σ → need.Reply × σ} {state later : σ}
    {faulty : Prop} {ledger after resumed final : Ledger}
    (first : ((pinned director tree set options).run answer state).1 = .ok result)
    (served : Served faulty ledger ((pinned director tree set options).transcript answer state)
      after)
    (between : Later after resumed)
    (sameSet : again.id = set.id) (sameDeployment : again.deployment = set.deployment)
    (servedAgain : Served False resumed
      ((pinned director tree again options).transcript answer later) final)
    (lasting : ∀ id value outcome,
      Reported ((pinned director tree set options).transcript answer state) id value →
      called (.getById id) outcome ∈
        (pinned director tree again options).transcript answer later →
      Reports (called (.getById id) outcome) id value) :
    ((pinned director tree again options).run answer later).1 = .ok result ∧
      ∀ exchange ∈ (pinned director tree again options).transcript answer later,
        ∃ name id, resumed.idOf? set.id name = some id ∧
          (exchange = asked (.findId set.id name) (.ok (some id)) ∨
            ∃ outcome, exchange = called (.getById id) outcome) := by
  have ended := ends_transcript (I := Needs) answer (pinned director tree set options) state
  have endedAgain := ends_transcript (I := Needs) answer (pinned director tree again options) later
  rw [first] at ended
  exact ends_pinned_again ended served between sameSet sameDeployment endedAgain servedAgain lasting

/-- A manifest with a placeholder for the name. -/
def sampleManifest : Json :=
  .obj [("password", .str "((pw))"), ("port", .int 1)]

def sampleOptions : InterpolationOptions := ⟨false, [], none⟩

/-- The transcript while the set is writable, and the one once it is frozen. -/
def recordingTranscript : List (Exchange Needs) :=
  [asked (.findId ⟨"set-1"⟩ "/d/o/pw") (.ok none), called (.get "/d/o/pw") latestOutcome,
    asked (.insert ⟨⟨"set-1"⟩, "/d/o/pw", "1", none⟩) (.ok ())]

def pinnedTranscript : List (Exchange Needs) :=
  [asked (.findId ⟨"set-1"⟩ "/d/o/pw") (.ok (some "1")), called (.getById "1") versionOutcome]

theorem ends_resolve_sampleManifest {qualify : String → String} {base : String}
    (qualified : qualify "pw" = base) (value : Json) :
    Ends (resolve sampleManifest [] qualify) [fetching base (.ok value)]
      (.ok (.obj [("password", value), ("port", .int 1)])) := by
  have parsed : parseSites (Tree.sites sampleManifest []) =
      .ok [([.key "password"], ⟨"pw", []⟩)] := eq_ok_of_toOption (by decide +kernel)
  have settled : Settling qualify [([.key "password"], ⟨"pw", []⟩)] Progress.start
      [fetching (qualify "pw") (.ok value)] (.ok _) := .fetched rfl .finished
  rw [qualified] at settled
  exact ends_resolve_ok_iff.mpr ⟨_, _, parsed, settled, rfl, rfl⟩

theorem ends_pinned_sampleManifest (own : set.deployment = "o") {value : Json}
    (fetch : PinnedFetch set "/d/o/pw" transcript (.ok value)) :
    Ends (pinned "d" sampleManifest set sampleOptions) transcript
      (.ok (.obj [("password", value), ("port", .int 1)])) := by
  have qualified : Name.qualify "d" set.deployment "pw" = "/d/o/pw" := by
    rw [own]
    decide +kernel
  refine ends_translate_iff.mpr ⟨_, ends_resolve_sampleManifest qualified value, ?_⟩
  rw [← List.append_nil transcript]
  exact .cons (ends_fetchPinned_iff.mpr fetch) .nil

theorem run_recording :
    (pinned "d" sampleManifest sampleSet sampleOptions).transcript World.answer
        (calm sampleVersions sampleLedger) = recordingTranscript ∧
      ((pinned "d" sampleManifest sampleSet sampleOptions).run World.answer
        (calm sampleVersions sampleLedger)).1 =
          .ok (.obj [("password", .str "old"), ("port", .int 1)]) ∧
      ((pinned "d" sampleManifest sampleSet sampleOptions).run World.answer
        (calm sampleVersions sampleLedger)).2.ledger = recordedLedger := by
  have fetch : PinnedFetch sampleSet "/d/o/pw" recordingTranscript (.ok (.str "old")) :=
    .recorded rfl readByName_latestOutcome (.added rfl)
  have given : Gives World.answer (calm sampleVersions sampleLedger) recordingTranscript :=
    ⟨rfl, rfl, rfl, trivial⟩
  obtain ⟨same, ran⟩ := (ends_pinned_sampleManifest rfl fetch).run_eq World.answer given
  rw [ran]
  exact ⟨same, rfl, rfl⟩

theorem transcript_pinned :
    (pinned "d" sampleManifest (sampleSet.frozen true) sampleOptions).transcript World.answer
      (calm newerVersions frozenLedger) = pinnedTranscript := by
  have fetch : PinnedFetch (sampleSet.frozen true) "/d/o/pw" pinnedTranscript (.ok (.str "old")) :=
    readVersion_versionOutcome ▸ .pinned
  have given : Gives World.answer (calm newerVersions frozenLedger) pinnedTranscript :=
    ⟨rfl, rfl, trivial⟩
  exact ((ends_pinned_sampleManifest rfl fetch).run_eq World.answer given).1

theorem pinned_stable_newerVersions :
    ((pinned "d" sampleManifest sampleSet sampleOptions).run World.answer
        (calm sampleVersions sampleLedger)).1 =
          .ok (.obj [("password", .str "old"), ("port", .int 1)]) ∧
      ((pinned "d" sampleManifest (sampleSet.frozen true) sampleOptions).run World.answer
        (calm newerVersions frozenLedger)).1 =
          .ok (.obj [("password", .str "old"), ("port", .int 1)]) := by
  obtain ⟨same, resolved, ledger⟩ := run_recording
  have served : Served False sampleLedger _ _ := served_transcript
    (pinned "d" sampleManifest sampleSet sampleOptions)
    (calm sampleVersions sampleLedger) (.inr rfl)
  have servedAgain : Served False frozenLedger _ _ := served_transcript
    (pinned "d" sampleManifest (sampleSet.frozen true) sampleOptions)
    (calm newerVersions frozenLedger) (.inr rfl)
  have between : Later recordedLedger frozenLedger := Ledger.later_run _ _
  have sameSet : (sampleSet.frozen true).id = sampleSet.id := rfl
  rw [ledger] at served
  refine ⟨resolved, (pinned_stable resolved served between sameSet rfl servedAgain ?_).1⟩
  intro id value outcome reported member
  rw [same] at reported
  rw [transcript_pinned] at member
  have asksForFirst : called (.getById id) outcome = called (.getById "1") versionOutcome := by
    simp only [pinnedTranscript, List.mem_cons, List.not_mem_nil, or_false] at member
    exact member.resolve_left nofun
  cases asksForFirst
  obtain ⟨exchange, among, reports⟩ := reported
  simp only [recordingTranscript, List.mem_cons, List.not_mem_nil, or_false] at among
  rcases among with rfl | rfl | rfl
  · cases reports
  · generalize "1" = id at reports
    cases reports with
    | latest read =>
      rw [readByName_latestOutcome] at read
      cases read
      exact .version readById_versionOutcome
  · cases reports

end ManifestVariables.Interpolation
