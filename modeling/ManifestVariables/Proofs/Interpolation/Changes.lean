import ManifestVariables.Proofs.ConfigServer.Shapes
import ManifestVariables.Proofs.Interpolation.Convergence
import ManifestVariables.Proofs.Interpolation.Reproduction
import ManifestVariables.Proofs.Json.Distinct

/-!
# Changed variables

`Interpolation.changed` resolves a manifest through two variable sets and compares the results.
It raises no false alarm: where the results differ, some variable of the manifest has different
versions in the two sets (`Interpolation.exists_version_of_changed`). A value is told by its
version and the result by the values, and a result is equal to itself because no object in it
repeats a key. The two resolutions may run one after the other or take turns.
-/

namespace ManifestVariables

namespace Resolution

open Program

variable {qualify : String → String} {tree result : Json} {ignored : List SubtreePattern}
  {transcript : List (Exchange Fetching)}

theorem exists_of_mem_mapM {α β : Type} {change : α → Option β} {list : List α} {results : List β}
    {result : β} (mapped : list.mapM change = some results) (member : result ∈ results) :
    ∃ element ∈ list, change element = some result := by
  induction list generalizing results with
  | nil =>
    cases mapped
    cases member
  | cons first rest ih =>
    simp only [List.mapM_cons, Option.bind_eq_bind, Option.pure_def, Option.bind_eq_some_iff,
      Option.some.injEq] at mapped
    obtain ⟨here, changed, others, later, rfl⟩ := mapped
    rcases List.mem_cons.mp member with rfl | among
    · exact ⟨first, List.mem_cons_self, changed⟩
    · obtain ⟨element, found, same⟩ := ih later among
      exact ⟨element, List.mem_cons_of_mem _ found, same⟩

/-- What a name stands for is a part of a value that was fetched. -/
theorem distinctKeys_of_part? {name : NamePath} {part : Json}
    (values : ∀ base value, fetching base (.ok value) ∈ transcript → value.DistinctKeys)
    (selected : part? (fetchedValues transcript) qualify name = some part) : part.DistinctKeys := by
  obtain ⟨whole, found, selected⟩ := Option.bind_eq_some_iff.mp selected
  have fetched := Keyed.mem_of_get? (Option.join_eq_some_iff.mp found)
  obtain ⟨⟨base, reply⟩, member, same⟩ := List.mem_map.mp fetched
  obtain rfl := eq_ok_of_toOption (Prod.mk.inj same).2
  exact (values base whole member).part selected

/-- A tree without repeated keys is resolved to such a tree if the values that were fetched for
it are of this kind. -/
theorem distinctKeys_of_ends_resolve
    (ended : Ends (resolve tree ignored qualify) transcript (.ok result))
    (distinct : tree.DistinctKeys)
    (values : ∀ base value, fetching base (.ok value) ∈ transcript → value.DistinctKeys) :
    result.DistinctKeys := by
  obtain ⟨names, progress, _, settled, clean, rfl⟩ := ends_resolve_ok_iff.mp ended
  obtain ⟨new, found, parts⟩ := settled.found_eq reported_start clean
  have remembered : part? progress.fetched qualify = part? (fetchedValues transcript) qualify := by
    funext name
    rw [part?, settled.fetched_eq]
    rfl
  have found : progress.found = new := found
  rw [remembered] at parts
  refine distinct.substitute fun entry member => ?_
  obtain ⟨site, _, same⟩ := exists_of_mem_mapM parts (found ▸ member)
  obtain ⟨part, selected, rfl⟩ := Option.map_eq_some_iff.mp same
  exact distinctKeys_of_part? values selected

end Resolution

/-- A value that the config server reports is read from a text. -/
theorem Engine.Reports.distinctKeys {exchange : Exchange Needs} {id : VariableId} {value : Json}
    (reports : Reports exchange id value) : value.DistinctKeys := by
  cases reports with
  | @latest name outcome found read =>
    cases outcome with
    | error failure => cases read
    | ok response =>
      obtain ⟨_, entry, ⟨record, rest, parsed, listed⟩, describes⟩ :=
        Client.readByName_eq_ok_iff.mp read
      have items := Json.distinctKeysInItems_iff.mp (Json.distinctKeys_of_parseRecord? parsed listed)
      exact (items (.obj entry) List.mem_cons_self).get? describes.value
  | version read =>
    obtain ⟨response, entry, version, rfl, _, parsed, entered, rfl⟩ :=
      Client.readById_eq_ok_iff.mp read
    have describes := Client.readEntry_eq_ok_iff_describes.mp entered
    exact (Json.distinctKeys_of_parse? parsed).get? describes.value

namespace Interpolation

open Program Engine Resolution
open Ledger (Later)

variable {faulty : Prop} {director name : String} {tree result before after : Json}
  {options : InterpolationOptions} {set first second : VariableSet} {start final : Ledger}
  {transcript again all : List (Exchange Needs)} {verdict : Except ResolutionError Bool}

/-- A fetch looks up its name. -/
theorem PinnedFetch.looksUp {reply : Except FetchFailure Json}
    (fetch : PinnedFetch set name transcript reply) :
    ∃ found, asked (.findId set.id name) found ∈ transcript := by
  cases fetch <;> exact ⟨_, List.mem_cons_self⟩

/-- A tree is resolved through a set while others may ask the ledger as well. -/
structure Resolved (faulty : Prop) (director : String) (tree : Json)
    (options : InterpolationOptions) (start final : Ledger) (set : VariableSet)
    (transcript : List (Exchange Needs)) (result : Json) : Prop where
  ended : Ends (pinned director tree set options) transcript (.ok result)
  served : Served faulty start transcript final

/-- Each variable is looked up, and in the end the set has a version for it whose value is the
one that was reported. -/
theorem Resolved.exists_fetches
    (resolved : Resolved faulty director tree options start final set transcript result) :
    ∃ outer, Ends (resolve tree options.ignored
        (qualifier director (some (options.deployment.getD set.deployment)))) outer (.ok result) ∧
      ∀ name value, fetching name (.ok value) ∈ outer →
        (∃ found, asked (.findId set.id name) found ∈ transcript) ∧
          ∃ id, final.idOf? set.id name = some id ∧ Reported transcript id value := by
  obtain ⟨ended, served⟩ := resolved
  unfold pinned at ended
  rw [checkAbsolute_of_ends_ok ended] at ended
  obtain ⟨outer, ended, expanded⟩ := ends_translate_iff.mp ended
  refine ⟨outer, ended, fun name value member => ⟨?_, ?_⟩⟩
  · obtain ⟨_, inner, _, rfl, fetched⟩ := expanded.exists_part member
    obtain ⟨found, among⟩ := (ends_fetchPinned_iff.mp fetched).looksUp
    exact ⟨found, by simp [among]⟩
  · exact exists_recorded_of_mem records_fetchPinned expanded served member

theorem Resolved.distinctKeys
    (resolved : Resolved faulty director tree options start final set transcript result)
    (distinct : tree.DistinctKeys) : result.DistinctKeys := by
  obtain ⟨outer, ended, fetches⟩ := resolved.exists_fetches
  refine distinctKeys_of_ends_resolve ended distinct fun name value member => ?_
  obtain ⟨_, _, _, _, _, reports⟩ := fetches name value member
  exact reports.distinctKeys

/-- Results that differ come from some variable with different versions. -/
theorem Resolved.exists_version
    (resolved : Resolved faulty director tree options start final first transcript before)
    (resolvedToo : Resolved faulty director tree options start final second again after)
    (within : transcript ⊆ all) (withinToo : again ⊆ all)
    (consistent : ∀ id value other, Reported all id value → Reported all id other → value = other)
    (sameDeployment : second.deployment = first.deployment) (different : before ≠ after) :
    ∃ name ∈ pinnedVariables director tree first options,
      (∃ found, asked (.findId first.id name) found ∈ transcript) ∧
      ∃ id other, final.idOf? first.id name = some id ∧ final.idOf? second.id name = some other ∧
        id ≠ other := by
  obtain ⟨outer, ended, fetches⟩ := resolved.exists_fetches
  obtain ⟨outerToo, endedToo, fetchesToo⟩ := resolvedToo.exists_fetches
  rw [sameDeployment] at endedToo
  by_contra none
  -- Otherwise both resolutions fetch the same values.
  have agree : ∀ name reply other, ⟨name, reply⟩ ∈ outer → ⟨name, other⟩ ∈ outerToo →
      reply = other := by
    intro name reply other member found
    obtain ⟨_, value, same⟩ := exists_value_of_ends_resolve ended member
    cases same
    obtain ⟨_, valueToo, same⟩ := exists_value_of_ends_resolve endedToo found
    cases same
    obtain ⟨looked, id, held, reported⟩ := fetches name value member
    obtain ⟨_, idToo, heldToo, reportedToo⟩ := fetchesToo name valueToo found
    have among : name ∈ pinnedVariables director tree first options := by
      rcases fetches_of_ends_resolve ended with every | ⟨_, _, _, _, failed⟩
      · rw [pinnedVariables, ← every]
        exact List.mem_map.mpr ⟨_, member, rfl⟩
      · cases failed
    obtain rfl : id = idToo := by
      by_contra unlike
      exact none ⟨name, among, looked, id, idToo, held, heldToo, unlike⟩
    rw [consistent id value valueToo (reported.mono within) (reportedToo.mono withinToo)]
  exact different (Except.ok.inj (ended.eq_of_agree endedToo agree).2)

/-- Two results are compared where both resolutions came to one. -/
theorem ends_changed_iff {previous next : Json} {compared : Bool} :
    Ends (changed director previous first next second options) transcript (.ok compared) ↔
      ∃ earlier before later after, transcript = earlier ++ later ∧
        Ends (pinned director previous first options) earlier (.ok before) ∧
        Ends (pinned director next second options) later (.ok after) ∧
        compared = !before.same after := by
  refine ends_bind_iff.trans ⟨?_, ?_⟩
  · rintro (⟨_, _, same⟩ | ⟨earlier, before, rest, rfl, ended, followed⟩)
    · cases same
    rcases ends_bind_iff.mp followed with ⟨_, _, same⟩ | ⟨later, after, rest, rfl, endedToo, done⟩
    · cases same
    obtain ⟨rfl, same⟩ := ends_done_iff.mp done
    exact ⟨earlier, before, later, after, by rw [List.append_nil], ended, endedToo,
      Except.ok.inj same⟩
  · rintro ⟨earlier, before, later, after, rfl, ended, endedToo, rfl⟩
    refine .inr ⟨earlier, before, later, rfl, ended, ?_⟩
    exact ends_bind_iff.mpr (.inr ⟨later, after, [], (List.append_nil _).symm, endedToo, .refl _⟩)

/-- A tree is resolved through two sets and the results are compared. -/
inductive Comparing (faulty : Prop) (director : String) (tree : Json)
    (first second : VariableSet) (options : InterpolationOptions) (start final : Ledger) :
    List (Exchange Needs) → Except ResolutionError Bool → Prop where
  /-- The second resolution starts when the first one has ended. -/
  | inTurn {transcript : List (Exchange Needs)} {verdict : Except ResolutionError Bool}
      (ended : Ends (changed director tree first tree second options) transcript verdict)
      (served : Served faulty start transcript final) :
      Comparing faulty director tree first second options start final transcript verdict
  /-- The resolutions take turns until both have their result. -/
  | atOnce {history : List (Bool × Exchange Needs)}
      {rest : Bool → Program Needs (Except ResolutionError Json)} {before after : Json}
      (steps : Pool.Steps (Answers faulty) Later
        ⟨start, fun side => pinned director tree (cond side second first) options⟩ history
        ⟨final, rest⟩)
      (finished : rest false = .done (.ok before)) (finishedToo : rest true = .done (.ok after)) :
      Comparing faulty director tree first second options start final (history.map Prod.snd)
        (.ok (!before.same after))
  /-- The resolutions take turns until one of them has failed. -/
  | failed {history : List (Bool × Exchange Needs)}
      {rest : Bool → Program Needs (Except ResolutionError Json)} {side : Bool}
      {error : ResolutionError}
      (steps : Pool.Steps (Answers faulty) Later
        ⟨start, fun side => pinned director tree (cond side second first) options⟩ history
        ⟨final, rest⟩)
      (finished : rest side = .done (.error error)) :
      Comparing faulty director tree first second options start final (history.map Prod.snd)
        (.error error)

/-- Either way, what is compared are the results of two resolutions. -/
theorem Comparing.exists_resolved {compared : Bool}
    (comparing : Comparing faulty director tree first second options start final transcript
      (.ok compared)) :
    ∃ earlier before later after,
      Resolved faulty director tree options start final first earlier before ∧
        Resolved faulty director tree options start final second later after ∧
        earlier ⊆ transcript ∧ later ⊆ transcript ∧ compared = !before.same after := by
  generalize succeeded : Except.ok compared = verdict at comparing
  cases comparing with
  | inTurn ended served =>
    subst succeeded
    obtain ⟨earlier, before, later, after, rfl, ended, endedToo, same⟩ := ends_changed_iff.mp ended
    obtain ⟨between, servedFirst, servedSecond⟩ := served.exists_between
    -- To either resolution, what the other one does is done by others.
    have firstToEnd : Served faulty start earlier final := by
      have waited : Served faulty between [] final :=
        .meanwhile (Served.later servedSecond) (.refl final)
      simpa using servedFirst.append waited
    have secondFromStart : Served faulty start later final :=
      .meanwhile (Served.later servedFirst) servedSecond
    exact ⟨earlier, before, later, after, ⟨ended, firstToEnd⟩, ⟨endedToo, secondFromStart⟩,
      List.subset_append_left _ _, List.subset_append_right _ _, same⟩
  | @atOnce history rest before after steps finished finishedToo =>
    have resolved (side : Bool) {result : Json} (finished : rest side = .done (.ok result)) :
        Resolved faulty director tree options start final (cond side second first)
          (Pool.own side history) result := by
      have ended : (pinned director tree (cond side second first) options).Reaches
          (Pool.own side history) (rest side) := steps.reaches side
      rw [finished] at ended
      exact ⟨ended, steps.serves side Answers.later⟩
    exact ⟨_, before, _, after, resolved false finished, resolved true finishedToo,
      Pool.own_subset _ _, Pool.own_subset _ _, Except.ok.inj succeeded⟩
  | failed => cases succeeded

/-- A tree whose variables have the same versions in both sets, as far as they are looked up, is
never said to be changed, and where a tree is said to be changed, some variable of it has
different versions in the end. -/
theorem exists_version_of_changed
    (comparing : Comparing faulty director tree first second options start final transcript verdict)
    (distinct : tree.DistinctKeys) (sameDeployment : second.deployment = first.deployment)
    (consistent : ∀ id value other, Reported transcript id value → Reported transcript id other →
      value = other) :
    ((∀ name ∈ pinnedVariables director tree first options,
        (∃ set found, asked (.findId set name) found ∈ transcript) →
        ∃ id, start.idOf? first.id name = some id ∧ start.idOf? second.id name = some id) →
      verdict ≠ .ok true) ∧
    (verdict = .ok true → ∃ name ∈ pinnedVariables director tree first options, ∃ id other,
      final.idOf? first.id name = some id ∧ final.idOf? second.id name = some other ∧
        id ≠ other) := by
  have spotted (changed : verdict = .ok true) :
      Later start final ∧ ∃ name ∈ pinnedVariables director tree first options,
        (∃ set found, asked (.findId set name) found ∈ transcript) ∧
        ∃ id other, final.idOf? first.id name = some id ∧
          final.idOf? second.id name = some other ∧ id ≠ other := by
    subst changed
    obtain ⟨earlier, before, later, after, resolved, resolvedToo, within, withinToo, alarm⟩ :=
      comparing.exists_resolved
    have different : before ≠ after := by
      rintro rfl
      rw [Json.same_self before (resolved.distinctKeys distinct)] at alarm
      cases alarm
    obtain ⟨name, among, ⟨found, looked⟩, unlike⟩ :=
      resolved.exists_version resolvedToo within withinToo consistent sameDeployment different
    exact ⟨Served.later resolved.served, name, among, ⟨_, found, within looked⟩, unlike⟩
  constructor
  · intro held changed
    obtain ⟨led, name, among, looked, id, other, here, there, unlike⟩ := spotted changed
    obtain ⟨version, inFirst, inSecond⟩ := held name among looked
    cases here.symm.trans (led.idOf?_eq_some inFirst)
    cases there.symm.trans (led.idOf?_eq_some inSecond)
    exact unlike rfl
  · intro changed
    obtain ⟨_, name, among, _, unlike⟩ := spotted changed
    exact ⟨name, among, unlike⟩

/-- A second set of the deployment that has no version yet, and the ledger once it has the
version. -/
def nextSet : VariableSet := .fresh ⟨"set-2"⟩ "o"

def nextLedger : Ledger := frozenLedger.save nextSet

def pinnedNextLedger (id : VariableId) : Ledger :=
  (nextLedger.respond (.insert ⟨⟨"set-2"⟩, "/d/o/pw", id, none⟩)).2

/-- What is asked for the second set when it has no version, and when it has the one of the first
set. -/
def newerTranscript : List (Exchange Needs) :=
  [asked (.findId ⟨"set-2"⟩ "/d/o/pw") (.ok none), called (.get "/d/o/pw") newerOutcome,
    asked (.insert ⟨⟨"set-2"⟩, "/d/o/pw", "2", none⟩) (.ok ())]

def sharedTranscript : List (Exchange Needs) :=
  [asked (.findId ⟨"set-2"⟩ "/d/o/pw") (.ok (some "1")), called (.getById "1") versionOutcome]

/-- The config server says the same of a version as it did to two workers in a race. -/
theorem consistent_of_called
    (calls : ∀ call outcome, called call outcome ∈ transcript →
      called call outcome ∈ raceHistory.map Prod.snd) (id : VariableId) (value other : Json)
    (reported : Reported (pinnedTranscript ++ transcript) id value)
    (too : Reported (pinnedTranscript ++ transcript) id other) : value = other := by
  have among {call : Call} {outcome : Outcome}
      (member : called call outcome ∈ pinnedTranscript ++ transcript) :
      called call outcome ∈ raceHistory.map Prod.snd := by
    rcases List.mem_append.mp member with member | member
    · simp only [pinnedTranscript, List.mem_cons, List.not_mem_nil, or_false] at member
      rcases member with same | same <;> cases same
      simp [raceHistory]
    · exact calls _ _ member
  have raced {value : Json} (reported : Reported (pinnedTranscript ++ transcript) id value) :
      Reported (raceHistory.map Prod.snd) id value := by
    obtain ⟨exchange, member, reports⟩ := reported
    cases reports with
    | latest read => exact ⟨_, among member, .latest read⟩
    | version read => exact ⟨_, among member, .version read⟩
  exact (reported_raceHistory (raced reported)).trans (reported_raceHistory (raced too)).symm

theorem comparing_sampleManifest {value : Json}
    (fetch : PinnedFetch nextSet "/d/o/pw" transcript (.ok value))
    (served : Served False start (pinnedTranscript ++ transcript) final) :
    Comparing False "d" sampleManifest (sampleSet.frozen true) nextSet sampleOptions start final
      (pinnedTranscript ++ transcript)
      (.ok (!(Json.obj [("password", .str "old"), ("port", .int 1)]).same
        (.obj [("password", value), ("port", .int 1)]))) := by
  have pinned : PinnedFetch (sampleSet.frozen true) "/d/o/pw" pinnedTranscript
      (.ok (.str "old")) := readVersion_versionOutcome ▸ .pinned
  exact .inTurn (ends_changed_iff.mpr ⟨_, _, _, _, rfl, ends_pinned_sampleManifest rfl pinned,
    ends_pinned_sampleManifest rfl fetch, rfl⟩) served

theorem comparing_newerTranscript :
    Comparing False "d" sampleManifest (sampleSet.frozen true) nextSet sampleOptions nextLedger
      (pinnedNextLedger "2") (pinnedTranscript ++ newerTranscript) (.ok true) :=
  comparing_sampleManifest (.recorded rfl readByName_newerOutcome (.added rfl))
    (.answered (.query rfl) (.answered (.call _ _ _) (.answered (.query rfl)
      (.answered (.call _ _ _) (.answered (.query rfl) (.refl _))))))

theorem comparing_sharedTranscript :
    Comparing False "d" sampleManifest (sampleSet.frozen true) nextSet sampleOptions
      (pinnedNextLedger "1") (pinnedNextLedger "1") (pinnedTranscript ++ sharedTranscript)
      (.ok false) := by
  have fetch : PinnedFetch nextSet "/d/o/pw" sharedTranscript (.ok (.str "old")) :=
    readVersion_versionOutcome ▸ .pinned
  exact comparing_sampleManifest fetch (.answered (.query rfl) (.answered (.call _ _ _)
    (.answered (.query rfl) (.answered (.call _ _ _) (.refl _)))))

theorem exists_version_of_changed_newerVersions :
    (Comparing False "d" sampleManifest (sampleSet.frozen true) nextSet sampleOptions nextLedger
        (pinnedNextLedger "2") (pinnedTranscript ++ newerTranscript) (.ok true) ∧
      ∃ name ∈ pinnedVariables "d" sampleManifest (sampleSet.frozen true) sampleOptions,
        ∃ id other, (pinnedNextLedger "2").idOf? (sampleSet.frozen true).id name = some id ∧
          (pinnedNextLedger "2").idOf? nextSet.id name = some other ∧ id ≠ other) ∧
    (Comparing False "d" sampleManifest (sampleSet.frozen true) nextSet sampleOptions
        (pinnedNextLedger "1") (pinnedNextLedger "1") (pinnedTranscript ++ sharedTranscript)
        (.ok false) ∧
      ∀ verdict, Comparing False "d" sampleManifest (sampleSet.frozen true) nextSet sampleOptions
        (pinnedNextLedger "1") (pinnedNextLedger "1") (pinnedTranscript ++ sharedTranscript)
        verdict → verdict ≠ .ok true) := by
  have distinct : sampleManifest.DistinctKeys := by
    simp [sampleManifest, Json.DistinctKeys, Json.DistinctKeysInFields, Keyed.keys]
  refine ⟨⟨comparing_newerTranscript, ?_⟩, comparing_sharedTranscript, fun verdict comparing => ?_⟩
  · refine (exists_version_of_changed comparing_newerTranscript distinct rfl
      (consistent_of_called fun call outcome member => ?_)).2 rfl
    simp only [newerTranscript, List.mem_cons, List.not_mem_nil, or_false] at member
    rcases member with same | same | same <;> cases same
    simp [raceHistory]
  · refine (exists_version_of_changed comparing distinct rfl
      (consistent_of_called fun call outcome member => ?_)).1 ?_
    · simp only [sharedTranscript, List.mem_cons, List.not_mem_nil, or_false] at member
      rcases member with same | same <;> cases same
      simp [raceHistory]
    · rintro name _ ⟨set, found, looked⟩
      simp only [pinnedTranscript, sharedTranscript, List.cons_append, List.nil_append,
        List.mem_cons, List.not_mem_nil, or_false] at looked
      rcases looked with same | same | same | same <;> cases same
      · exact ⟨"1", rfl, rfl⟩
      · exact ⟨"1", rfl, rfl⟩

end Interpolation

end ManifestVariables
