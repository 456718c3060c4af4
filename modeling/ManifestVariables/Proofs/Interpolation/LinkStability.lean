import ManifestVariables.Proofs.Interpolation.LinkBindings

/-!
# Links are stable

What a consumer was linked to stays linked (`Interpolation.linked_stable`). A resolution
that succeeds leaves a version for each of its names with the consumer, whether it was
there, was copied from the provider or was added by a faster writer. The provider is only
asked for names that the consumer lacks, so a later resolution does not come to ask it.
-/

namespace ManifestVariables.Interpolation

open Program Engine Resolution
open Ledger (Later)

variable {director : String} {tree : Json} {consumer again provider newer : VariableSet}
  {options : InterpolationOptions} {result : Json} {transcript : List (Exchange Needs)}

theorem records_fetchLinked {faulty : Prop} :
    Records faulty consumer.id (fetchLinked consumer provider) :=
  fun ended served => (ends_fetchLinked_iff.mp ended).exists_recorded served

theorem recalls_fetchLinked : Recalls consumer.id (fetchLinked consumer provider) :=
  fun ended served held => (ends_fetchLinked_iff.mp ended).of_held served held

/-- The transcript of a second resolution consists of lookups of versions that the consumer
has, and its result is the first one. -/
theorem ends_linked_again {faulty : Prop} {others : Ledger → Ledger → Prop}
    {ledger after resumed final : Ledger} {transcriptAgain : List (Exchange Needs)}
    {resultAgain : Except ResolutionError Json}
    (first : Ends (linked director tree consumer provider options) transcript (.ok result))
    (served : Served faulty ledger transcript after) (between : Later after resumed)
    (sameConsumer : again.id = consumer.id) (sameProvider : newer.deployment = provider.deployment)
    (second : Ends (linked director tree again newer options) transcriptAgain resultAgain)
    (asking : ∀ {before next}, others before next → Later before next)
    (servedAgain : Among False others resumed transcriptAgain final)
    (lasting : ∀ id value outcome, Reported transcript id value →
      called (.getById id) outcome ∈ transcriptAgain →
      Reports (called (.getById id) outcome) id value) :
    resultAgain = .ok result ∧
      (∀ exchange ∈ transcriptAgain, ∃ name id, resumed.idOf? consumer.id name = some id ∧
        (exchange = asked (.findId consumer.id name) (.ok (some id)) ∨
          ∃ outcome, exchange = called (.getById id) outcome)) ∧
      Among False others resumed [] final := by
  have recalls : Recalls consumer.id (fetchLinked again newer) := sameConsumer ▸ recalls_fetchLinked
  rw [linked, sameProvider] at second
  obtain ⟨same, lookups⟩ := ends_again records_fetchLinked recalls first served between second
    (Among.served servedAgain asking) lasting
  refine ⟨same, lookups, Among.nil_of_idle servedAgain fun exchange member before next answered => ?_⟩
  obtain ⟨name, id, _, rfl | ⟨outcome, rfl⟩⟩ := lookups exchange member
  · exact answered.findId.2
  · cases answered
    rfl

/-- What was resolved for a consumer is resolved for it to the same result again, whatever
the provider has become and whatever was stored on the config server meanwhile, as long as
a version keeps its value. The second resolution asks for versions that the consumer has,
and for nothing else, so the ledger changes only as others change it. -/
theorem linked_stable {σ : Type} {answer : (need : Need) → σ → need.Reply × σ} {state later : σ}
    {faulty : Prop} {others : Ledger → Ledger → Prop} {ledger after resumed final : Ledger}
    (first : ((linked director tree consumer provider options).run answer state).1 = .ok result)
    (served : Served faulty ledger
      ((linked director tree consumer provider options).transcript answer state) after)
    (between : Later after resumed)
    (sameConsumer : again.id = consumer.id)
    (sameProvider : newer.deployment = provider.deployment)
    (asking : ∀ {before next}, others before next → Later before next)
    (servedAgain : Among False others resumed
      ((linked director tree again newer options).transcript answer later) final)
    (lasting : ∀ id value outcome,
      Reported ((linked director tree consumer provider options).transcript answer state) id value →
      called (.getById id) outcome ∈
        (linked director tree again newer options).transcript answer later →
      Reports (called (.getById id) outcome) id value) :
    ((linked director tree again newer options).run answer later).1 = .ok result ∧
      (∀ exchange ∈ (linked director tree again newer options).transcript answer later,
        ∃ name id, resumed.idOf? consumer.id name = some id ∧
          (exchange = asked (.findId consumer.id name) (.ok (some id)) ∨
            ∃ outcome, exchange = called (.getById id) outcome)) ∧
      Among False others resumed [] final := by
  have ended := ends_transcript (I := Needs) answer
    (linked director tree consumer provider options) state
  have endedAgain := ends_transcript (I := Needs) answer
    (linked director tree again newer options) later
  rw [first] at ended
  exact ends_linked_again ended served between sameConsumer sameProvider endedAgain asking
    servedAgain lasting

/-- The ledger once the consumer has the provider's version, and the one in which the set of
the consumer is frozen and the provider has started another deploy attempt. -/
def linkedLedger : Ledger :=
  { providerLedger with
    rows := providerLedger.rows ++ [(⟨"set-1"⟩, [binding sampleSet providerSet "/d/p/pw" "1"])] }

def redeployedLedger : Ledger :=
  ((Store.createWritable ⟨"set-3"⟩ "p").run Ledger.respond
    ((Store.freeze sampleSet true).run Ledger.respond linkedLedger).2).2

/-- The config server once the provider's name has a newer version. -/
def newerProviderVersions : Versions := (providerVersions.store "/d/p/pw" (.str "new") .null).2

/-- The outcomes of asking for the provider's version before and after there was a newer
one. -/
def providedOutcome : Outcome := .ok (Versions.respond (.getById "1") providerVersions).1

def providedAgain : Outcome := .ok (Versions.respond (.getById "1") newerProviderVersions).1

/-- The transcript while the consumer takes over the version, and the one once it has it. -/
def linkingTranscript : List (Exchange Needs) :=
  [asked (.findId ⟨"set-1"⟩ "/d/p/pw") (.ok none),
    asked (.findId ⟨"set-2"⟩ "/d/p/pw") (.ok (some "1")),
    asked (.insert (binding sampleSet providerSet "/d/p/pw" "1")) (.ok ()),
    called (.getById "1") providedOutcome]

def linkedTranscript : List (Exchange Needs) :=
  [asked (.findId ⟨"set-1"⟩ "/d/p/pw") (.ok (some "1")), called (.getById "1") providedAgain]

theorem readById_providedOutcome :
    Client.readById "/d/p/pw" "1" providedOutcome = .ok ⟨"1", "/d/p/pw", .str "old"⟩ := by
  cbv

theorem readById_providedAgain :
    Client.readById "/d/p/pw" "1" providedAgain = .ok ⟨"1", "/d/p/pw", .str "old"⟩ := by
  cbv

theorem readVersion_providedOutcome :
    readVersion "/d/p/pw" "1" providedOutcome = .ok (.str "old") :=
  readVersion_eq_ok_iff.mpr ⟨_, readById_providedOutcome, rfl⟩

theorem readVersion_providedAgain :
    readVersion "/d/p/pw" "1" providedAgain = .ok (.str "old") :=
  readVersion_eq_ok_iff.mpr ⟨_, readById_providedAgain, rfl⟩

theorem ends_linked_sampleManifest (provides : provider.deployment = "p") {value : Json}
    (fetch : LinkedFetch consumer provider "/d/p/pw" transcript (.ok value)) :
    Ends (linked "d" sampleManifest consumer provider sampleOptions) transcript
      (.ok (.obj [("password", value), ("port", .int 1)])) := by
  have qualified : Name.qualify "d" provider.deployment "pw" = "/d/p/pw" := by
    rw [provides]
    decide +kernel
  refine ends_translate_iff.mpr ⟨_, ends_resolve_sampleManifest qualified value, ?_⟩
  rw [← List.append_nil transcript]
  exact .cons (ends_fetchLinked_iff.mpr fetch) .nil

theorem run_linking :
    (linked "d" sampleManifest sampleSet providerSet sampleOptions).transcript World.answer
        (calm providerVersions providerLedger) = linkingTranscript ∧
      ((linked "d" sampleManifest sampleSet providerSet sampleOptions).run World.answer
        (calm providerVersions providerLedger)).1 =
          .ok (.obj [("password", .str "old"), ("port", .int 1)]) ∧
      ((linked "d" sampleManifest sampleSet providerSet sampleOptions).run World.answer
        (calm providerVersions providerLedger)).2.ledger = linkedLedger := by
  have fetch : LinkedFetch sampleSet providerSet "/d/p/pw" linkingTranscript (.ok (.str "old")) :=
    readVersion_providedOutcome ▸ .copied rfl (.added rfl)
  have given : Gives World.answer (calm providerVersions providerLedger) linkingTranscript :=
    ⟨rfl, rfl, rfl, rfl, trivial⟩
  obtain ⟨same, ran⟩ := (ends_linked_sampleManifest rfl fetch).run_eq World.answer given
  rw [ran]
  exact ⟨same, rfl, rfl⟩

theorem transcript_linked :
    (linked "d" sampleManifest (sampleSet.frozen true) (.fresh ⟨"set-3"⟩ "p")
      sampleOptions).transcript World.answer (calm newerProviderVersions redeployedLedger) =
        linkedTranscript := by
  have fetch : LinkedFetch (sampleSet.frozen true) (.fresh ⟨"set-3"⟩ "p") "/d/p/pw"
      linkedTranscript (.ok (.str "old")) := readVersion_providedAgain ▸ .bound
  have given : Gives World.answer (calm newerProviderVersions redeployedLedger) linkedTranscript :=
    ⟨rfl, rfl, trivial⟩
  exact ((ends_linked_sampleManifest rfl fetch).run_eq World.answer given).1

theorem linked_stable_newerProviderVersions :
    ((linked "d" sampleManifest sampleSet providerSet sampleOptions).run World.answer
        (calm providerVersions providerLedger)).1 =
          .ok (.obj [("password", .str "old"), ("port", .int 1)]) ∧
      ((linked "d" sampleManifest (sampleSet.frozen true) (.fresh ⟨"set-3"⟩ "p")
          sampleOptions).run World.answer (calm newerProviderVersions redeployedLedger)).1 =
            .ok (.obj [("password", .str "old"), ("port", .int 1)]) := by
  obtain ⟨same, resolved, ledger⟩ := run_linking
  have served : Served False providerLedger _ _ := served_transcript
    (linked "d" sampleManifest sampleSet providerSet sampleOptions)
    (calm providerVersions providerLedger) (.inr rfl)
  have servedAgain : Alone False redeployedLedger _ _ := alone_transcript
    (linked "d" sampleManifest (sampleSet.frozen true) (.fresh ⟨"set-3"⟩ "p") sampleOptions)
    (calm newerProviderVersions redeployedLedger) rfl rfl
  have between : Later linkedLedger redeployedLedger :=
    (Ledger.later_run (Store.freeze sampleSet true) _).trans
      (Ledger.later_run (Store.createWritable ⟨"set-3"⟩ "p") _)
  have sameConsumer : (sampleSet.frozen true).id = sampleSet.id := rfl
  have sameProvider : (VariableSet.fresh ⟨"set-3"⟩ "p").deployment = providerSet.deployment := rfl
  rw [ledger] at served
  refine ⟨resolved, (linked_stable resolved served between sameConsumer sameProvider
    (fun nobody => nobody.elim) servedAgain ?_).1⟩
  intro id value outcome reported member
  rw [same] at reported
  rw [transcript_linked] at member
  have asksForFirst : called (.getById id) outcome = called (.getById "1") providedAgain := by
    simp only [linkedTranscript, List.mem_cons, List.not_mem_nil, or_false] at member
    exact member.resolve_left nofun
  cases asksForFirst
  obtain ⟨exchange, among, reports⟩ := reported
  simp only [linkingTranscript, List.mem_cons, List.not_mem_nil, or_false] at among
  rcases among with rfl | rfl | rfl | rfl
  · cases reports
  · cases reports
  · cases reports
  · have read : readVersion "/d/p/pw" "1" providedOutcome = .ok value :=
      readVersion_iff_reports.mpr reports
    cases readVersion_providedOutcome.symm.trans read
    exact readVersion_iff_reports.mp readVersion_providedAgain

end ManifestVariables.Interpolation
