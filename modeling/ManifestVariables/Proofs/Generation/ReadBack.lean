import ManifestVariables.Proofs.Generation.Effects
import ManifestVariables.Proofs.Interpolation.Stability
import ManifestVariables.Proofs.Resolution.OneVariable

/-!
# Reading generated variables back

A generated variable is recorded in its set under the whole name of its declaration. A
placeholder is looked up under the base of its name, and the keys behind the base select a
part of the value that is found. So the set gives a declared variable back to a placeholder
of its name where the name has no keys, and in no other case
(`Generation.generated_readsBack_iff`): a variable whose name has keys is recorded where
nobody looks for it.
-/

namespace ManifestVariables.Generation

open Program Engine Resolution
open Interpolation (PinnedFetch pinned fetchPinned)
open Ledger (Later)

variable {context : GenerationContext} {set handle : VariableSet} {flags : GenerationFlags}
  {declaration : Declaration} {declarations : List Declaration} {entry : GeneratedVariable}
  {entries : List GeneratedVariable} {director deployment name : String} {id : VariableId}
  {tree value : Json} {faulty : Prop} {transcript : List (Exchange Needs)}
  {before after : Ledger} {result : Except ResolutionError Json}

/-! ### What a run leaves in its set -/

theorem Generating.valid
    (generating : Generating context set flags declaration transcript (.ok entry)) :
    Name.Valid declaration.name.toList := by
  generalize succeeded : Except.ok entry = result at generating
  cases generating with
  | malformed => cases succeeded
  | unread => cases succeeded
  | unlinked => cases succeeded
  | refused => cases succeeded
  | reused valid => exact Name.validate_eq_ok_iff.mp valid
  | generated valid => exact Name.validate_eq_ok_iff.mp valid

theorem GeneratingEach.valid
    (generating : GeneratingEach context set flags declarations transcript (.ok entries)) :
    ∀ declaration ∈ declarations, Name.Valid declaration.name.toList := by
  generalize succeeded : Except.ok entries = result at generating
  induction generating generalizing entries with
  | nil => exact nofun
  | stopped => cases succeeded
  | @cons _ _ _ _ _ result here _ ih =>
    cases result with
    | error => cases succeeded
    | ok others => exact List.forall_mem_cons.mpr ⟨here.valid, ih rfl⟩

/-- Each declaration of a run that succeeds is answered with the version that the set has
for its whole name. -/
theorem exists_recorded_of_ends {others : List VariableSet} {position : Nat}
    (ended : Ends (generateAll context deployment flags declarations)
      (asked (.findSets deployment) (.ok (set :: others)) :: transcript) (.ok entries))
    (served : Served faulty before
      (asked (.findSets deployment) (.ok (set :: others)) :: transcript) after)
    (declared : declarations[position]? = some declaration) :
    Name.Valid declaration.name.toList ∧ ∃ entry, entries[position]? = some entry ∧
      after.idOf? set.id (nameOf context set.deployment declaration) = some entry.id := by
  obtain ⟨_, _, _, _, tail⟩ := served.exists_answered
  cases ends_generateAll_iff.mp ended with
  | @each _ _ _ current _ _ newest _ generating =>
    obtain rfl : set = current := Option.some.inj newest
    refine ⟨generating.valid _ (List.mem_of_getElem? declared), ?_⟩
    rcases generating.cases tail with ⟨_, same, generated⟩ | ⟨_, _, _, _, _, _, _, _, _, failed, _⟩
    · cases same
      have named := congrArg (fun names => names[position]?) generated.names
      simp only [List.getElem?_map, declared, Option.map_some, Option.map_eq_some_iff] at named
      obtain ⟨entry, found, name⟩ := named
      refine ⟨entry, found, ?_⟩
      rw [← name]
      exact (generated.held entry (List.mem_of_getElem? found)).1
    · cases failed

/-! ### Reading through a set -/

/-- Options that leave everything as it is by default. -/
def defaultOptions : InterpolationOptions := ⟨false, [], none⟩

/-- A set is read through one of its handles at any time after the ledger was left as it is.
No query fails, and the config server answers a version with its value. -/
structure Reading (set handle : VariableSet) (id : VariableId) (value : Json) (left : Ledger)
    (transcript : List (Exchange Needs)) : Prop where
  sameSet : handle.id = set.id
  sameDeployment : handle.deployment = set.deployment
  served : ∃ resumed final, Later left resumed ∧ Served False resumed transcript final
  lasting : ∀ outcome, called (.getById id) outcome ∈ transcript →
    Reports (called (.getById id) outcome) id value

/-- Every placeholder of a tree stands for the value of a version. The version is asked for
once, and nothing else is asked of the config server. -/
structure ReadsBack (tree : Json) (id : VariableId) (value : Json)
    (transcript : List (Exchange Needs)) (result : Except ResolutionError Json) : Prop where
  resolved : ∃ filled, Tree.filled? [] (fun _ => some value) [] tree = some filled ∧
    result = .ok filled
  asks : calls transcript = [.getById id]

/-- The variable of a tree with one name is fetched through the handle. -/
theorem exists_pinnedFetch (one : OneName tree [] name)
    (ended : Ends (pinned director tree handle defaultOptions) transcript result) :
    ∃ reply,
      Ends (resolve tree [] (Name.qualify director handle.deployment))
        [fetching (Name.qualify director handle.deployment (NamePath.parse name).base) reply]
        result ∧
      PinnedFetch handle (Name.qualify director handle.deployment (NamePath.parse name).base)
        transcript reply := by
  obtain ⟨outer, resolved, expanded⟩ := ends_translate_iff.mp ended
  obtain ⟨reply, rfl⟩ := one.exists_fetch resolved
  refine ⟨reply, resolved, ?_⟩
  cases expanded with
  | cons fetched tail =>
    cases tail
    rw [List.append_nil]
    exact Interpolation.ends_fetchPinned_iff.mp fetched

/-- A set gives back what it has under the whole name, where this has no keys. -/
theorem Reading.readsBack
    (reading : Reading set handle id value after transcript)
    (held : after.idOf? set.id (Name.qualify director set.deployment name) = some id)
    (one : OneName tree [] name) (distinct : tree.DistinctKeys)
    (ended : Ends (pinned director tree handle defaultOptions) transcript result)
    (plain : (NamePath.parse name).keys = []) : ReadsBack tree id value transcript result := by
  obtain ⟨reply, resolved, fetch⟩ := exists_pinnedFetch one ended
  obtain ⟨resumed, final, passed, served⟩ := reading.served
  have recorded : resumed.idOf? handle.id
      (Name.qualify director handle.deployment (NamePath.parse name).base) = some id := by
    rw [Name.base_eq_of_keys_eq_nil plain, reading.sameSet, reading.sameDeployment]
    exact passed.idOf?_eq_some held
  obtain ⟨outcome, rfl, rfl⟩ := fetch.of_held served recorded
  rw [Interpolation.readVersion_iff_reports.mpr (reading.lasting outcome (by simp))] at resolved
  have whole : (NamePath.parse name).keys.foldlM Json.get? value = some value := by
    rw [plain]
    rfl
  obtain ⟨filled, rfl⟩ := one.exists_ok_of_part resolved whole
  obtain ⟨part, selected, same⟩ := one.exists_part distinct resolved
  obtain rfl : value = part := Option.some.inj (whole.symm.trans selected)
  exact ⟨⟨filled, same, rfl⟩, rfl⟩

/-- A lookup of a version reports one value. -/
theorem eq_of_reports {first second : Json} {outcome : Outcome}
    (one : Reports (called (.getById id) outcome) id first)
    (other : Reports (called (.getById id) outcome) id second) : first = second := by
  have read : Interpolation.readVersion "" id outcome = .ok first :=
    Interpolation.readVersion_iff_reports.mpr one
  exact Except.ok.inj (read.symm.trans (Interpolation.readVersion_iff_reports.mpr other))

/-- A fetch that brings a value with one lookup of a version brings the value of the version. -/
theorem reports_of_calls {part : Json} (fetch : PinnedFetch handle name transcript (.ok part))
    (asks : calls transcript = [.getById id]) :
    ∃ outcome, called (.getById id) outcome ∈ transcript ∧
      Reports (called (.getById id) outcome) id part := by
  generalize succeeded : Except.ok part = reply at fetch
  cases fetch with
  | unread => cases succeeded
  | unrecorded => cases succeeded
  | unknown => cases succeeded
  | refused => cases succeeded
  | @pinned id outcome =>
    cases asks
    exact ⟨outcome, by simp, Interpolation.readVersion_iff_reports.mp succeeded.symm⟩
  | recorded => cases asks
  | overtaken => cases asks

/-- The value of a version is given back to no name with keys: what these select is smaller. -/
theorem Reading.keys_eq_nil
    (reading : Reading set handle id value after transcript)
    (one : OneName tree [] name) (distinct : tree.DistinctKeys)
    (ended : Ends (pinned director tree handle defaultOptions) transcript result)
    (back : ReadsBack tree id value transcript result) : (NamePath.parse name).keys = [] := by
  obtain ⟨reply, resolved, fetch⟩ := exists_pinnedFetch one ended
  obtain ⟨⟨filled, same, rfl⟩, asks⟩ := back
  obtain ⟨_, found, equal⟩ := exists_value_of_ends_resolve resolved List.mem_cons_self
  cases equal
  obtain ⟨outcome, among, reports⟩ := reports_of_calls fetch asks
  obtain rfl := eq_of_reports reports (reading.lasting outcome among)
  obtain ⟨part, selected, others⟩ := one.exists_part distinct resolved
  refine Classical.byContradiction fun some_key => ?_
  exact Json.ne_of_foldlM_get? some_key selected (one.eq_of_filled? others same)

/-- After a run that generated its declarations, the set that it generated into gives the
version of a declaration back to the placeholders of its name just where the name has no
keys. Every declared name has such placeholders. -/
theorem generated_readsBack_iff {σ : Type} {answer : (need : Need) → σ → need.Reply × σ}
    {state : σ} {others : List VariableSet} {rest : List (Exchange Needs)} {position : Nat}
    (generated : (Program.run answer (generateAll context deployment flags declarations) state).1 =
      .ok entries)
    (listed : Program.transcript answer (generateAll context deployment flags declarations) state =
      asked (.findSets deployment) (.ok (set :: others)) :: rest)
    (served : Served faulty before
      (Program.transcript answer (generateAll context deployment flags declarations) state) after)
    (declared : declarations[position]? = some declaration) :
    ∃ entry, entries[position]? = some entry ∧
      OneName (.str (Placeholder.ofName declaration.name)) [] declaration.name ∧
      ∀ (tree : Json) (handle : VariableSet) (value : Json) (later : σ),
        OneName tree [] declaration.name → tree.DistinctKeys →
        Reading set handle entry.id value after
          ((pinned context.director tree handle defaultOptions).transcript answer later) →
        (ReadsBack tree entry.id value
            ((pinned context.director tree handle defaultOptions).transcript answer later)
            ((pinned context.director tree handle defaultOptions).run answer later).1 ↔
          (NamePath.parse declaration.name).keys = []) := by
  have ended := ends_transcript (I := Needs) answer
    (generateAll context deployment flags declarations) state
  rw [listed] at served ended
  rw [generated] at ended
  obtain ⟨valid, entry, found, held⟩ := exists_recorded_of_ends ended served declared
  refine ⟨entry, found, oneName_ofName valid, ?_⟩
  intro tree handle value later one distinct reading
  have read := ends_transcript (I := Needs) answer
    (pinned context.director tree handle defaultOptions) later
  exact ⟨reading.keys_eq_nil one distinct read, reading.readsBack held one distinct read⟩

/-- One variable is generated into the set of the deployment, and a placeholder of its name
is resolved through this set. -/
def sampleGeneration (name : String) :
    Program Needs (Except GenerationError (List GeneratedVariable)) :=
  generateAll sampleContext "o" sampleFlags [{ sampleDeclaration with name }]

def sampleReading (name : String) : Program Needs (Except ResolutionError Json) :=
  pinned "d" (.str (Placeholder.ofName name)) (.fresh ⟨"set-1"⟩ "o") defaultOptions

def generatedWorld (name : String) : World :=
  ((sampleGeneration name).run World.answer sampleWorld).2

/-- What the config server answers for the version that was generated. -/
def generatedOutcome : Outcome :=
  .ok (Versions.respond (.getById "1") (Versions.store [] "/d/o/pw" (.str "secret-1") .null).2).1

def sampleReadingTranscript : List (Exchange Needs) :=
  [asked (.findId ⟨"set-1"⟩ "/d/o/pw") (.ok (some "1")), called (.getById "1") generatedOutcome]

theorem readById_generatedOutcome :
    Client.readById "/d/o/pw" "1" generatedOutcome = .ok ⟨"1", "/d/o/pw", .str "secret-1"⟩ := by
  cbv

theorem ends_sampleReading :
    Ends (sampleReading "pw") sampleReadingTranscript (.ok (.str "secret-1")) := by
  have qualified : Name.qualify "d" "o" "pw" = "/d/o/pw" := by decide +kernel
  have parsed : parseSites (Tree.sites (.str (Placeholder.ofName "pw")) []) =
      .ok [([], ⟨"pw", []⟩)] := eq_ok_of_toOption (by decide +kernel)
  have settled : Settling (Name.qualify "d" "o") [([], ⟨"pw", []⟩)] Progress.start
      [fetching (Name.qualify "d" "o" "pw") (.ok (.str "secret-1"))] (.ok _) :=
    .fetched rfl .finished
  rw [qualified] at settled
  have fetch : PinnedFetch (.fresh ⟨"set-1"⟩ "o") "/d/o/pw" sampleReadingTranscript
      (.ok (.str "secret-1")) :=
    Interpolation.readVersion_eq_ok_iff.mpr ⟨_, readById_generatedOutcome, rfl⟩ ▸ .pinned
  refine ends_translate_iff.mpr
    ⟨_, ends_resolve_ok_iff.mpr ⟨_, _, parsed, settled, rfl, rfl⟩, ?_⟩
  rw [← List.append_nil sampleReadingTranscript]
  exact .cons (Interpolation.ends_fetchPinned_iff.mpr fetch) .nil

theorem faults_generatedWorld : (generatedWorld "pw").faults = [] := by
  decide +kernel

theorem transcript_sampleReading :
    (sampleReading "pw").transcript World.answer (generatedWorld "pw") =
      sampleReadingTranscript := by
  have held : (generatedWorld "pw").ledger.idOf? ⟨"set-1"⟩ "/d/o/pw" = some "1" := by
    decide +kernel
  have looked : (generatedWorld "pw").answer (.ledger (.findId ⟨"set-1"⟩ "/d/o/pw")) =
      (.ok (some "1"), generatedWorld "pw") := by
    rcases answer_findId_cases ⟨"set-1"⟩ "/d/o/pw" (generatedWorld "pw") with
      ⟨found, _⟩ | ⟨_, _, member, _⟩
    · rw [found, held]
    · rw [faults_generatedWorld] at member
      cases member
  have answered : ((generatedWorld "pw").answer (.call (.getById "1"))).1 = generatedOutcome :=
    eq_ok_of_toOption (by decide +kernel)
  have given : Gives World.answer (generatedWorld "pw") sampleReadingTranscript := by
    refine ⟨congrArg Prod.fst looked, ?_, trivial⟩
    rw [looked]
    exact answered
  exact (ends_sampleReading.run_eq World.answer given).1

theorem reading_generatedWorld : Reading (.fresh ⟨"set-1"⟩ "o") (.fresh ⟨"set-1"⟩ "o") "1"
    (.str "secret-1") (generatedWorld "pw").ledger
    ((sampleReading "pw").transcript World.answer (generatedWorld "pw")) where
  sameSet := rfl
  sameDeployment := rfl
  served := ⟨_, _, .refl _, served_transcript (sampleReading "pw") (generatedWorld "pw")
    (.inr faults_generatedWorld)⟩
  lasting := by
    intro outcome among
    rw [transcript_sampleReading] at among
    have same : called (.getById "1") outcome = called (.getById "1") generatedOutcome := by
      simp only [sampleReadingTranscript, List.mem_cons, List.not_mem_nil, or_false] at among
      exact among.resolve_left nofun
    cases same
    exact .version readById_generatedOutcome

theorem generated_readsBack_iff_pw :
    ((sampleGeneration "pw").run World.answer sampleWorld).1 =
        .ok [⟨"/d/o/pw", "1", .noOverwrite, true⟩] ∧
      ReadsBack (.str (Placeholder.ofName "pw")) "1" (.str "secret-1")
        ((sampleReading "pw").transcript World.answer (generatedWorld "pw"))
        ((sampleReading "pw").run World.answer (generatedWorld "pw")).1 := by
  have generated : ((sampleGeneration "pw").run World.answer sampleWorld).1 =
      .ok [⟨"/d/o/pw", "1", .noOverwrite, true⟩] := by decide +kernel
  have served : Served False sampleWorld.ledger _ _ :=
    served_transcript (sampleGeneration "pw") sampleWorld (.inr rfl)
  have declared : [sampleDeclaration][0]? = some sampleDeclaration := rfl
  obtain ⟨entry, found, one, back⟩ := generated_readsBack_iff generated rfl served declared
  cases found
  exact ⟨generated, (back _ _ _ (generatedWorld "pw") one trivial reading_generatedWorld).mpr
    (by decide +kernel)⟩

/-- A name with keys is accepted and its variable recorded, but it is looked up under another
name. -/
theorem generated_not_readsBack :
    ((sampleGeneration "cert.ca").run World.answer sampleWorld).1 =
        .ok [⟨"/d/o/cert.ca", "1", .noOverwrite, true⟩] ∧
      (generatedWorld "cert.ca").ledger.idOf? ⟨"set-1"⟩ "/d/o/cert.ca" = some "1" ∧
      (calls ((sampleReading "cert.ca").transcript World.answer
        (generatedWorld "cert.ca"))).map Call.key = ["/d/o/cert"] ∧
      ((sampleReading "cert.ca").run World.answer (generatedWorld "cert.ca")).1.isOk = false ∧
      ∀ value, ¬ ReadsBack (.str (Placeholder.ofName "cert.ca")) "1" value
        ((sampleReading "cert.ca").transcript World.answer (generatedWorld "cert.ca"))
        ((sampleReading "cert.ca").run World.answer (generatedWorld "cert.ca")).1 := by
  have asks : (calls ((sampleReading "cert.ca").transcript World.answer
      (generatedWorld "cert.ca"))).map Call.key = ["/d/o/cert"] := by decide +kernel
  refine ⟨by decide +kernel, by decide +kernel, asks, by decide +kernel, fun value back => ?_⟩
  rw [back.asks] at asks
  exact absurd asks (by decide)

end ManifestVariables.Generation
