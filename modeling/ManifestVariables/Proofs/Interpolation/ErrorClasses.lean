import ManifestVariables.Proofs.ConfigServer.Generated
import ManifestVariables.Proofs.Interpolation.Failures
import ManifestVariables.Proofs.Interpolation.FreshNames
import ManifestVariables.Proofs.Interpolation.LinkedFetch

/-!
# The classes of errors

Two functions tell errors that concern one variable from those that end everything:
`ServerError.isReportable`, and `FetchFailure.ofServer`, by which a resolution goes. They differ
on the failures of generations, and on nothing else. Lookups have no such failures, and a fetch
makes lookups only, so within a resolution the two agree: an error that is received while a value
is fetched is reportable just where it is collected, and otherwise ends the resolution
(`Interpolation.isReportable_iff_collects`).
-/

namespace ManifestVariables

open Program

namespace Client

/-- A client that makes one call ends with what it reads from the outcome. -/
theorem ends_read_iff {α : Type} {call : Call} {read : Outcome → α}
    {transcript : List (Exchange Calls)} {result : α} :
    Ends (.ask call fun outcome => .done (read outcome)) transcript result ↔
      ∃ outcome, transcript = [⟨call, outcome⟩] ∧ result = read outcome := by
  refine (ends_ask_iff (I := Calls)).trans ⟨?_, ?_⟩
  · rintro ⟨outcome, rest, rfl, tail⟩
    obtain ⟨rfl, rfl⟩ := ends_done_iff.mp tail
    exact ⟨outcome, rfl, rfl⟩
  · rintro ⟨outcome, rfl, rfl⟩
    exact ⟨outcome, [], rfl, .refl _⟩

/-- A program makes one call, and its failures are of the expected ones for the outcome. -/
def FailsAs (expected : Outcome → ServerError → Prop) (call : Call)
    (program : Program Calls (Except ServerError Variable)) : Prop :=
  ∀ transcript failure, Ends program transcript (.error failure) →
    ∃ outcome, transcript = [⟨call, outcome⟩] ∧ expected outcome failure

theorem failsAs_of_read {expected : Outcome → ServerError → Prop} {call : Call}
    {read : Outcome → Except ServerError Variable}
    (fails : ∀ outcome failure, read outcome = .error failure → expected outcome failure) :
    FailsAs expected call (.ask call fun outcome => .done (read outcome)) := by
  intro transcript failure ended
  obtain ⟨outcome, rfl, failed⟩ := ends_read_iff.mp ended
  exact ⟨outcome, rfl, fails outcome failure failed.symm⟩

theorem failsAs_getByName (name : String) :
    FailsAs (FailedLookup name) (.get name) (getByName name) :=
  failsAs_of_read fun _ _ failed => failedLookup_of_readByName failed

theorem failsAs_getById (name : String) (id : VariableId) :
    FailsAs (FailedLookup name) (.getById id) (getById name id) :=
  failsAs_of_read fun _ _ failed => failedLookup_of_readById failed

theorem failsAs_generate (request : GenerationRequest) :
    FailsAs (GenerationError request) (.post request.encode) (generate request) :=
  failsAs_of_read fun _ _ failed => generationError_of_readGenerated failed

/-- A lookup never fails in the way of a generation. -/
theorem FailedLookup.ne_generation {name : String} {outcome : Outcome} {failure : ServerError}
    (failed : FailedLookup name outcome failure) (text : String) : failure ≠ .generation text := by
  cases failed <;> exact nofun

end Client

/-- The two classifications agree on an error unless a generation failed. -/
theorem ServerError.isReportable_iff_reported_iff (error : ServerError) :
    (error.isReportable = true ↔ ∃ text, FetchFailure.ofServer error = .reported text) ↔
      ∀ text, error ≠ .generation text := by
  cases error <;> simp [isReportable, FetchFailure.ofServer]

namespace Resolution

variable {qualify : String → String} {tree : Json} {ignored : List SubtreePattern}
  {names : List (Path × NamePath)} {earlier later transcript : List (Exchange Fetching)}
  {base text : String} {result : Except ResolutionError Json}

/-- What a fetch reports is among the failures in the end. -/
theorem Settling.mem_failures {progress final : Progress}
    (settled : Settling qualify names progress transcript (.ok final))
    (member : fetching base (.error (.reported text)) ∈ transcript) :
    .unavailable text ∈ final.failures := by
  generalize succeeded : Except.ok final = settlement at settled
  induction settled with
  | finished => cases member
  | known _ _ ih => exact ih member succeeded
  | fetched _ _ ih =>
    rcases List.mem_cons.mp member with same | later
    · cases same
    · exact ih later succeeded
  | reported _ tail ih =>
    subst succeeded
    rcases List.mem_cons.mp member with same | later
    · cases same
      -- Later steps only add failures to the one that is noted here.
      exact tail.failures_prefix.subset (List.mem_append_right _ (List.mem_singleton.mpr rfl))
    · exact ih later rfl
  | fatal => cases succeeded

/-- A resolution goes on after a fetch that reports, and in the end tells of it, unless a later
fetch is fatal. -/
theorem told_or_overridden
    (ended : Ends (resolve tree ignored qualify)
      (earlier ++ fetching base (.error (.reported text)) :: later) result) :
    (∃ failures, .unavailable text ∈ failures ∧ result = .error (.placeholders failures)) ∨
      ∃ between other cause, later = between ++ [fetching other (.error (.fatal cause))] ∧
        result = .error cause := by
  have member : fetching base (.error (.reported text)) ∈
      earlier ++ fetching base (.error (.reported text)) :: later :=
    List.mem_append_right _ List.mem_cons_self
  rcases ends_resolve_cases ended with ⟨_, none⟩ | ⟨names, settled, _, settling, rfl⟩
  · exact absurd none (List.ne_nil_of_mem member)
  rcases settling.unfatal_or_fatal with ⟨_, _, final, rfl⟩ | ⟨before, other, cause, same, _, rfl⟩
  · have among := settling.mem_failures member
    refine .inl ⟨final.failures, among, ?_⟩
    rw [conclude, if_neg]
    exact fun empty => List.ne_nil_of_mem among (List.isEmpty_iff.mp empty)
  · rcases last_or_later same with ⟨_, given⟩ | ⟨between, rfl, _⟩
    · cases given
    · exact .inr ⟨between, other, cause, rfl, rfl⟩

end Resolution

namespace Interpolation

open Engine Resolution

variable {fetch : String → Fetch Json} {name : String} {id : VariableId} {outcome : Outcome}
  {transcript rest : List (Exchange Needs)} {reply : Except FetchFailure Json}
  {error : ServerError}

/-! ### Errors that a fetch receives -/

/-- The client gives an error for an exchange, which is the lookup of a name or of one of its
versions. -/
inductive Receives (name : String) : Exchange Needs → ServerError → Prop where
  | latest {outcome : Outcome} {error : ServerError}
      (read : Client.readByName name outcome = .error error) :
      Receives name (called (.get name) outcome) error
  | version {id : VariableId} {outcome : Outcome} {error : ServerError}
      (read : Client.readById name id outcome = .error error) :
      Receives name (called (.getById id) outcome) error

theorem Receives.ne_generation {exchange : Exchange Needs}
    (received : Receives name exchange error) (text : String) : error ≠ .generation text := by
  cases received with
  | latest read => exact (Client.failedLookup_of_readByName read).ne_generation text
  | version read => exact (Client.failedLookup_of_readById read).ne_generation text

/-- Each error that is received is what the fetch fails with. -/
def PassesOn (name : String) (transcript : List (Exchange Needs))
    (reply : Except FetchFailure Json) : Prop :=
  ∀ exchange ∈ transcript, ∀ error, Receives name exchange error →
    reply = .error (FetchFailure.ofServer error)

theorem passesOn_nil : PassesOn name [] reply := nofun

theorem PassesOn.asked {query : Ledger.Query} {answer : Except LedgerError query.Result}
    (followed : PassesOn name rest reply) : PassesOn name (asked query answer :: rest) reply :=
  List.forall_mem_cons.mpr ⟨nofun, followed⟩

theorem PassesOn.adding {set : VariableSet} {row : Association} {added : List (Exchange Needs)}
    {result : Except StoreError VariableId} (adding : Adding set row added result)
    (followed : PassesOn name rest reply) : PassesOn name (added ++ rest) reply := by
  cases adding with
  | frozen => exact followed
  | added => exact followed.asked
  | failed => exact followed.asked
  | unread => exact followed.asked.asked
  | missing => exact followed.asked.asked
  | held => exact followed.asked.asked

/-- A lookup that found something gave no error. -/
theorem PassesOn.found {latest : Variable} (read : Client.readByName name outcome = .ok latest)
    (followed : PassesOn name rest reply) :
    PassesOn name (called (.get name) outcome :: rest) reply := by
  refine List.forall_mem_cons.mpr ⟨fun error received => ?_, followed⟩
  cases received with
  | latest failed => cases read.symm.trans failed

theorem passesOn_readLatest :
    PassesOn name [called (.get name) outcome] (readLatest name outcome) := by
  refine List.forall_mem_singleton.mpr fun error received => ?_
  cases received with
  | latest failed =>
    rw [readLatest, failed]
    rfl

theorem passesOn_readVersion :
    PassesOn name [called (.getById id) outcome] (readVersion name id outcome) := by
  refine List.forall_mem_singleton.mpr fun error received => ?_
  cases received with
  | version failed =>
    rw [readVersion, failed]
    rfl

theorem passesOn_fetchLatest (ended : Ends (fetchLatest name) transcript reply) :
    PassesOn name transcript reply := by
  rw [fetchLatest_eq] at ended
  obtain ⟨outcome, rest, rfl, tail⟩ := ends_ask_iff.mp ended
  obtain ⟨rfl, rfl⟩ := ends_done_iff.mp tail
  exact passesOn_readLatest

theorem passesOn_pinnedFetch {set : VariableSet} (fetch : PinnedFetch set name transcript reply) :
    PassesOn name transcript reply := by
  cases fetch with
  | unread => exact passesOn_nil.asked
  | pinned => exact passesOn_readVersion.asked
  | unrecorded => exact passesOn_nil.asked
  | @unknown _ outcome error read =>
    have unread : readLatest name outcome = .error (FetchFailure.ofServer error) := by
      rw [readLatest, read]
      rfl
    rw [← unread]
    exact passesOn_readLatest.asked
  | refused _ read adding => simpa using ((passesOn_nil.adding adding).found read).asked
  | recorded _ read adding => simpa using ((passesOn_nil.adding adding).found read).asked
  | overtaken _ read adding => exact ((passesOn_readVersion.adding adding).found read).asked

theorem passesOn_linkedFetch {consumer provider : VariableSet}
    (fetch : LinkedFetch consumer provider name transcript reply) :
    PassesOn name transcript reply := by
  cases fetch with
  | unread => exact passesOn_nil.asked
  | bound => exact passesOn_readVersion.asked
  | unrecorded => exact passesOn_nil.asked
  | unreadProvider => exact passesOn_nil.asked.asked
  | unprovided => exact passesOn_nil.asked.asked
  | refused _ adding => simpa using (passesOn_nil.adding adding).asked.asked
  | copied _ adding => exact (passesOn_readVersion.adding adding).asked.asked

/-- However a value is fetched, an error of the client is passed on. -/
theorem passesOn_fetch (fetcher : Fetcher fetch) (ended : Ends (fetch name) transcript reply) :
    PassesOn name transcript reply := by
  cases fetcher with
  | latest => exact passesOn_fetchLatest ended
  | pinned => exact passesOn_pinnedFetch (ends_fetchPinned_iff.mp ended)
  | linked => exact passesOn_linkedFetch (ends_fetchLinked_iff.mp ended)

variable {tree : Json} {ignored : List SubtreePattern} {qualify : String → String}
  {base : String} {earlier later : List (Exchange Fetching)} {exchange : Exchange Needs}
  {result : Except ResolutionError Json}

/-! ### What a resolution makes of them -/

/-- An error is collected: the resolution goes on after it and tells of it in the end, unless
one of the `later` fetches is fatal. -/
inductive Collects (error : ServerError) (later : List (Exchange Fetching)) :
    Except ResolutionError Json → Prop where
  | told {failures : List PlaceholderFailure} (among : .unavailable error.message ∈ failures) :
      Collects error later (.error (.placeholders failures))
  | overridden {between : List (Exchange Fetching)} {other : String} {cause : ResolutionError}
      (fatal : later = between ++ [fetching other (.error (.fatal cause))]) :
      Collects error later (.error cause)

/-- An error ends the resolution: it is the result as it is, and there is no later fetch. -/
inductive Aborts : ServerError → List (Exchange Fetching) → Except ResolutionError Json → Prop where
  | intro {failure : TransportError} : Aborts (.transport failure) [] (.error (.transport failure))

/-- An exchange is made in the fetch of `base` within a run of a resolution, and the `later`
fetches come after this fetch. -/
inductive MadeIn (fetch : String → Fetch Json)
    (resolution : Program Fetching (Except ResolutionError Json)) (exchange : Exchange Needs)
    (base : String) (later : List (Exchange Fetching)) :
    List (Exchange Needs) → Except ResolutionError Json → Prop where
  | intro {earlier : List (Exchange Fetching)} {before inner after : List (Exchange Needs)}
      {reply : Except FetchFailure Json} {result : Except ResolutionError Json}
      (ended : Ends resolution (earlier ++ fetching base reply :: later) result)
      (preceded : Expands fetch earlier before) (fetched : Ends (fetch base) inner reply)
      (followed : Expands fetch later after) (among : exchange ∈ inner) :
      MadeIn fetch resolution exchange base later (before ++ inner ++ after) result

theorem exists_madeIn (ended : Ends (resolveWith fetch tree ignored qualify) transcript result)
    (member : exchange ∈ transcript) :
    ∃ base later, MadeIn fetch (resolve tree ignored qualify) exchange base later transcript
      result := by
  obtain ⟨fetches, resolved, expanded⟩ := ends_translate_iff.mp ended
  obtain ⟨_, ⟨base, _⟩, later, _, _, _, rfl, rfl, preceded, fetched, followed, among⟩ :=
    expanded.exists_split_of_mem member
  exact ⟨base, later, .intro resolved preceded fetched followed among⟩

/-- Within a resolution, an error that is no failure of a generation is reportable just where it
is collected. -/
theorem isReportable_iff_of_ends_resolve
    (ended : Ends (resolve tree ignored qualify)
      (earlier ++ fetching base (.error (FetchFailure.ofServer error)) :: later) result)
    (looked : ∀ text, error ≠ .generation text) :
    (error.isReportable = true ↔ Collects error later result) ∧
      (error.isReportable = false ↔ Aborts error later result) := by
  have collects (reported : FetchFailure.ofServer error = .reported error.message) :
      Collects error later result := by
    rw [reported] at ended
    rcases told_or_overridden ended with ⟨failures, among, rfl⟩ | ⟨_, _, _, fatal, rfl⟩
    · exact .told among
    · exact .overridden fatal
  cases error with
  | notFound text => exact ⟨⟨fun _ => collects rfl, fun _ => rfl⟩, nofun, nofun⟩
  | fetch text => exact ⟨⟨fun _ => collects rfl, fun _ => rfl⟩, nofun, nofun⟩
  | generation text => exact absurd rfl (looked text)
  | transport failure =>
    obtain ⟨rfl, rfl⟩ := ends_after_fatal ended
    refine ⟨⟨nofun, fun collects => ?_⟩, fun _ => .intro, fun _ => rfl⟩
    cases collects with
    | overridden fatal => exact absurd fatal.symm (List.concat_ne_nil _ _)

/-- Lookups fail for want of the variable, with a malformed answer, or as their call does, and
generations with a text that names what was to be generated, or as their call does. Of these
only the failures of generations are classified differently by the client and by a resolution.
So an error that a fetch receives within a resolution is reportable just where the resolution
collects it, and not reportable just where the resolution ends with it. -/
theorem isReportable_iff_collects :
    ((∀ name, Client.FailsAs (Client.FailedLookup name) (.get name) (Client.getByName name)) ∧
      (∀ name id,
        Client.FailsAs (Client.FailedLookup name) (.getById id) (Client.getById name id)) ∧
      ∀ request : GenerationRequest,
        Client.FailsAs (Client.GenerationError request) (.post request.encode)
          (Client.generate request)) ∧
    (∀ error : ServerError,
      (error.isReportable = true ↔ ∃ text, FetchFailure.ofServer error = .reported text) ↔
        ∀ text, error ≠ .generation text) ∧
    ∀ {fetch : String → Fetch Json}, Fetcher fetch →
      ∀ {tree : Json} {ignored : List SubtreePattern} {qualify : String → String}
        {transcript : List (Exchange Needs)} {result : Except ResolutionError Json},
      Ends (resolveWith fetch tree ignored qualify) transcript result →
        (∀ exchange ∈ transcript, ∃ base later,
          MadeIn fetch (resolve tree ignored qualify) exchange base later transcript result) ∧
        ∀ exchange base later error,
          MadeIn fetch (resolve tree ignored qualify) exchange base later transcript result →
          Receives base exchange error →
            (error.isReportable = true ↔ Collects error later result) ∧
              (error.isReportable = false ↔ Aborts error later result) := by
  refine ⟨⟨Client.failsAs_getByName, Client.failsAs_getById, Client.failsAs_generate⟩,
    ServerError.isReportable_iff_reported_iff, ?_⟩
  intro fetch fetcher tree ignored qualify transcript result ended
  refine ⟨fun exchange member => exists_madeIn ended member, ?_⟩
  rintro exchange base later error ⟨resolved, _, fetched, _, among⟩ received
  obtain rfl := passesOn_fetch fetcher fetched exchange among error received
  exact isReportable_iff_of_ends_resolve resolved received.ne_generation

/-- A lookup of the first variable of the manifest, which there is none of. -/
def absentLookup : Exchange Needs :=
  called (.get "/d/o/missing") (.ok Versions.missing)

/-- A lookup of the second one, during which the connection is lost. -/
def lostLookup : Exchange Needs :=
  called (.get "/d/o/pw") (.error (.connection "refused"))

/-- The fetches that these lookups are made for. -/
def absentFetch : Exchange Fetching :=
  fetching "/d/o/missing" (.error (.reported missingText))

def lostFetch : Exchange Fetching :=
  fetching "/d/o/pw" (.error (.fatal (.transport (.connection "refused"))))

theorem receives_absentLookup :
    Receives "/d/o/missing" absentLookup (.notFound missingText) := .latest rfl

theorem receives_lostLookup :
    Receives "/d/o/pw" lostLookup (.transport (.connection "refused")) := .latest rfl

theorem ends_fetchLatest_absent :
    Ends (fetchLatest "/d/o/missing") [absentLookup] absentFetch.answer := by
  rw [fetchLatest_eq]
  exact .ask (.refl _)

theorem ends_fetchLatest_lost :
    Ends (fetchLatest "/d/o/pw") [lostLookup] lostFetch.answer := by
  rw [fetchLatest_eq]
  exact .ask (.refl _)

theorem ends_resolve_lost :
    Ends (resolve failingManifest [] (Name.qualify "d" "o"))
      [absentFetch, lostFetch]
      (.error (.transport (.connection "refused"))) := by
  have missing : Name.qualify "d" "o" "missing" = "/d/o/missing" := by decide +kernel
  have pw : Name.qualify "d" "o" "pw" = "/d/o/pw" := by decide +kernel
  refine (ends_resolve_iff parseSites_failingManifest).mpr ⟨.error _, ?_, rfl⟩
  rw [absentFetch, lostFetch, ← missing, ← pw]
  exact .reported rfl (.fatal rfl)

/-- An absent variable is collected and a lost connection ends the resolution, which does not
come to tell of the variable then. -/
theorem isReportable_iff_collects_failingManifest :
    Ends (resolveWith fetchLatest failingManifest [] (Name.qualify "d" "o"))
        [absentLookup, lostLookup] (.error (.transport (.connection "refused"))) ∧
      Receives "/d/o/missing" absentLookup (.notFound missingText) ∧
      Collects (.notFound missingText) [lostFetch] (.error (.transport (.connection "refused"))) ∧
      Receives "/d/o/pw" lostLookup (.transport (.connection "refused")) ∧
      Aborts (.transport (.connection "refused")) []
        (.error (.transport (.connection "refused"))) := by
  let outcome : Except ResolutionError Json := .error (.transport (.connection "refused"))
  have afterAbsent : Expands (I := Fetching) fetchLatest [lostFetch] ([lostLookup] ++ []) :=
    .cons ends_fetchLatest_lost .nil
  have beforeLost : Expands (I := Fetching) fetchLatest [absentFetch] ([absentLookup] ++ []) :=
    .cons ends_fetchLatest_absent .nil
  have both : Expands (I := Fetching) fetchLatest [absentFetch, lostFetch]
      ([absentLookup] ++ ([lostLookup] ++ [])) :=
    .cons ends_fetchLatest_absent afterAbsent
  have ended : Ends (resolveWith fetchLatest failingManifest [] (Name.qualify "d" "o"))
      [absentLookup, lostLookup] outcome :=
    ends_translate_iff.mpr ⟨_, ends_resolve_lost, both⟩
  have absentThenLost : Ends (resolve failingManifest [] (Name.qualify "d" "o"))
      ([] ++ absentFetch :: [lostFetch]) outcome := ends_resolve_lost
  have lostAfterAbsent : Ends (resolve failingManifest [] (Name.qualify "d" "o"))
      ([absentFetch] ++ lostFetch :: []) outcome := ends_resolve_lost
  have absent : MadeIn fetchLatest (resolve failingManifest [] (Name.qualify "d" "o")) absentLookup
      "/d/o/missing" [lostFetch] ([] ++ [absentLookup] ++ [lostLookup]) outcome :=
    .intro absentThenLost .nil ends_fetchLatest_absent afterAbsent List.mem_cons_self
  have lost : MadeIn fetchLatest (resolve failingManifest [] (Name.qualify "d" "o")) lostLookup
      "/d/o/pw" [] ([absentLookup] ++ [lostLookup] ++ []) outcome :=
    .intro lostAfterAbsent beforeLost ends_fetchLatest_lost .nil List.mem_cons_self
  obtain ⟨_, classified⟩ := isReportable_iff_collects.2.2 .latest ended
  exact ⟨ended, receives_absentLookup,
    (classified _ _ _ _ absent receives_absentLookup).1.mp rfl, receives_lostLookup,
    (classified _ _ _ _ lost receives_lostLookup).2.mp rfl⟩

end Interpolation

end ManifestVariables
