import ManifestVariables.Proofs.Interpolation.Fetchers
import ManifestVariables.Proofs.Resolution.Failures

/-!
# The failures of an interpolation

A manifest with well-formed names ends as its fetches tell, and however values are fetched,
each failure that is told starts with the name of the variable at its placeholder
(`Interpolation.failures_aggregated`).
-/

namespace ManifestVariables.Interpolation

open Program Engine Resolution

variable {tree : Json} {ignored : List SubtreePattern} {qualify : String → String}
  {names : List (Path × NamePath)} {fetches transcript : List (Exchange Fetching)}
  {failures : List PlaceholderFailure}

/-- Each text that was reported names its variable, and each fatal error is of the
surroundings. -/
def FailAsFetches (fetches : List (Exchange Fetching)) : Prop :=
  ∀ base failure, fetching base (.error failure) ∈ fetches → FailedFetch base failure

/-- Running a way to fetch values gives no other failures. -/
theorem failAsFetches_inTurn {σ : Type} {answer : (need : Need) → σ → need.Reply × σ}
    {fetch : String → Fetch Json} (fetcher : Fetcher fetch) (questions : List String) (state : σ) :
    FailAsFetches
      (inTurn (I := Fetching) (fun name state => Program.run answer (fetch name) state) questions
        state) := by
  intro base failure member
  obtain ⟨before, failed⟩ : ∃ before,
      Except.error failure = (Program.run answer (fetch base) before).1 :=
    exists_state_of_mem_inTurn member
  have ended := ends_transcript (I := Needs) answer (fetch base) before
  rw [← failed] at ended
  exact failsOnly_fetcher fetcher base _ _ ended

/-- A placeholder adds at most one failure, which names its variable. -/
theorem names_of_adds {base : String} {keys : List String} {told : Prop}
    {reply : Except FetchFailure Json} {added : List PlaceholderFailure}
    (adds : Adds base keys told reply added)
    (fails : ∀ failure, reply = .error failure → FailedFetch base failure) :
    added = [] ∨ ∃ failure, added = [failure] ∧ Client.Names base failure.message := by
  cases adds with
  | unavailable =>
    cases fails _ rfl with
    | reported names => exact .inr ⟨_, rfl, names⟩
  | again => exact .inl rfl
  | missingKey =>
    have quoted : "' from config server: Expected parent '" =
        "'" ++ " from config server: Expected parent '" := by simp
    exact .inr ⟨_, rfl, ((((Client.names_fetch quoted).append _).append _).append _).append _⟩
  | present => exact .inl rfl

/-- The failures come from some of the placeholders in order, and each names the variable of
its placeholder. -/
theorem names_of_collected {earlier : List String} (fails : FailAsFetches fetches)
    (collected : Collected qualify fetches earlier names failures) :
    ∃ sites, sites.Sublist names ∧
      List.Forall₂ (fun failure site => Client.Names (qualify site.2.base) failure.message)
        failures sites := by
  induction collected with
  | nil => exact ⟨[], .refl _, .nil⟩
  | @cons earlier path name rest reply added failures fetched adds _ ih =>
    obtain ⟨sites, among, named⟩ := ih
    have own : ∀ failure, reply = .error failure → FailedFetch (qualify name.base) failure :=
      fun failure failed => fails _ _ (failed ▸ fetched)
    rcases names_of_adds adds own with rfl | ⟨failure, rfl, here⟩
    · exact ⟨sites, among.cons _, named⟩
    · exact ⟨(path, name) :: sites, among.cons_cons _, .cons here named⟩

/-- An error that a resolution ends with comes from a fetch or is made of what was
collected. -/
theorem error_of_aggregated {result : Except ResolutionError Json} {error : ResolutionError}
    (fails : FailAsFetches fetches)
    (aggregated : Aggregated qualify names fetches transcript result)
    (failed : result = .error error) :
    OfSurroundings error ∨
      ∃ failures, error = .placeholders failures ∧
        Collected qualify fetches [] names failures := by
  subst failed
  rcases none_or_first IsFatal fetches with
    unfatal | ⟨before, _, after, same, first, base, cause, rfl⟩
  · obtain ⟨_, failures, collected, _, ⟨_, _, succeeded⟩ | ⟨_, failed⟩⟩ :=
      aggregated.collected unfatal
    · cases succeeded
    · cases failed
      exact .inr ⟨failures, rfl, collected⟩
  · obtain ⟨_, failed⟩ := aggregated.fatal before base cause after same first
    cases failed
    have last : fetching base (.error (.fatal error)) ∈ fetches := by
      rw [same]
      exact List.mem_append_right _ List.mem_cons_self
    cases fails _ _ last with
    | fatal outer => exact .inl outer

/-- An interpolation of well-formed names fails for reasons of the surroundings or with the
failures of its placeholders. -/
theorem error_of_resolveWith {σ : Type} {answer : (need : Need) → σ → need.Reply × σ} {state : σ}
    {fetch : String → Fetch Json} {error : ResolutionError} (fetcher : Fetcher fetch)
    (wellFormed : ∀ site ∈ Tree.sites tree ignored, site.WellFormed)
    (failed : ((resolveWith fetch tree ignored qualify).run answer state).1 = .error error) :
    OfSurroundings error ∨
      ∃ failures, error = .placeholders failures ∧
        Collected qualify
          (inTurn (I := Fetching) (fun name state => Program.run answer (fetch name) state)
            (bases qualify (placeholders tree ignored)) state)
          [] (placeholders tree ignored) failures := by
  have aggregated := aggregated_resolve qualify wellFormed
    (fun name state => Program.run answer (fetch name) state) state
  have same := congrArg Prod.fst (run_resolveWith answer fetch tree ignored qualify state)
  exact error_of_aggregated (failAsFetches_inTurn fetcher _ _) aggregated
    (same.symm.trans failed)

/-- Where all names are well formed, a resolution ends as its fetches tell: with the first
fatal failure, with the failures of its placeholders in order, or with a tree. However an
interpolation fetches values, the failures that it tells name the variables of their
placeholders. -/
theorem failures_aggregated (qualify : String → String)
    (wellFormed : ∀ site ∈ Tree.sites tree ignored, site.WellFormed) :
    (∀ {σ : Type} (fetch : String → σ → Except FetchFailure Json × σ) (state : σ),
      Aggregated qualify (placeholders tree ignored)
        (inTurn (I := Fetching) fetch (bases qualify (placeholders tree ignored)) state)
        ((resolve tree ignored qualify).transcript fetch state)
        ((resolve tree ignored qualify).run fetch state).1) ∧
      ∀ {fetch : String → Fetch Json}, Fetcher fetch →
        ∀ {σ : Type} (answer : (need : Need) → σ → need.Reply × σ) (state : σ) failures,
          ((resolveWith fetch tree ignored qualify).run answer state).1 =
              .error (.placeholders failures) →
            ∃ sites, sites.Sublist (placeholders tree ignored) ∧
              List.Forall₂ (fun failure site =>
                Client.Names (qualify site.2.base) failure.message) failures sites := by
  refine ⟨fun fetch state => aggregated_resolve qualify wellFormed fetch state, ?_⟩
  intro fetch fetcher σ answer state failures failed
  rcases error_of_resolveWith fetcher wellFormed failed with outer | ⟨_, same, collected⟩
  · cases outer
  · cases same
    exact names_of_collected (failAsFetches_inTurn fetcher _ _) collected

/-- A manifest with a variable that is missing in two places and a key that a value lacks,
and what is told about it. -/
def failingManifest : Json :=
  .obj [("first", .str "((missing))"), ("port", .str "((pw.port))"), ("last", .str "((missing))")]

def missingText : String :=
  "Failed to find variable '/d/o/missing' from config server: HTTP Code '404', Error: 'Name not found'"

def toldFailures : List PlaceholderFailure :=
  [.unavailable missingText, .missingKey "/d/o/pw" "/d/o/pw" "port"]

theorem parseSites_failingManifest :
    parseSites (Tree.sites failingManifest []) =
      .ok [([.key "first"], ⟨"missing", []⟩), ([.key "port"], ⟨"pw", ["port"]⟩),
        ([.key "last"], ⟨"missing", []⟩)] :=
  eq_ok_of_toOption (by decide +kernel)

/-- The fetches of the manifest in turn. -/
def failingFetches : List (Exchange Fetching) :=
  [fetching "/d/o/missing" (.error (.reported missingText)), fetching "/d/o/pw" (.ok (.str "old"))]

theorem inTurn_failingManifest :
    inTurn (I := Fetching) (fun name world => Program.run World.answer (fetchLatest name) world)
      ["/d/o/missing", "/d/o/pw"] (calm sampleVersions sampleLedger) = failingFetches := by
  cbv

theorem collected_failingFetches :
    Collected (Name.qualify "d" "o") failingFetches [] (placeholders failingManifest [])
      toldFailures := by
  obtain ⟨_, names⟩ := wellFormed_of_parseSites parseSites_failingManifest
  have missing : Name.qualify "d" "o" "missing" = "/d/o/missing" := by decide +kernel
  have pw : Name.qualify "d" "o" "pw" = "/d/o/pw" := by decide +kernel
  have absent : fetching (Name.qualify "d" "o" "missing") (.error (.reported missingText)) ∈
      failingFetches := by
    rw [missing]
    exact List.mem_cons_self
  have held : fetching (Name.qualify "d" "o" "pw") (.ok (.str "old")) ∈ failingFetches := by
    rw [pw]
    exact List.mem_cons_of_mem _ List.mem_cons_self
  have lacking (told : Prop) : Adds (Name.qualify "d" "o" "pw") ["port"] told (.ok (.str "old"))
      [.missingKey "/d/o/pw" "/d/o/pw" "port"] := by
    have split : ["port"] = [] ++ "port" :: [] := rfl
    rw [pw]
    exact .missingKey split rfl rfl
  rw [placeholders, names]
  show Collected _ _ _ _
    ([.unavailable missingText] ++ ([.missingKey "/d/o/pw" "/d/o/pw" "port"] ++ ([] ++ [])))
  exact .cons absent (.unavailable List.not_mem_nil)
    (.cons held (lacking _) (.cons absent (.again (by simp)) .nil))

theorem failures_aggregated_failingManifest :
    ((resolveWith fetchLatest failingManifest [] (Name.qualify "d" "o")).run World.answer
        (calm sampleVersions sampleLedger)).1 = .error (.placeholders toldFailures) ∧
      ∃ sites, sites.Sublist (placeholders failingManifest []) ∧
        List.Forall₂ (fun failure site =>
          Client.Names (Name.qualify "d" "o" site.2.base) failure.message) toldFailures sites := by
  obtain ⟨wellFormed, names⟩ := wellFormed_of_parseSites parseSites_failingManifest
  obtain ⟨aggregated, named⟩ := failures_aggregated (Name.qualify "d" "o") wellFormed
  have inOrder : bases (Name.qualify "d" "o") (placeholders failingManifest []) =
      ["/d/o/missing", "/d/o/pw"] := by
    rw [placeholders, names]
    decide +kernel
  have tells := aggregated (fun name world => Program.run World.answer (fetchLatest name) world)
    (calm sampleVersions sampleLedger)
  have fetches : inTurn (I := Fetching)
      (fun name world => Program.run World.answer (fetchLatest name) world)
      (bases (Name.qualify "d" "o") (placeholders failingManifest []))
      (calm sampleVersions sampleLedger) = failingFetches :=
    (congrArg (inTurn (I := Fetching) _ · _) inOrder).trans inTurn_failingManifest
  have unfatal : ∀ exchange ∈ failingFetches, ¬ IsFatal exchange :=
    List.forall_mem_cons.mpr ⟨not_isFatal_reported _ _,
      List.forall_mem_singleton.mpr (not_isFatal_ok _ _)⟩
  obtain ⟨_, failures, _, determined, told⟩ := tells.collected (fetches ▸ unfatal)
  obtain rfl : toldFailures = failures := determined _ (fetches ▸ collected_failingFetches)
  rcases told with ⟨none, _⟩ | ⟨_, failed⟩
  · cases none
  · have run := congrArg Prod.fst (run_resolveWith World.answer fetchLatest failingManifest []
      (Name.qualify "d" "o") (calm sampleVersions sampleLedger))
    exact ⟨run.trans failed, named .latest World.answer _ _ (run.trans failed)⟩

end ManifestVariables.Interpolation
