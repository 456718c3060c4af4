import ManifestVariables.Proofs.Interpolation.Fetchers
import ManifestVariables.Proofs.Interpolation.LinkedFetch
import ManifestVariables.Proofs.Name.Namespaces
import ManifestVariables.Proofs.Name.Placeholder
import ManifestVariables.Proofs.Resolution.Phases
import ManifestVariables.Settings.Validation

/-!
# Interpolating within a namespace

Whichever way a tree is interpolated, the names that are looked up or pinned are qualified
bases of its placeholders. So where the trees of two deployments have relative names only,
and neither deployment is within the other, no name comes up for both
(`Interpolation.namespaces_disjoint`).
-/

namespace ManifestVariables.Interpolation

open Program Engine Resolution
open Name (Within IsRelative)

variable {director deployment name : String} {tree : Json} {ignored : List SubtreePattern}
  {transcript : List (Exchange Needs)}

/-- The name that is looked up, at the config server or in the ledger, or pinned. -/
def name? : Need → Option String
  | .call (.get name) => some name
  | .ledger (.findId _ name) => some name
  | .ledger (.insert row) => some row.name
  | _ => none

/-- The names that are looked up or pinned. -/
def namesUsed (transcript : List (Exchange Needs)) : List String :=
  transcript.filterMap fun exchange => name? exchange.question

/-- A tree is interpolated for a deployment, which its relative names belong to. -/
inductive InterpolatesFor (director deployment : String) (tree : Json)
    (ignored : List SubtreePattern) : Program Needs (Except ResolutionError Json) → Prop where
  | latest (mustBeAbsolute : Bool) :
      InterpolatesFor director deployment tree ignored
        (latest director tree ⟨mustBeAbsolute, ignored, some deployment⟩)
  | pinned (set : VariableSet) (mustBeAbsolute : Bool) {chosen : Option String}
      (own : chosen.getD set.deployment = deployment) :
      InterpolatesFor director deployment tree ignored
        (pinned director tree set ⟨mustBeAbsolute, ignored, chosen⟩)
  | linked (consumer provider : VariableSet) (mustBeAbsolute : Bool) {chosen : Option String}
      (own : provider.deployment = deployment) :
      InterpolatesFor director deployment tree ignored
        (linked director tree consumer provider ⟨mustBeAbsolute, ignored, chosen⟩)

/-- The names in the placeholders of a tree are relative. -/
def HasRelativeNames (tree : Json) (ignored : List SubtreePattern) : Prop :=
  ∀ site ∈ Tree.sites tree ignored, ∀ name, Placeholder.name site.placeholder = .ok name →
    Name.isAbsolute name = false

/-- A question is about no other name. -/
def Concerns (name : String) (need : Need) : Prop :=
  ∀ found, name? need = some found → found = name

section Concerns

variable {set : VariableSet} {id : VariableId} {outcome : Outcome}

theorem concerns_findId (reply : Except LedgerError (Option VariableId)) :
    Concerns name (asked (.findId set.id name) reply).question := by
  simp [Concerns, name?]

theorem concerns_get : Concerns name (called (.get name) outcome).question := by
  simp [Concerns, name?]

theorem concerns_getById : Concerns name (called (.getById id) outcome).question := by
  simp [Concerns, name?]

theorem concerns_adding {row : Association} {result : Except StoreError VariableId}
    (adding : Adding set row transcript result) :
    ∀ exchange ∈ transcript, Concerns row.name exchange.question := by
  cases adding <;> simp [Concerns, name?]

theorem concerns_fetchLatest {reply : Except FetchFailure Json}
    (ended : Ends (fetchLatest name) transcript reply) :
    ∀ exchange ∈ transcript, Concerns name exchange.question := by
  have alone (outcome : Outcome) : ∀ exchange ∈ [called (.get name) outcome],
      Concerns name exchange.question :=
    List.forall_mem_singleton.mpr concerns_get
  rcases ends_bind_iff.mp ended with ⟨_, failed, _⟩ | ⟨_, _, _, rfl, found, followed⟩
  · obtain ⟨outcome, rfl, _⟩ := ends_getByName_iff.mp failed
    exact alone outcome
  · obtain ⟨outcome, rfl, _⟩ := ends_getByName_iff.mp found
    obtain ⟨rfl, _⟩ := ends_done_iff.mp followed
    exact alone outcome

theorem concerns_pinnedFetch {reply : Except FetchFailure Json}
    (fetch : PinnedFetch set name transcript reply) :
    ∀ exchange ∈ transcript, Concerns name exchange.question := by
  have lacking {outcome : Outcome} {rest : List (Exchange Needs)}
      (others : ∀ exchange ∈ rest, Concerns name exchange.question) :
      ∀ exchange ∈ asked (.findId set.id name) (.ok none) :: called (.get name) outcome :: rest,
        Concerns name exchange.question :=
    List.forall_mem_cons.mpr
      ⟨concerns_findId _, List.forall_mem_cons.mpr ⟨concerns_get, others⟩⟩
  cases fetch with
  | unread => exact List.forall_mem_singleton.mpr (concerns_findId _)
  | pinned =>
    exact List.forall_mem_cons.mpr
      ⟨concerns_findId _, List.forall_mem_singleton.mpr concerns_getById⟩
  | unrecorded => exact List.forall_mem_singleton.mpr (concerns_findId _)
  | unknown => exact lacking nofun
  | refused _ _ adding => exact lacking (concerns_adding adding)
  | recorded _ _ adding => exact lacking (concerns_adding adding)
  | overtaken _ _ adding =>
    exact lacking (List.forall_mem_append.mpr
      ⟨concerns_adding adding, List.forall_mem_singleton.mpr concerns_getById⟩)

theorem concerns_linkedFetch {consumer provider : VariableSet} {reply : Except FetchFailure Json}
    (fetch : LinkedFetch consumer provider name transcript reply) :
    ∀ exchange ∈ transcript, Concerns name exchange.question := by
  have lacking {held : Except LedgerError (Option VariableId)} {rest : List (Exchange Needs)}
      (others : ∀ exchange ∈ rest, Concerns name exchange.question) :
      ∀ exchange ∈ asked (.findId consumer.id name) (.ok none) ::
          asked (.findId provider.id name) held :: rest,
        Concerns name exchange.question :=
    List.forall_mem_cons.mpr
      ⟨concerns_findId _, List.forall_mem_cons.mpr ⟨concerns_findId _, others⟩⟩
  cases fetch with
  | unread => exact List.forall_mem_singleton.mpr (concerns_findId _)
  | bound =>
    exact List.forall_mem_cons.mpr
      ⟨concerns_findId _, List.forall_mem_singleton.mpr concerns_getById⟩
  | unrecorded => exact List.forall_mem_singleton.mpr (concerns_findId _)
  | unreadProvider => exact lacking nofun
  | unprovided => exact lacking nofun
  | refused _ adding => exact lacking (concerns_adding adding)
  | copied _ adding =>
    exact lacking (List.forall_mem_append.mpr
      ⟨concerns_adding adding, List.forall_mem_singleton.mpr concerns_getById⟩)

end Concerns

/-- However a value is fetched, no other name is used. -/
theorem concerns_fetch {fetch : String → Fetch Json} (fetcher : Fetcher fetch)
    {reply : Except FetchFailure Json} (ended : Ends (fetch name) transcript reply) :
    ∀ exchange ∈ transcript, Concerns name exchange.question := by
  cases fetcher with
  | latest => exact concerns_fetchLatest ended
  | pinned => exact concerns_pinnedFetch (ends_fetchPinned_iff.mp ended)
  | linked => exact concerns_linkedFetch (ends_fetchLinked_iff.mp ended)

variable {program : Program Needs (Except ResolutionError Json)}
  {result : Except ResolutionError Json}

/-- An interpolation for a deployment is refused or resolves the tree, with names qualified
under the deployment. -/
theorem InterpolatesFor.refused_or_resolves
    (interpolates : InterpolatesFor director deployment tree ignored program) :
    (∃ error, program = .done (.error error)) ∨
      ∃ fetch, Fetcher fetch ∧
        program = resolveWith fetch tree ignored (Name.qualify director deployment) := by
  have checked (options : InterpolationOptions) {fetch : String → Fetch Json}
      (fetcher : Fetcher fetch) {next : Program Needs (Except ResolutionError Json)}
      (resolves : next = resolveWith fetch tree ignored (Name.qualify director deployment)) :
      (∃ error, checkAbsolute tree options next = .done (.error error)) ∨
        ∃ fetch, Fetcher fetch ∧ checkAbsolute tree options next =
          resolveWith fetch tree ignored (Name.qualify director deployment) := by
    rcases checkAbsolute_cases tree options with goesOn | ⟨_, names, refused⟩
    · exact .inr ⟨fetch, fetcher, (goesOn next).trans resolves⟩
    · exact .inl ⟨_, refused next⟩
  cases interpolates with
  | latest => exact checked _ .latest rfl
  | pinned set mustBeAbsolute own =>
    subst own
    exact checked _ (.pinned set) rfl
  | linked consumer provider mustBeAbsolute own =>
    subst own
    exact .inr ⟨_, .linked consumer provider, rfl⟩

/-- The names that an interpolation uses are those of the variables of the tree. -/
theorem mem_variablesOf_of_mem_namesUsed
    (interpolates : InterpolatesFor director deployment tree ignored program)
    (ended : Ends program transcript result) (used : name ∈ namesUsed transcript) :
    name ∈ variablesOf tree ignored (Name.qualify director deployment) := by
  obtain ⟨exchange, among, found⟩ := List.mem_filterMap.mp used
  rcases interpolates.refused_or_resolves with ⟨error, rfl⟩ | ⟨fetch, fetcher, rfl⟩
  · rw [(ends_done_iff.mp ended).1] at among
    cases among
  · obtain ⟨outer, resolved, expanded⟩ := ends_translate_iff.mp ended
    obtain ⟨fetched, asked, _, inner, _, _, replied, within⟩ := expanded.exists_of_mem among
    rw [concerns_fetch fetcher replied exchange within name found]
    have started := (asksInOrder_resolve tree ignored _).prefix_of_reaches resolved
    exact started.subset (List.mem_map_of_mem asked)

/-- The variables of a tree with relative names are relative names that are qualified. -/
theorem exists_isRelative_of_mem_variablesOf (relative : HasRelativeNames tree ignored)
    (member : name ∈ variablesOf tree ignored (Name.qualify director deployment)) :
    ∃ base, IsRelative base ∧ name = Name.qualify director deployment base := by
  obtain ⟨site, among, rfl⟩ := exists_placeholder_of_mem_variablesOf member
  obtain ⟨found, inTree, read⟩ := exists_site_of_mem_named among
  obtain ⟨whole, named, same⟩ := Placeholder.path_eq_ok_iff.mp read
  have base := Name.isPath_base (Placeholder.valid_of_name_eq_ok named)
    (relative found inTree whole named)
  exact ⟨site.2.base, (same ▸ base).isRelative, rfl⟩

/-- Two deployments qualify relative names differently just where neither is within the other.
Then trees with relative names that are interpolated for them, each in its own way and whatever
is answered, use no name in common. -/
theorem namespaces_disjoint (director : String) {first second : String}
    (different : first ≠ second) :
    (¬ Within first second ∧ ¬ Within second first ↔
      ∀ name other, IsRelative name → IsRelative other →
        Name.qualify director first name ≠ Name.qualify director second other) ∧
    (¬ Within first second → ¬ Within second first →
      ∀ {tree treeToo : Json} {ignored ignoredToo : List SubtreePattern}
        {program programToo : Program Needs (Except ResolutionError Json)}
        {transcript transcriptToo : List (Exchange Needs)}
        {result resultToo : Except ResolutionError Json},
        InterpolatesFor director first tree ignored program →
        InterpolatesFor director second treeToo ignoredToo programToo →
        HasRelativeNames tree ignored → HasRelativeNames treeToo ignoredToo →
        Ends program transcript result → Ends programToo transcriptToo resultToo →
        ∀ name ∈ namesUsed transcript, name ∉ namesUsed transcriptToo) := by
  refine ⟨⟨?_, ?_⟩, ?_⟩
  · rintro ⟨outside, apart⟩ name other left right
    exact Name.qualify_ne different outside apart left right
  · intro disjoint
    constructor
    · intro within
      obtain ⟨name, other, left, right, same⟩ := Name.exists_qualify_eq_of_within director within
      exact disjoint name other left right same
    · intro within
      obtain ⟨name, other, left, right, same⟩ := Name.exists_qualify_eq_of_within director within
      exact disjoint other name right left same.symm
  · intro outside apart tree treeToo ignored ignoredToo program programToo transcript transcriptToo
      result resultToo interpolates interpolatesToo relative relativeToo ended endedToo name used
      usedToo
    obtain ⟨base, left, rfl⟩ := exists_isRelative_of_mem_variablesOf relative
      (mem_variablesOf_of_mem_namesUsed interpolates ended used)
    obtain ⟨other, right, same⟩ := exists_isRelative_of_mem_variablesOf relativeToo
      (mem_variablesOf_of_mem_namesUsed interpolatesToo endedToo usedToo)
    exact Name.qualify_ne different outside apart left right same

/-- A tree that is one placeholder, interpolated for a deployment. -/
def sampleInterpolation (placeholder director deployment : String) :
    Program Needs (Except ResolutionError Json) :=
  latest director (.str placeholder) ⟨false, [], some deployment⟩

def namesUsedFor (placeholder director deployment : String) : List String :=
  namesUsed ((sampleInterpolation placeholder director deployment).transcript World.answer
    (calm sampleVersions sampleLedger))

/-- The names of two deployments do not go on from each other. -/
theorem namespaces_disjoint_orders :
    "orders" ≠ "billing" ∧ namesUsedFor "((pw))" "d" "orders" = ["/d/orders/pw"] ∧
      ∀ name ∈ namesUsedFor "((pw))" "d" "orders", name ∉ namesUsedFor "((pw))" "d" "billing" := by
  have different : "orders" ≠ "billing" := by decide
  have outside : ¬ Within "orders" "billing" := fun within => absurd within.isPrefix (by decide)
  have apart : ¬ Within "billing" "orders" := fun within => absurd within.isPrefix (by decide)
  have sites : Tree.sites (.str "((pw))") [] = [⟨[], "((pw))"⟩] := by decide +kernel
  have read : Placeholder.name "((pw))" = .ok "pw" := by decide +kernel
  have relative : HasRelativeNames (.str "((pw))") [] := by
    intro site among name named
    rw [sites] at among
    rw [List.mem_singleton.mp among, read] at named
    cases named
    decide
  have ended (deployment : String) := ends_transcript (I := Needs) World.answer
    (sampleInterpolation "((pw))" "d" deployment) (calm sampleVersions sampleLedger)
  exact ⟨different, by decide +kernel, (namespaces_disjoint "d" different).2 outside apart
    (.latest false) (.latest false) relative relative (ended "orders") (ended "billing")⟩

/-- One deployment is within the other: the same name is a relative name of both. -/
theorem namespaces_overlap :
    (SettingsManifest.standard "host").validate = .ok () ∧
      (SettingsManifest.standard "host").settings.directorName = "aegis" ∧ "a" ≠ "a/b" ∧
      IsRelative "b/c" ∧ IsRelative "c" ∧
      Name.qualify "aegis" "a" "b/c" = Name.qualify "aegis" "a/b" "c" ∧
      namesUsedFor "((b/c))" "aegis" "a" = ["/aegis/a/b/c"] ∧
      namesUsedFor "((c))" "aegis" "a/b" = ["/aegis/a/b/c"] := by
  refine ⟨by decide +kernel, rfl, by decide, ⟨by decide +kernel, by decide⟩,
    ⟨by decide +kernel, by decide⟩, by decide +kernel, by decide +kernel, by decide +kernel⟩

end ManifestVariables.Interpolation
