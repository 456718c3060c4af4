import ManifestVariables.Proofs.Interpolation.Failures
import ManifestVariables.Proofs.Name.Absolute
import ManifestVariables.Proofs.Name.Placeholder

/-!
# Names that must be absolute

Where names must be absolute, a relative name in any placeholder of a manifest, whether
the placeholder is all of its string or not, ends an interpolation before anything is asked
for. Otherwise every name that is fetched is absolute, so neither the director nor the
deployment makes a difference (`Interpolation.absolute_or_refused`).
-/

namespace ManifestVariables

namespace Tree

variable {tree : Json} {ignored : List SubtreePattern} {name : String}

/-- The names in the placeholders of the strings that are not ignored, string by string and
by where the placeholders start. -/
def mentionedNames (tree : Json) (ignored : List SubtreePattern) : List String :=
  (strings ignored [] tree).flatMap fun found =>
    (Placeholder.bodiesAnywhere found.2.toList).map fun body =>
      String.ofList (Placeholder.stripBang body)

/-- The relative names in the placeholders of a manifest, each once, in order of first
appearance. -/
def relativeNames (tree : Json) (ignored : List SubtreePattern) : List String :=
  ((mentionedNames tree ignored).filter fun name => !Name.isAbsolute name).eraseDups

/-- A placeholder with the name stands somewhere in a string that is not ignored. -/
def Mentions (tree : Json) (ignored : List SubtreePattern) (name : String) : Prop :=
  ∃ path text body, (path, text) ∈ strings ignored [] tree ∧ Placeholder.Occurs body text ∧
    name = String.ofList (Placeholder.stripBang body)

theorem rawNames_eq (tree : Json) (ignored : List SubtreePattern) :
    rawNames tree ignored = mentionedNames tree ignored := by
  simp only [rawNames, Placeholder.rawNames, Placeholder.bodies_eq, mentionedNames]

theorem relativeNames_rawNames (tree : Json) (ignored : List SubtreePattern) :
    Name.relativeNames (rawNames tree ignored) = relativeNames tree ignored := by
  rw [rawNames_eq, Name.relativeNames_eq, relativeNames]

theorem mem_mentionedNames_iff : name ∈ mentionedNames tree ignored ↔ Mentions tree ignored name := by
  simp only [mentionedNames, Mentions, List.mem_flatMap, List.mem_map,
    Placeholder.mem_bodiesAnywhere_iff]
  constructor
  · rintro ⟨⟨path, text⟩, found, body, occurs, rfl⟩
    exact ⟨path, text, body, found, occurs, rfl⟩
  · rintro ⟨path, text, body, found, occurs, rfl⟩
    exact ⟨(path, text), found, body, occurs, rfl⟩

theorem mem_relativeNames_iff :
    name ∈ relativeNames tree ignored ↔
      Mentions tree ignored name ∧ Name.isAbsolute name = false := by
  simp only [relativeNames, List.mem_eraseDups, List.mem_filter, mem_mentionedNames_iff,
    Bool.not_eq_true']

theorem relativeNames_ne_nil_iff :
    relativeNames tree ignored ≠ [] ↔
      ∃ name, Mentions tree ignored name ∧ Name.isAbsolute name = false := by
  constructor
  · intro some
    obtain ⟨name, among⟩ := List.exists_mem_of_ne_nil _ some
    exact ⟨name, mem_relativeNames_iff.mp among⟩
  · rintro ⟨name, relative⟩
    exact List.ne_nil_of_mem (mem_relativeNames_iff.mpr relative)

theorem isAbsolute_of_mentions (none : relativeNames tree ignored = [])
    (mentioned : Mentions tree ignored name) : Name.isAbsolute name = true := by
  rw [← Bool.not_eq_false]
  intro relative
  have among : name ∈ relativeNames tree ignored :=
    mem_relativeNames_iff.mpr ⟨mentioned, relative⟩
  rw [none] at among
  cases among

/-- A manifest mentions the names that are read from its full placeholders. -/
theorem mentions_of_mem_sites {site : Site} (among : site ∈ sites tree ignored)
    (read : Placeholder.name site.placeholder = .ok name) : Mentions tree ignored name := by
  obtain ⟨found, full, rfl⟩ := List.mem_map.mp among
  obtain ⟨string, isFull⟩ := List.mem_filter.mp full
  rw [← mem_mentionedNames_iff, ← rawNames_eq]
  refine List.mem_flatMap.mpr ⟨found, string, ?_⟩
  rw [Placeholder.rawNames_of_name_eq_ok isFull read]
  exact List.mem_cons_self

end Tree

namespace Interpolation

open Program Engine Resolution

variable {tree : Json} {options : InterpolationOptions} {director : String}
  {set : Option VariableSet}

/-- A manifest interpolated through a set, or with the latest values where there is none. -/
def through (set : Option VariableSet) (director : String) (tree : Json)
    (options : InterpolationOptions) : Program Needs (Except ResolutionError Json) :=
  match set with
  | some set => pinned director tree set options
  | none => latest director tree options

/-- How values are fetched then. -/
def fetcherOf (set : Option VariableSet) : String → Fetch Json :=
  match set with
  | some set => fetchPinned set
  | none => fetchLatest

/-- How names are qualified then. -/
def qualifierOf (set : Option VariableSet) (director : String) (options : InterpolationOptions) :
    String → String :=
  match set with
  | some set => qualifier director (some (options.deployment.getD set.deployment))
  | none => qualifier director options.deployment

theorem through_eq :
    through set director tree options =
      checkAbsolute tree options
        (resolveWith (fetcherOf set) tree options.ignored (qualifierOf set director options)) := by
  cases set <;> rfl

theorem fetcher_fetcherOf (set : Option VariableSet) : Fetcher (fetcherOf set) := by
  cases set with
  | some set => exact .pinned set
  | none => exact .latest

theorem qualifierOf_of_absolute {name : String} (absolute : Name.isAbsolute name = true) :
    qualifierOf set director options name = name := by
  have qualified (deployment : Option String) : qualifier director deployment name = name := by
    cases deployment with
    | some deployment => exact Name.qualify_of_absolute absolute
    | none => rfl
  cases set with
  | some set => exact qualified (some (options.deployment.getD set.deployment))
  | none => exact qualified options.deployment

/-- Relative names are refused where they must not be. -/
theorem through_eq_ite :
    through set director tree options =
      if options.mustBeAbsolute = true ∧ Tree.relativeNames tree options.ignored ≠ [] then
        .done (.error (.relativeNames (Tree.relativeNames tree options.ignored)))
      else resolveWith (fetcherOf set) tree options.ignored (qualifierOf set director options) := by
  rw [through_eq, checkAbsolute, Name.requireAbsolute_eq, Tree.relativeNames_rawNames]
  by_cases must : options.mustBeAbsolute = true
  · by_cases none : Tree.relativeNames tree options.ignored = [] <;> simp [must, none]
  · simp [must]

/-- Where no name is relative, the base of every placeholder is absolute. -/
theorem isAbsolute_base_of_mem {ignored : List SubtreePattern} {site : Path × NamePath}
    (none : Tree.relativeNames tree ignored = []) (member : site ∈ placeholders tree ignored) :
    Name.isAbsolute site.2.base = true := by
  obtain ⟨found, among, read⟩ := exists_site_of_mem_named member
  obtain ⟨name, named, same⟩ := Placeholder.path_eq_ok_iff.mp read
  rw [same]
  exact Name.isAbsolute_base
    (Tree.isAbsolute_of_mentions none (Tree.mentions_of_mem_sites among named))

/-- Where no name is relative, only absolute names are fetched. -/
theorem isAbsolute_of_mem_variablesOf {ignored : List SubtreePattern} {name : String}
    (none : Tree.relativeNames tree ignored = [])
    (member : name ∈ variablesOf tree ignored (qualifierOf set director options)) :
    Name.isAbsolute name = true := by
  obtain ⟨site, among, rfl⟩ := exists_placeholder_of_mem_variablesOf member
  have absolute := isAbsolute_base_of_mem none among
  rwa [qualifierOf_of_absolute absolute]

/-- Where no name is relative, a tree is resolved alike for every director and deployment. -/
theorem resolve_qualifierOf {ignored : List SubtreePattern} {other : String}
    {elsewhere : InterpolationOptions} (none : Tree.relativeNames tree ignored = []) :
    resolve tree ignored (qualifierOf set other elsewhere) =
      resolve tree ignored (qualifierOf set director options) := by
  refine resolve_congr fun site among => ?_
  have absolute := isAbsolute_base_of_mem none among
  rw [qualifierOf_of_absolute absolute, qualifierOf_of_absolute absolute]

/-- A resolution does not fail with relative names, whatever it is answered. -/
theorem run_resolveWith_ne_relativeNames {σ : Type}
    {answer : (need : Need) → σ → need.Reply × σ} {state : σ} {fetch : String → Fetch Json}
    {ignored : List SubtreePattern} {qualify : String → String} (fetcher : Fetcher fetch)
    (names : List String) :
    ((resolveWith fetch tree ignored qualify).run answer state).1 ≠
      .error (.relativeNames names) := by
  intro failed
  rcases wellFormed_or_malformed (Tree.sites tree ignored) with
    wellFormed | ⟨before, site, after, error, found, fine, malformed⟩
  · rcases error_of_resolveWith fetcher wellFormed failed with outer | ⟨_, same, _⟩
    · cases outer
    · cases same
  · rw [resolveWith_of_malformed fetch found fine malformed] at failed
    cases failed

/-- Where names must be absolute, relative ones are what an interpolation fails with, and it
fails with them for no other reason. -/
theorem run_through_eq_relativeNames_iff {σ : Type}
    {answer : (need : Need) → σ → need.Reply × σ} {state : σ} {names : List String}
    (must : options.mustBeAbsolute = true) :
    ((through set director tree options).run answer state).1 = .error (.relativeNames names) ↔
      Tree.relativeNames tree options.ignored ≠ [] ∧
        names = Tree.relativeNames tree options.ignored := by
  rw [through_eq_ite]
  by_cases none : Tree.relativeNames tree options.ignored = []
  · rw [if_neg (fun refused => refused.2 none)]
    constructor
    · exact fun failed =>
        absurd failed (run_resolveWith_ne_relativeNames (fetcher_fetcherOf set) names)
    · exact fun held => absurd none held.1
  · rw [if_pos ⟨must, none⟩]
    constructor
    · intro failed
      cases failed
      exact ⟨none, rfl⟩
    · rintro ⟨_, rfl⟩
      rfl

/-- Where no name is relative, an interpolation is the same for every director and deployment. -/
theorem through_alike (none : Tree.relativeNames tree options.ignored = []) (other : String)
    (deployment : Option String) :
    through set other tree { options with deployment := deployment } =
      through set director tree options := by
  have allowed : ¬ (options.mustBeAbsolute = true ∧
      Tree.relativeNames tree options.ignored ≠ []) := fun refused => refused.2 none
  rw [through_eq_ite, through_eq_ite, if_neg allowed, if_neg allowed, resolveWith, resolveWith,
    resolve_qualifierOf none]

/-- Where names must be absolute, an interpolation is refused just where a placeholder, whole
string or not, has a relative name, and then it is nothing but the refusal of all relative
names, each once in order of first appearance. Otherwise it fetches absolute names only, and
it is the same program for every director and deployment: the same questions lead to the same
result. -/
theorem absolute_or_refused (must : options.mustBeAbsolute = true) (set : Option VariableSet)
    (director : String) (tree : Json) :
    ((∀ name, name ∈ Tree.relativeNames tree options.ignored ↔
          Tree.Mentions tree options.ignored name ∧ Name.isAbsolute name = false) ∧
        (Tree.relativeNames tree options.ignored).Nodup) ∧
      (∀ {σ : Type} (answer : (need : Need) → σ → need.Reply × σ) (state : σ) names,
        ((through set director tree options).run answer state).1 = .error (.relativeNames names) ↔
          (∃ name, Tree.Mentions tree options.ignored name ∧ Name.isAbsolute name = false) ∧
            names = Tree.relativeNames tree options.ignored) ∧
      ((∃ name, Tree.Mentions tree options.ignored name ∧ Name.isAbsolute name = false) →
        through set director tree options =
          .done (.error (.relativeNames (Tree.relativeNames tree options.ignored)))) ∧
      ((∀ name, Tree.Mentions tree options.ignored name → Name.isAbsolute name = true) →
        (∀ {σ : Type} (fetch : String → σ → Except FetchFailure Json × σ) (state : σ),
          ∀ name ∈ fetchedNames fetch tree options.ignored (qualifierOf set director options) state,
            Name.isAbsolute name = true) ∧
        ∀ other deployment, through set other tree { options with deployment := deployment } =
          through set director tree options) := by
  have some_iff : Tree.relativeNames tree options.ignored ≠ [] ↔ _ := Tree.relativeNames_ne_nil_iff
  refine ⟨⟨fun name => Tree.mem_relativeNames_iff, nodup_eraseDups _⟩, ?_, ?_, ?_⟩
  · intro σ answer state names
    rw [← some_iff]
    exact run_through_eq_relativeNames_iff must
  · intro relative
    rw [through_eq_ite, if_pos ⟨must, some_iff.mpr relative⟩]
  · intro absolute
    have none : Tree.relativeNames tree options.ignored = [] := by
      refine Decidable.not_not.mp fun some => ?_
      obtain ⟨name, mentioned, relative⟩ := some_iff.mp some
      cases relative.symm.trans (absolute name mentioned)
    refine ⟨fun fetch state name member => ?_, through_alike none⟩
    have started := fetchedNames_prefix_variablesOf fetch tree options.ignored
      (qualifierOf set director options) state
    exact isAbsolute_of_mem_variablesOf none (started.subset member)

/-- Manifests with relative names within a longer string, and with absolute names only. -/
def relativeManifest : Json :=
  .obj [("pw", .str "((/d/o/pw))"), ("url", .str "((host)):((!port))/((host))")]

def absoluteManifest : Json :=
  .obj [("pw", .str "((/d/o/pw))"), ("url", .str "((/d/o/host)):((!/d/o/port))")]

def strictOptions : InterpolationOptions := ⟨true, [], none⟩

theorem absolute_or_refused_samples :
    through none "d" relativeManifest strictOptions =
        .done (.error (.relativeNames ["host", "port"])) ∧
      through (some sampleSet) "elsewhere" absoluteManifest
          { strictOptions with deployment := some "other" } =
        through (some sampleSet) "d" absoluteManifest strictOptions := by
  have must : strictOptions.mustBeAbsolute = true := rfl
  constructor
  · obtain ⟨⟨relative, _⟩, _, refused, _⟩ := absolute_or_refused must none "d" relativeManifest
    have names : Tree.relativeNames relativeManifest strictOptions.ignored = ["host", "port"] := by
      decide +kernel
    rw [names] at refused relative
    exact refused ⟨"host", (relative _).mp List.mem_cons_self⟩
  · obtain ⟨_, _, _, alike⟩ := absolute_or_refused must (some sampleSet) "d" absoluteManifest
    have names : Tree.mentionedNames absoluteManifest strictOptions.ignored =
        ["/d/o/pw", "/d/o/host", "/d/o/port"] := by decide +kernel
    have absolute : ∀ name ∈ ["/d/o/pw", "/d/o/host", "/d/o/port"], Name.isAbsolute name = true := by
      decide +kernel
    exact (alike fun name mentioned =>
      absolute name (names ▸ Tree.mem_mentionedNames_iff.mpr mentioned)).2 "elsewhere" (some "other")

end Interpolation

end ManifestVariables
