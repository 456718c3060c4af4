import ManifestVariables.Proofs.Resolution.Substitution
import ManifestVariables.Proofs.Resolution.Fetches
import ManifestVariables.Resolution.Interpolation

/-!
# Names are checked before values are fetched

A resolution has two phases. All names are read first, and the first malformed one ends
it before anything is asked for. Then the variables are fetched in the order in which
they first appear. A variable is known by its qualified base name, so placeholders that
differ in spelling or in their keys share a fetch (`Resolution.checks_then_fetches_once`).
-/

namespace ManifestVariables

/-- The placeholder of a site has a well-formed name. -/
def Site.WellFormed (site : Site) : Prop :=
  ∃ name, Placeholder.path site.placeholder = .ok name

theorem Site.not_wellFormed_iff {site : Site} :
    ¬ site.WellFormed ↔ ∃ error, Placeholder.path site.placeholder = .error error := by
  unfold Site.WellFormed
  cases Placeholder.path site.placeholder <;> simp

namespace Resolution

open Program

variable {tree : Json} {ignored : List SubtreePattern} {qualify : String → String}
  {sites : List Site}

/-- The well-formed names among the placeholders of some sites, with their places. -/
def named (sites : List Site) : List (Path × NamePath) :=
  sites.filterMap fun site =>
    (Placeholder.path site.placeholder).toOption.map (Prod.mk site.path)

/-- The names in the placeholders of a tree that are not ignored, with their places. -/
def placeholders (tree : Json) (ignored : List SubtreePattern) : List (Path × NamePath) :=
  named (Tree.sites tree ignored)

theorem named_cons {site : Site} {name : NamePath}
    (read : Placeholder.path site.placeholder = .ok name) (rest : List Site) :
    named (site :: rest) = (site.path, name) :: named rest :=
  List.filterMap_cons_some (by rw [read]; rfl)

theorem exists_site_of_mem_named {site : Path × NamePath} (member : site ∈ named sites) :
    ∃ found ∈ sites, Placeholder.path found.placeholder = .ok site.2 := by
  obtain ⟨found, among, read⟩ := List.mem_filterMap.mp member
  obtain ⟨name, taken, rfl⟩ := Option.map_eq_some_iff.mp read
  exact ⟨found, among, eq_ok_of_toOption taken⟩

theorem parseSites_of_wellFormed (wellFormed : ∀ site ∈ sites, site.WellFormed) :
    parseSites sites = .ok (named sites) := by
  induction sites with
  | nil => rfl
  | cons site rest ih =>
    obtain ⟨⟨name, read⟩, later⟩ := List.forall_mem_cons.mp wellFormed
    rw [parseSites, read, ih later, named_cons read]

/-- The first malformed name is the one that is reported. -/
theorem parseSites_of_malformed {before after : List Site} {site : Site} {error : NameError}
    (wellFormed : ∀ earlier ∈ before, earlier.WellFormed)
    (malformed : Placeholder.path site.placeholder = .error error) :
    parseSites (before ++ site :: after) = .error error := by
  induction before with
  | nil => rw [List.nil_append, parseSites, malformed]
  | cons first rest ih =>
    obtain ⟨⟨name, read⟩, later⟩ := List.forall_mem_cons.mp wellFormed
    rw [List.cons_append, parseSites, read, ih later]

/-- Where some element is of a kind, there is a first one. -/
theorem none_or_first {α : Type} (kind : α → Prop) (list : List α) :
    (∀ a ∈ list, ¬ kind a) ∨
      ∃ before a after, list = before ++ a :: after ∧ (∀ b ∈ before, ¬ kind b) ∧ kind a := by
  induction list with
  | nil => exact .inl nofun
  | cons a rest ih =>
    by_cases here : kind a
    · exact .inr ⟨[], a, rest, rfl, nofun, here⟩
    · rcases ih with none | ⟨before, b, after, rfl, none, found⟩
      · exact .inl (List.forall_mem_cons.mpr ⟨here, none⟩)
      · exact .inr ⟨a :: before, b, after, rfl, List.forall_mem_cons.mpr ⟨here, none⟩, found⟩

/-- Where not all names are well formed, there is a first one that is not. -/
theorem wellFormed_or_malformed (sites : List Site) :
    (∀ site ∈ sites, site.WellFormed) ∨
      ∃ before site after error, sites = before ++ site :: after ∧
        (∀ earlier ∈ before, earlier.WellFormed) ∧
        Placeholder.path site.placeholder = .error error := by
  rcases none_or_first (¬ Site.WellFormed ·) sites with
    all | ⟨before, site, after, same, fine, malformed⟩
  · exact .inl fun site member => Classical.not_not.mp (all site member)
  · obtain ⟨error, read⟩ := Site.not_wellFormed_iff.mp malformed
    exact .inr ⟨before, site, after, error, same,
      fun earlier member => Classical.not_not.mp (fine earlier member), read⟩

theorem wellFormed_of_parseSites {names : List (Path × NamePath)}
    (parsed : parseSites sites = .ok names) :
    (∀ site ∈ sites, site.WellFormed) ∧ named sites = names := by
  rcases wellFormed_or_malformed sites with all | ⟨before, bad, after, error, rfl, fine, malformed⟩
  · exact ⟨all, Except.ok.inj ((parseSites_of_wellFormed all).symm.trans parsed)⟩
  · exact nomatch parsed.symm.trans (parseSites_of_malformed fine malformed)

theorem resolve_of_malformed {before after : List Site} {site : Site} {error : NameError}
    (found : Tree.sites tree ignored = before ++ site :: after)
    (wellFormed : ∀ earlier ∈ before, earlier.WellFormed)
    (malformed : Placeholder.path site.placeholder = .error error) :
    resolve tree ignored qualify = .done (.error (.name error)) := by
  rw [resolve, found, parseSites_of_malformed wellFormed malformed]

theorem resolveWith_of_malformed {before after : List Site} {site : Site} {error : NameError}
    (fetch : String → Interpolation.Fetch Json)
    (found : Tree.sites tree ignored = before ++ site :: after)
    (wellFormed : ∀ earlier ∈ before, earlier.WellFormed)
    (malformed : Placeholder.path site.placeholder = .error error) :
    Interpolation.resolveWith fetch tree ignored qualify = .done (.error (.name error)) := by
  rw [Interpolation.resolveWith, resolve_of_malformed found wellFormed malformed]
  rfl

theorem variablesOf_of_wellFormed
    (wellFormed : ∀ site ∈ Tree.sites tree ignored, site.WellFormed) :
    variablesOf tree ignored qualify = bases qualify (placeholders tree ignored) := by
  rw [variablesOf, parseSites_of_wellFormed wellFormed]
  rfl

/-- Every variable of a tree has a placeholder. -/
theorem exists_placeholder_of_mem_variablesOf {base : String}
    (member : base ∈ variablesOf tree ignored qualify) :
    ∃ site ∈ placeholders tree ignored, qualify site.2.base = base := by
  cases parsed : parseSites (Tree.sites tree ignored) with
  | error malformed =>
    rw [variablesOf, parsed] at member
    cases member
  | ok names =>
    rw [variablesOf_of_wellFormed (wellFormed_of_parseSites parsed).1, bases,
      List.mem_eraseDups] at member
    exact List.mem_map.mp member

/-- Settling knows the variables by their qualified names only. -/
theorem settleAll_congr {other : String → String} {names : List (Path × NamePath)}
    (alike : ∀ site ∈ names, qualify site.2.base = other site.2.base) (progress : Progress) :
    settleAll qualify names progress = settleAll other names progress := by
  induction names generalizing progress with
  | nil => rfl
  | cons site rest ih =>
    obtain ⟨here, later⟩ := List.forall_mem_cons.mp alike
    simp only [settleAll, funext (ih later)]
    generalize qualify site.2.base = base at here
    subst here
    rfl

/-- A tree is resolved alike by two qualifiers that agree on its placeholders. -/
theorem resolve_congr {other : String → String}
    (alike : ∀ site ∈ placeholders tree ignored, qualify site.2.base = other site.2.base) :
    resolve tree ignored qualify = resolve tree ignored other := by
  cases parsed : parseSites (Tree.sites tree ignored) with
  | error malformed => rw [resolve, resolve, parsed]
  | ok names =>
    obtain ⟨_, rfl⟩ := wellFormed_of_parseSites parsed
    rw [resolve_of_parsed parsed, resolve_of_parsed parsed]
    exact congrArg (andThen · _) (settleAll_congr alike Progress.start)

variable {σ : Type}

/-- The variables that are fetched when a tree is resolved, in order. -/
def fetchedNames (fetch : String → σ → Except FetchFailure Json × σ) (tree : Json)
    (ignored : List SubtreePattern) (qualify : String → String) (state : σ) : List String :=
  ((resolve tree ignored qualify).transcript fetch state).map Exchange.question

theorem fetchedNames_prefix_variablesOf (fetch : String → σ → Except FetchFailure Json × σ)
    (tree : Json) (ignored : List SubtreePattern) (qualify : String → String) (state : σ) :
    fetchedNames fetch tree ignored qualify state <+: variablesOf tree ignored qualify :=
  (asksInOrder_resolve tree ignored qualify).prefix_of_reaches
    (ends_transcript (I := Fetching) fetch (resolve tree ignored qualify) state)

/-- A resolution that succeeds has fetched all variables. -/
theorem fetchedNames_of_ok {fetch : String → σ → Except FetchFailure Json × σ} {state : σ}
    {result : Json}
    (resolved : ((resolve tree ignored qualify).run fetch state).1 = .ok result) :
    fetchedNames fetch tree ignored qualify state = variablesOf tree ignored qualify := by
  have ended := ends_transcript (I := Fetching) fetch (resolve tree ignored qualify) state
  rcases fetches_of_ends_resolve ended with all | ⟨_, _, _, _, failed⟩
  · exact all
  · cases resolved.symm.trans failed

/-- The first malformed name of a tree ends its resolution before anything is asked for.
Where all names are well formed, the variables are fetched in the order in which their
qualified names first appear, none of them twice, and all of them if the resolution
succeeds. -/
theorem checks_then_fetches_once (tree : Json) (ignored : List SubtreePattern)
    (qualify : String → String) :
    (∀ before site after error, Tree.sites tree ignored = before ++ site :: after →
        (∀ earlier ∈ before, earlier.WellFormed) →
        Placeholder.path site.placeholder = .error error →
        resolve tree ignored qualify = .done (.error (.name error)) ∧
          ∀ fetch, Interpolation.resolveWith fetch tree ignored qualify =
            .done (.error (.name error))) ∧
      ((∀ site ∈ Tree.sites tree ignored, site.WellFormed) →
        ∀ {σ : Type} (fetch : String → σ → Except FetchFailure Json × σ) (state : σ),
          fetchedNames fetch tree ignored qualify state <+:
              bases qualify (placeholders tree ignored) ∧
            (fetchedNames fetch tree ignored qualify state).Nodup ∧
            ∀ result, ((resolve tree ignored qualify).run fetch state).1 = .ok result →
              fetchedNames fetch tree ignored qualify state =
                bases qualify (placeholders tree ignored)) := by
  constructor
  · intro before site after error found wellFormed malformed
    exact ⟨resolve_of_malformed found wellFormed malformed,
      fun fetch => resolveWith_of_malformed fetch found wellFormed malformed⟩
  · intro wellFormed σ fetch state
    rw [← variablesOf_of_wellFormed wellFormed]
    have started := fetchedNames_prefix_variablesOf fetch tree ignored qualify state
    exact ⟨started, started.sublist.nodup (nodup_variablesOf tree ignored qualify),
      fun result resolved => fetchedNames_of_ok resolved⟩

/-- A manifest with a well-formed name and two malformed ones. -/
def malformedTree : Json :=
  .obj [("good", .str "((good))"), ("empty", .str "((!))"), ("bang", .str "((pass!word))")]

theorem checks_then_fetches_once_samples :
    resolve malformedTree [] (Name.qualify "d" "o") = .done (.error (.name .empty)) ∧
      fetchedNames sampleFetch sampleTree [[.key "addons"]] (Name.qualify "d" "o") 0 =
        ["/d/o/pw"] := by
  constructor
  · have found : Tree.sites malformedTree [] =
        [⟨[.key "good"], "((good))"⟩] ++ ⟨[.key "empty"], "((!))"⟩ ::
          [⟨[.key "bang"], "((pass!word))"⟩] := by decide +kernel
    have good : Placeholder.path "((good))" = .ok ⟨"good", []⟩ :=
      eq_ok_of_toOption (by decide +kernel)
    obtain ⟨refused, _⟩ := checks_then_fetches_once malformedTree [] (Name.qualify "d" "o")
    exact (refused _ _ _ _ found (List.forall_mem_singleton.mpr ⟨_, good⟩) rfl).1
  · obtain ⟨wellFormed, names⟩ := wellFormed_of_parseSites parseSites_sampleTree
    obtain ⟨_, fetches⟩ :=
      checks_then_fetches_once sampleTree [[.key "addons"]] (Name.qualify "d" "o")
    obtain ⟨_, _, all⟩ := fetches wellFormed sampleFetch 0
    rw [all _ resolve_sampleTree, placeholders, names]
    decide +kernel

end Resolution

end ManifestVariables
