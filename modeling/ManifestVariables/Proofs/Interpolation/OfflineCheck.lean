import ManifestVariables.Proofs.Interpolation.AbsoluteNames
import ManifestVariables.Tree.Check

/-!
# What the offline check foretells

The offline check collects all problems with the names of a manifest, where an interpolation
stops at the first. Both come to the same verdict, whatever the surroundings of the
interpolation are, since nothing that it asks for can fail with a problem of names
(`Interpolation.check_foretells`).
-/

namespace ManifestVariables

namespace Tree

variable {listed : List Site} {names problems : List String}

/-- Names and problems that account for some placeholders in order: each of them gives one
name, or one problem at its location. -/
inductive Accounts : List Site → List String → List String → Prop where
  | nil : Accounts [] [] []
  | name {site : Site} {sites : List Site} {name : String} {names problems : List String}
      (read : Placeholder.name site.placeholder = .ok name)
      (rest : Accounts sites names problems) :
      Accounts (site :: sites) (name :: names) problems
  | problem {site : Site} {sites : List Site} {error : NameError} {names problems : List String}
      (malformed : Placeholder.name site.placeholder = .error error)
      (rest : Accounts sites names problems) :
      Accounts (site :: sites) names (s!"{site.path.location}: {error.message}" :: problems)

/-- There are no problems just where all names are well formed. -/
theorem Accounts.eq_nil_iff (accounts : Accounts listed names problems) :
    problems = [] ↔ ∀ site ∈ listed, site.WellFormed := by
  induction accounts with
  | nil => exact ⟨fun _ => nofun, fun _ => rfl⟩
  | @name site _ name _ _ read _ ih =>
    have here : site.WellFormed := ⟨_, Placeholder.path_eq_ok_iff.mpr ⟨name, read, rfl⟩⟩
    rw [ih, List.forall_mem_cons]
    exact ⟨fun rest => ⟨here, rest⟩, And.right⟩
  | @problem site _ error _ _ malformed _ _ =>
    refine ⟨nofun, fun wellFormed => ?_⟩
    have read := Placeholder.path_eq_error_iff.mpr malformed
    exact absurd (wellFormed site List.mem_cons_self) (Site.not_wellFormed_iff.mpr ⟨error, read⟩)

/-- Adding placeholders to a report accounts for them behind what it has. -/
theorem exists_accounts_foldl (listed : List Site) (report : CheckReport) :
    ∃ names problems, Accounts listed names problems ∧
      listed.foldl CheckReport.add report =
        ⟨report.names ++ names, report.problems ++ problems⟩ := by
  induction listed generalizing report with
  | nil => exact ⟨[], [], .nil, by simp⟩
  | cons site rest ih =>
    obtain ⟨names, problems, accounts, added⟩ := ih (report.add site)
    cases read : Placeholder.name site.placeholder with
    | ok name =>
      refine ⟨name :: names, problems, .name read accounts, ?_⟩
      rw [List.foldl_cons, added]
      simp [CheckReport.add, Site.check, read]
    | error error =>
      refine ⟨names, _, .problem read accounts, ?_⟩
      rw [List.foldl_cons, added]
      simp [CheckReport.add, Site.check, read]

/-- A check accounts for the placeholders of a manifest, and tells of relative names behind
that. -/
theorem exists_accounts_check (tree : Json) (ignored : List SubtreePattern)
    (mustBeAbsolute : Bool) :
    ∃ names problems, Accounts (sites tree ignored) names problems ∧
      check tree ignored mustBeAbsolute = ⟨names, problems ++
        if mustBeAbsolute = true ∧ relativeNames tree ignored ≠ [] then
          [Name.relativeNamesMessage (relativeNames tree ignored)]
        else []⟩ := by
  obtain ⟨names, problems, accounts, added⟩ := exists_accounts_foldl (sites tree ignored) ⟨[], []⟩
  refine ⟨names, problems, accounts, ?_⟩
  rw [check, added, Name.requireAbsolute_eq, relativeNames_rawNames]
  cases mustBeAbsolute with
  | false => simp
  | true => by_cases none : relativeNames tree ignored = [] <;> simp [none]

end Tree

namespace Interpolation

open Program Engine Resolution

/-- Errors about the names of a manifest. -/
inductive OfNames : ResolutionError → Prop where
  | name (error : NameError) : OfNames (.name error)
  | relativeNames (names : List String) : OfNames (.relativeNames names)

variable {tree : Json} {options : InterpolationOptions} {director : String}
  {set : Option VariableSet}

/-- The check tells of no problem just where all names are well formed, and absolute where
they must be. -/
theorem problems_eq_nil_iff {ignored : List SubtreePattern} {mustBeAbsolute : Bool} :
    (Tree.check tree ignored mustBeAbsolute).problems = [] ↔
      (∀ site ∈ Tree.sites tree ignored, site.WellFormed) ∧
        ¬ (mustBeAbsolute = true ∧ Tree.relativeNames tree ignored ≠ []) := by
  obtain ⟨names, problems, accounts, same⟩ := Tree.exists_accounts_check tree ignored mustBeAbsolute
  rw [same, List.append_eq_nil_iff, accounts.eq_nil_iff]
  refine and_congr_right fun _ => ?_
  split
  next refused => exact ⟨nofun, fun allowed => absurd refused allowed⟩
  next allowed => exact ⟨fun _ => allowed, fun _ => rfl⟩

/-- Without a problem of names an interpolation does not fail with one. -/
theorem not_ofNames_of_run {σ : Type} {answer : (need : Need) → σ → need.Reply × σ} {state : σ}
    {error : ResolutionError}
    (none : (Tree.check tree options.ignored options.mustBeAbsolute).problems = [])
    (failed : ((through set director tree options).run answer state).1 = .error error) :
    ¬ OfNames error := by
  obtain ⟨wellFormed, allowed⟩ := problems_eq_nil_iff.mp none
  rw [through_eq_ite, if_neg allowed] at failed
  rcases error_of_resolveWith (fetcher_fetcherOf set) wellFormed failed with
    outer | ⟨failures, rfl, _⟩
  · intro ofNames
    cases ofNames <;> cases outer
  · exact nofun

/-- With a problem of names an interpolation is its failure, relative names first. -/
theorem through_of_problems (set : Option VariableSet) (director : String)
    (some : (Tree.check tree options.ignored options.mustBeAbsolute).problems ≠ []) :
    if options.mustBeAbsolute = true ∧ Tree.relativeNames tree options.ignored ≠ [] then
      through set director tree options =
        .done (.error (.relativeNames (Tree.relativeNames tree options.ignored)))
    else ∃ before site after error,
      Tree.sites tree options.ignored = before ++ site :: after ∧
        (∀ earlier ∈ before, earlier.WellFormed) ∧
        Placeholder.path site.placeholder = .error error ∧
        through set director tree options = .done (.error (.name error)) := by
  by_cases refused : options.mustBeAbsolute = true ∧ Tree.relativeNames tree options.ignored ≠ []
  · rw [if_pos refused, through_eq_ite, if_pos refused]
  · rw [if_neg refused, through_eq_ite, if_neg refused]
    rcases wellFormed_or_malformed (Tree.sites tree options.ignored) with
      wellFormed | ⟨before, site, after, error, found, fine, malformed⟩
    · exact absurd (problems_eq_nil_iff.mpr ⟨wellFormed, refused⟩) some
    · exact ⟨before, site, after, error, found, fine, malformed,
        resolveWith_of_malformed _ found fine malformed⟩

/-- What an interpolation with a problem of names fails with. -/
theorem exists_ofNames_of_problems (set : Option VariableSet) (director : String)
    (some : (Tree.check tree options.ignored options.mustBeAbsolute).problems ≠ []) :
    ∃ error, OfNames error ∧ through set director tree options = .done (.error error) := by
  have failure := through_of_problems set director some
  split at failure
  · exact ⟨_, .relativeNames _, failure⟩
  · obtain ⟨_, _, _, error, _, _, _, failed⟩ := failure
    exact ⟨_, .name error, failed⟩

/-- The offline check tells of no problem just where an interpolation, whatever it is
answered, does not fail with a problem of names. Where it tells of one, an interpolation is
nothing but a failure: with all relative names where these are refused, and otherwise with the
first malformed name. The check gives one name or one problem for each placeholder, in order,
and behind these one problem for all relative names that are refused. -/
theorem check_foretells (set : Option VariableSet) (director : String) (tree : Json)
    (options : InterpolationOptions) :
    (∀ {σ : Type} (answer : (need : Need) → σ → need.Reply × σ) (state : σ),
      (Tree.check tree options.ignored options.mustBeAbsolute).problems = [] ↔
        ¬ ∃ error, OfNames error ∧
          ((through set director tree options).run answer state).1 = .error error) ∧
      ((Tree.check tree options.ignored options.mustBeAbsolute).problems ≠ [] →
        if options.mustBeAbsolute = true ∧ Tree.relativeNames tree options.ignored ≠ [] then
          through set director tree options =
            .done (.error (.relativeNames (Tree.relativeNames tree options.ignored)))
        else ∃ before site after error,
          Tree.sites tree options.ignored = before ++ site :: after ∧
            (∀ earlier ∈ before, earlier.WellFormed) ∧
            Placeholder.path site.placeholder = .error error ∧
            through set director tree options = .done (.error (.name error))) ∧
      ∃ names problems, Tree.Accounts (Tree.sites tree options.ignored) names problems ∧
        Tree.check tree options.ignored options.mustBeAbsolute = ⟨names, problems ++
          if options.mustBeAbsolute = true ∧ Tree.relativeNames tree options.ignored ≠ [] then
            [Name.relativeNamesMessage (Tree.relativeNames tree options.ignored)]
          else []⟩ := by
  refine ⟨?_, through_of_problems set director, Tree.exists_accounts_check _ _ _⟩
  intro σ answer state
  constructor
  · rintro none ⟨error, ofNames, failed⟩
    exact not_ofNames_of_run none failed ofNames
  · intro unfailed
    refine Decidable.not_not.mp fun some => unfailed ?_
    obtain ⟨error, ofNames, failed⟩ := exists_ofNames_of_problems set director some
    exact ⟨error, ofNames, by rw [failed]; rfl⟩

/-- A manifest with a relative name, a malformed one and a relative one in a longer string. -/
def flawedManifest : Json :=
  .obj [("pw", .str "((db_pw))"), ("bad", .str "((a b))"), ("url", .str "((host)):80")]

theorem check_foretells_flawedManifest :
    (Tree.check flawedManifest [] true).names = ["db_pw"] ∧
      (Tree.check flawedManifest [] true).problems.length = 2 ∧
      through none "d" flawedManifest strictOptions =
        .done (.error (.relativeNames ["db_pw", "a b", "host"])) := by
  have names : (Tree.check flawedManifest [] true).names = ["db_pw"] := by decide +kernel
  have count : (Tree.check flawedManifest [] true).problems.length = 2 := by decide +kernel
  have some : (Tree.check flawedManifest [] true).problems ≠ [] := by
    intro none
    rw [none] at count
    cases count
  have relative : Tree.relativeNames flawedManifest strictOptions.ignored =
      ["db_pw", "a b", "host"] := by decide +kernel
  obtain ⟨_, foretold, _⟩ := check_foretells none "d" flawedManifest strictOptions
  have refused := foretold some
  rw [relative, if_pos ⟨rfl, List.cons_ne_nil _ _⟩] at refused
  exact ⟨names, count, refused⟩

end Interpolation

end ManifestVariables
