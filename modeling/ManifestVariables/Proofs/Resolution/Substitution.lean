import ManifestVariables.Proofs.Resolution.Settling
import ManifestVariables.Proofs.Tree.Substitution

/-!
# A resolved tree is a filled tree

`Resolution.resolve` collects places, fetches values into a table and puts one value
after the other into a copy of the tree. `Resolution.resolve_eq_filled?` says that a
tree it resolves is the one that plain recursion gives, with each placeholder
standing for the part of the fetched value that its name selects. The recursion does
not look into the values that it puts in, so their placeholders stay.
-/

namespace ManifestVariables.Resolution

open Program

variable {qualify : String → String}

/-- What a placeholder stands for, given the values that were fetched. -/
def standsFor? (values : Keyed String (Option Json)) (qualify : String → String)
    (placeholder : String) : Option Json := do
  let name ← (Placeholder.path placeholder).toOption
  part? values qualify name

/-- A resolution succeeds where all names are well formed and settling them failed
nowhere. -/
theorem ends_resolve_ok_iff {tree : Json} {ignored : List SubtreePattern}
    {transcript : List (Exchange Fetching)} {result : Json} :
    Ends (resolve tree ignored qualify) transcript (.ok result) ↔
      ∃ names progress, parseSites (Tree.sites tree ignored) = .ok names ∧
        Settling qualify names Progress.start transcript (.ok progress) ∧
        progress.failures = [] ∧ result = substitute tree progress.found := by
  constructor
  · intro ended
    cases parsed : parseSites (Tree.sites tree ignored) with
    | error malformed =>
      rw [resolve, parsed] at ended
      cases (ends_done_iff.mp ended).2
    | ok names =>
      obtain ⟨settled, settling, concluded⟩ := (ends_resolve_iff parsed).mp ended
      obtain ⟨progress, rfl, clean, same⟩ := conclude_eq_ok_iff.mp concluded.symm
      exact ⟨names, progress, rfl, settling, clean, same⟩
  · rintro ⟨names, progress, parsed, settling, clean, same⟩
    exact (ends_resolve_iff parsed).mpr
      ⟨.ok progress, settling, (conclude_eq_ok_iff.mpr ⟨progress, rfl, clean, same⟩).symm⟩

/-- A resolution that succeeds has fetched nothing but values. -/
theorem exists_value_of_ends_resolve {tree : Json} {ignored : List SubtreePattern}
    {transcript : List (Exchange Fetching)} {result : Json}
    (ended : Ends (resolve tree ignored qualify) transcript (.ok result))
    {exchange : Exchange Fetching} (member : exchange ∈ transcript) :
    ∃ name value, exchange = fetching name (.ok value) := by
  obtain ⟨_, _, _, settled, clean, _⟩ := ends_resolve_ok_iff.mp ended
  exact settled.exists_value clean member

/-- Reading the names first makes no difference to the values of sites. -/
theorem mapM_parseSites {values : Keyed String (Option Json)} {sites : List Site}
    {names : List (Path × NamePath)} (parsed : parseSites sites = .ok names) :
    names.mapM (fun site => (part? values qualify site.2).map (Prod.mk site.1)) =
      sites.mapM fun site =>
        (standsFor? values qualify site.placeholder).map (Prod.mk site.path) := by
  induction sites generalizing names with
  | nil =>
    cases parsed
    rfl
  | cons site rest ih =>
    simp only [parseSites] at parsed
    split at parsed
    · cases parsed
    next name here =>
      split at parsed
      · cases parsed
      next others later =>
        cases parsed
        simp only [List.mapM_cons, ih later, standsFor?, here, Except.toOption,
          Option.bind_eq_bind, Option.bind_some]

theorem mapM_sites (value : String → Option Json) (tree : Json) (ignored : List SubtreePattern) :
    ((Tree.sites tree ignored).mapM fun site => (value site.placeholder).map (Prod.mk site.path)) =
      Tree.valued? value (Tree.strings ignored [] tree) := by
  simp only [Tree.sites, Tree.valued?, List.mapM_map]
  rfl

/-- A tree that is resolved is the tree filled by recursion, each placeholder standing
for the part of its variable's value that its keys select, under every fetcher. -/
theorem resolve_eq_filled? {σ : Type} {fetch : String → σ → Except FetchFailure Json × σ}
    {state : σ} {tree : Json} {ignored : List SubtreePattern} {result : Json}
    (distinct : tree.DistinctKeys)
    (resolved : ((resolve tree ignored qualify).run fetch state).1 = .ok result) :
    Tree.filled? ignored
      (standsFor? (fetchedValues ((resolve tree ignored qualify).transcript fetch state)) qualify)
      [] tree = some result := by
  have ended := ends_transcript (I := Fetching) fetch (resolve tree ignored qualify) state
  rw [resolved] at ended
  obtain ⟨names, progress, parsed, settled, clean, rfl⟩ := ends_resolve_ok_iff.mp ended
  obtain ⟨new, found, values⟩ := settled.found_eq reported_start clean
  have remembered : part? progress.fetched qualify =
      part? (fetchedValues ((resolve tree ignored qualify).transcript fetch state)) qualify := by
    funext name
    rw [part?, settled.fetched_eq]
    rfl
  rw [remembered, mapM_parseSites parsed, mapM_sites] at values
  have filled := Tree.filled?_of_valued? ignored tree [] distinct values
  rw [filled, found, List.length_nil, Tree.substituteBelow_zero]
  rfl

/-- A manifest with a name under two spellings, once in full and once with a key. -/
def sampleTree : Json :=
  .obj [("jobs", .arr [.str "((pw.key))", .null, .str "at ((pw))"]),
    ("addons", .obj [("pw", .str "((pw))")]), ("update", .str "((/d/o/pw))")]

/-- A fetcher whose values hold a placeholder for their own name. -/
def sampleFetch (name : String) (fetches : Nat) : Except FetchFailure Json × Nat :=
  (.ok (.obj [("key", .str ("((" ++ name ++ "))")), ("port", .int 1)]), fetches + 1)

/-- The manifest with its values. -/
def sampleResult : Json :=
  .obj [("jobs", .arr [.str "((/d/o/pw))", .null, .str "at ((pw))"]),
    ("addons", .obj [("pw", .str "((pw))")]),
    ("update", .obj [("key", .str "((/d/o/pw))"), ("port", .int 1)])]

theorem parseSites_sampleTree :
    parseSites (Tree.sites sampleTree [[.key "addons"]]) =
      .ok [([.key "jobs", .index 0], ⟨"pw", ["key"]⟩), ([.key "update"], ⟨"/d/o/pw", []⟩)] :=
  eq_ok_of_toOption (by decide +kernel)

theorem resolve_sampleTree :
    ((resolve sampleTree [[.key "addons"]] (Name.qualify "d" "o")).run sampleFetch 0).1 =
      .ok sampleResult := by
  have relative : Name.qualify "d" "o" "pw" = "/d/o/pw" := by decide +kernel
  have absolute : Name.qualify "d" "o" "/d/o/pw" = "/d/o/pw" := by decide +kernel
  simp only [resolve, parseSites_sampleTree, settleAll, relative, absolute]
  rfl

theorem resolve_eq_filled?_sampleTree :
    sampleTree.DistinctKeys ∧
      ((resolve sampleTree [[.key "addons"]] (Name.qualify "d" "o")).run sampleFetch 0).1 =
        .ok sampleResult ∧
      Tree.filled? [[.key "addons"]]
        (standsFor?
          (fetchedValues
            ((resolve sampleTree [[.key "addons"]] (Name.qualify "d" "o")).transcript
              sampleFetch 0))
          (Name.qualify "d" "o"))
        [] sampleTree = some sampleResult := by
  have distinct : sampleTree.DistinctKeys := by
    simp [sampleTree, Json.DistinctKeys, Json.DistinctKeysInFields, Json.DistinctKeysInItems,
      Keyed.keys]
  exact ⟨distinct, resolve_sampleTree, resolve_eq_filled? distinct resolve_sampleTree⟩

end ManifestVariables.Resolution
