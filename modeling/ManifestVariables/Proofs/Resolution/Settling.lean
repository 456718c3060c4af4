import ManifestVariables.Proofs.Program.Transcript
import ManifestVariables.Resolution.Basic

/-!
# Settling placeholders

`Resolution.Settling` is the account of `Resolution.settleAll` as a relation: one
rule for each thing that can come of the next placeholder, with the fetches that
were made and their answers. `Resolution.ends_settleAll_iff` says that the two are
the same, so that facts about all resolutions are inductions on the rules. The rest
follows the values that were fetched into the places where they are put.
-/

namespace ManifestVariables.Resolution

open Program

variable {qualify : String → String}

/-- The fetch of a name and its answer. -/
abbrev fetching (name : String) (reply : Except FetchFailure Json) : Exchange Fetching :=
  ⟨name, reply⟩

/-- What settling some placeholders can come to, and what is fetched for it. -/
inductive Settling (qualify : String → String) :
    List (Path × NamePath) → Progress → List (Exchange Fetching) →
      Except ResolutionError Progress → Prop where
  | finished {progress : Progress} : Settling qualify [] progress [] (.ok progress)
  | known {path : Path} {name : NamePath} {rest : List (Path × NamePath)} {progress : Progress}
      {transcript : List (Exchange Fetching)} {result : Except ResolutionError Progress}
      {value : Option Json} (held : Keyed.get? progress.fetched (qualify name.base) = some value)
      (tail : Settling qualify rest
        (progress.settle path (qualify name.base) name.keys value) transcript result) :
      Settling qualify ((path, name) :: rest) progress transcript result
  | fetched {path : Path} {name : NamePath} {rest : List (Path × NamePath)} {progress : Progress}
      {transcript : List (Exchange Fetching)} {result : Except ResolutionError Progress}
      {value : Json} (new : Keyed.get? progress.fetched (qualify name.base) = none)
      (tail : Settling qualify rest
        ((progress.fetch (qualify name.base) (some value)).settle path (qualify name.base)
          name.keys (some value)) transcript result) :
      Settling qualify ((path, name) :: rest) progress
        (fetching (qualify name.base) (.ok value) :: transcript) result
  | reported {path : Path} {name : NamePath} {rest : List (Path × NamePath)} {progress : Progress}
      {transcript : List (Exchange Fetching)} {result : Except ResolutionError Progress}
      {text : String} (new : Keyed.get? progress.fetched (qualify name.base) = none)
      (tail : Settling qualify rest (progress.report (qualify name.base) text) transcript result) :
      Settling qualify ((path, name) :: rest) progress
        (fetching (qualify name.base) (.error (.reported text)) :: transcript) result
  | fatal {path : Path} {name : NamePath} {rest : List (Path × NamePath)} {progress : Progress}
      {error : ResolutionError} (new : Keyed.get? progress.fetched (qualify name.base) = none) :
      Settling qualify ((path, name) :: rest) progress
        [fetching (qualify name.base) (.error (.fatal error))] (.error error)

/-- The rules are all that settling can do. -/
theorem ends_settleAll_iff {names : List (Path × NamePath)} {progress : Progress}
    {transcript : List (Exchange Fetching)} {result : Except ResolutionError Progress} :
    Ends (settleAll qualify names progress) transcript result ↔
      Settling qualify names progress transcript result := by
  constructor
  · intro ended
    induction names generalizing progress transcript with
    | nil =>
      obtain ⟨rfl, rfl⟩ := ends_done_iff.mp ended
      exact .finished
    | cons site rest ih =>
      obtain ⟨path, name⟩ := site
      simp only [settleAll] at ended
      split at ended
      next value held => exact .known held (ih ended)
      next new =>
        obtain ⟨reply, tail, rfl, followed⟩ := ends_ask_iff.mp ended
        match reply, followed with
        | .ok value, followed => exact .fetched new (ih followed)
        | .error (.reported text), followed => exact .reported new (ih followed)
        | .error (.fatal error), followed =>
          obtain ⟨rfl, rfl⟩ := ends_done_iff.mp followed
          exact .fatal new
  · intro settled
    induction settled with
    | finished => exact .refl _
    | known held _ ih =>
      simp only [settleAll, held]
      exact ih
    | fetched new _ ih =>
      simp only [settleAll, new]
      exact .ask ih
    | reported new _ ih =>
      simp only [settleAll, new]
      exact .ask ih
    | fatal new =>
      simp only [settleAll, new]
      exact .ask (.refl _)

/-- What a resolution comes to once its placeholders are settled. -/
def conclude (tree : Json) : Except ResolutionError Progress → Except ResolutionError Json
  | .error error => .error error
  | .ok progress =>
    if progress.failures.isEmpty then .ok (substitute tree progress.found)
    else .error (.placeholders progress.failures)

theorem conclude_eq_ok_iff {tree result : Json} {settled : Except ResolutionError Progress} :
    conclude tree settled = .ok result ↔
      ∃ progress, settled = .ok progress ∧ progress.failures = [] ∧
        result = substitute tree progress.found := by
  cases settled with
  | error => exact ⟨nofun, nofun⟩
  | ok progress =>
    by_cases clean : progress.failures = []
    · constructor
      · intro concluded
        rw [conclude, clean] at concluded
        exact ⟨progress, rfl, clean, (Except.ok.inj concluded).symm⟩
      · rintro ⟨_, same, _, rfl⟩
        cases same
        rw [conclude, clean]
        rfl
    · have failed : progress.failures.isEmpty = false := List.isEmpty_eq_false_iff.mpr clean
      constructor
      · intro concluded
        rw [conclude, failed] at concluded
        cases concluded
      · rintro ⟨_, same, none, _⟩
        cases same
        exact absurd none clean

/-- Where all names are well formed, a resolution settles its placeholders and asks for
nothing more. -/
theorem resolve_of_parsed {tree : Json} {ignored : List SubtreePattern}
    {names : List (Path × NamePath)} (parsed : parseSites (Tree.sites tree ignored) = .ok names) :
    resolve tree ignored qualify =
      (settleAll qualify names Progress.start).andThen fun settled =>
        .done (conclude tree settled) := by
  rw [resolve, parsed]
  refine congrArg (andThen (settleAll qualify names Progress.start)) (funext fun settled => ?_)
  cases settled with
  | error => rfl
  | ok progress =>
    simp only [conclude]
    split <;> rfl

theorem ends_resolve_iff {tree : Json} {ignored : List SubtreePattern}
    {names : List (Path × NamePath)} {transcript : List (Exchange Fetching)}
    {result : Except ResolutionError Json}
    (parsed : parseSites (Tree.sites tree ignored) = .ok names) :
    Ends (resolve tree ignored qualify) transcript result ↔
      ∃ settled, Settling qualify names Progress.start transcript settled ∧
        result = conclude tree settled := by
  rw [resolve_of_parsed parsed]
  refine ends_andThen_iff.trans ⟨?_, ?_⟩
  · rintro ⟨before, settled, after, rfl, ended, followed⟩
    obtain ⟨rfl, rfl⟩ := ends_done_iff.mp followed
    rw [List.append_nil]
    exact ⟨settled, ends_settleAll_iff.mp ended, rfl⟩
  · rintro ⟨settled, settling, rfl⟩
    exact ⟨transcript, settled, [], (List.append_nil _).symm, ends_settleAll_iff.mpr settling,
      .refl _⟩

/-- A result from which a value can be taken is that value. -/
theorem eq_ok_of_toOption {ε α : Type} {result : Except ε α} {value : α}
    (taken : result.toOption = some value) : result = .ok value := by
  cases result with
  | ok => exact congrArg Except.ok (Option.some.inj taken)
  | error => cases taken

/-- The values that fetches brought, by the names that were asked for. -/
def fetchedValues (transcript : List (Exchange Fetching)) : Keyed String (Option Json) :=
  transcript.map fun exchange => (exchange.question, Except.toOption exchange.answer)

@[simp] theorem fetchedValues_cons (name : String) (reply : Except FetchFailure Json)
    (transcript : List (Exchange Fetching)) :
    fetchedValues (fetching name reply :: transcript) =
      (name, reply.toOption) :: fetchedValues transcript := rfl

@[simp] theorem settle_fetched (progress : Progress) (path : Path) (base : String)
    (keys : List String) (value : Option Json) :
    (progress.settle path base keys value).fetched = progress.fetched := by
  simp only [Progress.settle]
  split
  · rfl
  · split <;> rfl

theorem settle_failures (progress : Progress) (path : Path) (base : String)
    (keys : List String) (value : Option Json) :
    progress.failures <+: (progress.settle path base keys value).failures := by
  simp only [Progress.settle]
  split
  · exact List.prefix_refl _
  · split
    · exact List.prefix_refl _
    · exact List.prefix_append _ _

/-- Settling remembers what was fetched before and what its own fetches brought. -/
theorem Settling.fetched_eq {names : List (Path × NamePath)} {progress final : Progress}
    {transcript : List (Exchange Fetching)}
    (settled : Settling qualify names progress transcript (.ok final)) (base : String) :
    Keyed.get? final.fetched base =
      (Keyed.get? progress.fetched base).or (Keyed.get? (fetchedValues transcript) base) := by
  generalize succeeded : Except.ok final = result at settled
  induction settled with
  | finished =>
    cases succeeded
    simp [fetchedValues, Keyed.get?]
  | known _ _ ih =>
    rw [ih succeeded, settle_fetched]
  | @fetched _ name _ _ _ _ _ new _ ih =>
    rw [ih succeeded, settle_fetched, Progress.fetch, fetchedValues_cons, Keyed.get?]
    by_cases same : qualify name.base = base
    · subst same
      simp [new, Except.toOption]
    · rw [Keyed.get?_put_of_ne (Ne.symm same), if_neg same]
  | @reported _ name _ _ _ _ _ new _ ih =>
    rw [ih succeeded, Progress.report, Progress.fetch, fetchedValues_cons, Keyed.get?]
    by_cases same : qualify name.base = base
    · subst same
      simp [new, Except.toOption]
    · rw [Keyed.get?_put_of_ne (Ne.symm same), if_neg same]
  | fatal => cases succeeded

/-- Failures are only ever added. -/
theorem Settling.failures_prefix {names : List (Path × NamePath)} {progress final : Progress}
    {transcript : List (Exchange Fetching)}
    (settled : Settling qualify names progress transcript (.ok final)) :
    progress.failures <+: final.failures := by
  generalize succeeded : Except.ok final = result at settled
  induction settled with
  | finished =>
    cases succeeded
    exact List.prefix_refl _
  | known _ _ ih => exact (settle_failures _ _ _ _ _).trans (ih succeeded)
  | @fetched path name _ progress _ _ value _ _ ih =>
    exact (settle_failures (progress.fetch (qualify name.base) (some value)) path
      (qualify name.base) name.keys (some value)).trans (ih succeeded)
  | reported _ _ ih => exact (List.prefix_append _ _).trans (ih succeeded)
  | fatal => cases succeeded

/-- The keys of a name select a part of a value one after the other. -/
theorem descendFrom_toOption (base parent : String) (keys : List String) (value : Json) :
    (descendFrom base parent keys value).toOption = keys.foldlM Json.get? value := by
  induction keys generalizing parent value with
  | nil => rfl
  | cons key rest ih =>
    rw [descendFrom, List.foldlM_cons]
    cases value.get? key with
    | none => rfl
    | some part => exact ih (parent ++ "." ++ key) part

/-- The part of a fetched value that a name stands for; none where its variable has no
value or the value no such part. -/
def part? (values : Keyed String (Option Json)) (qualify : String → String) (name : NamePath) :
    Option Json := do
  let value ← (Keyed.get? values (qualify name.base)).join
  name.keys.foldlM Json.get? value

/-- A placeholder is settled without failure by its value, or passed over. -/
theorem settle_cases {progress : Progress} {path : Path} {base : String} {keys : List String}
    {value : Option Json} (clean : (progress.settle path base keys value).failures = []) :
    (value = none ∧ progress.settle path base keys value = progress) ∨
      ∃ whole part, value = some whole ∧ keys.foldlM Json.get? whole = some part ∧
        progress.settle path base keys value =
          { progress with found := progress.found ++ [(path, part)] } := by
  cases value with
  | none => exact .inl ⟨rfl, rfl⟩
  | some whole =>
    have selected := descendFrom_toOption base base keys whole
    simp only [Progress.settle, descend] at clean ⊢
    cases followed : descendFrom base base keys whole with
    | ok part =>
      rw [followed] at selected
      exact .inr ⟨whole, part, rfl, selected.symm, rfl⟩
    | error failure =>
      rw [followed] at clean
      simp at clean

/-- Every variable without value has been reported. -/
def Progress.Reported (progress : Progress) : Prop :=
  ∀ base, Keyed.get? progress.fetched base = some none → progress.failures ≠ []

theorem reported_start : Progress.start.Reported := by
  intro base absent
  cases absent

theorem Progress.Reported.fetch {progress : Progress} (reported : progress.Reported)
    (base : String) (value : Json) : (progress.fetch base (some value)).Reported := by
  intro other absent
  simp only [Progress.fetch] at absent ⊢
  by_cases same : other = base
  · subst same
    simp at absent
  · rw [Keyed.get?_put_of_ne same] at absent
    exact reported other absent

/-- Where nothing fails in the end, a placeholder whose variable is known is settled by
the part that its name stands for. -/
theorem Settling.settled_eq {names : List (Path × NamePath)} {progress final : Progress}
    {transcript : List (Exchange Fetching)} {path : Path} {name : NamePath} {value : Option Json}
    (tail : Settling qualify names
      (progress.settle path (qualify name.base) name.keys value) transcript (.ok final))
    (reported : progress.Reported) (clean : final.failures = [])
    (held : Keyed.get? progress.fetched (qualify name.base) = some value) :
    ∃ part, part? final.fetched qualify name = some part ∧
      progress.settle path (qualify name.base) name.keys value =
        { progress with found := progress.found ++ [(path, part)] } := by
  have unfailed : (progress.settle path (qualify name.base) name.keys value).failures = [] :=
    List.prefix_nil.mp (clean ▸ tail.failures_prefix)
  rcases settle_cases unfailed with ⟨rfl, same⟩ | ⟨whole, part, rfl, selected, settled⟩
  · rw [same] at unfailed
    exact absurd unfailed (reported _ held)
  · have remembered : Keyed.get? final.fetched (qualify name.base) = some (some whole) := by
      rw [tail.fetched_eq, settle_fetched, held, Option.some_or]
    exact ⟨part, by simp [part?, remembered, selected], settled⟩

/-- Where nothing failed, the values that were found are the parts that the names stand
for, in the places of their placeholders. -/
theorem Settling.found_eq {names : List (Path × NamePath)} {progress final : Progress}
    {transcript : List (Exchange Fetching)}
    (settled : Settling qualify names progress transcript (.ok final))
    (reported : progress.Reported) (clean : final.failures = []) :
    ∃ new, final.found = progress.found ++ new ∧
      names.mapM (fun site => (part? final.fetched qualify site.2).map (Prod.mk site.1)) =
        some new := by
  generalize succeeded : Except.ok final = result at settled
  induction settled with
  | finished =>
    cases succeeded
    exact ⟨[], (List.append_nil _).symm, rfl⟩
  | @known path name rest progress transcript _ value held tail ih =>
    subst succeeded
    obtain ⟨part, here, settled⟩ := tail.settled_eq reported clean held
    rw [settled] at ih
    obtain ⟨new, found, later⟩ := ih reported rfl
    exact ⟨(path, part) :: new, by simp [found], by simp [here, later]⟩
  | @fetched path name rest progress transcript _ value new tail ih =>
    subst succeeded
    have stillReported := reported.fetch (qualify name.base) value
    obtain ⟨part, here, settled⟩ := tail.settled_eq stillReported clean (Keyed.get?_put_self _ _ _)
    rw [settled] at ih
    obtain ⟨new, found, later⟩ := ih stillReported rfl
    exact ⟨(path, part) :: new, by simp [found, Progress.fetch], by simp [here, later]⟩
  | reported _ tail =>
    subst succeeded
    have unfailed := List.prefix_nil.mp (clean ▸ tail.failures_prefix)
    simp [Progress.report] at unfailed
  | fatal => cases succeeded

/-- Where nothing failed, every fetch brought a value. -/
theorem Settling.exists_value {names : List (Path × NamePath)} {progress final : Progress}
    {transcript : List (Exchange Fetching)}
    (settled : Settling qualify names progress transcript (.ok final))
    (clean : final.failures = []) {exchange : Exchange Fetching}
    (member : exchange ∈ transcript) :
    ∃ name value, exchange = fetching name (.ok value) := by
  generalize succeeded : Except.ok final = result at settled
  induction settled with
  | finished => cases member
  | known _ _ ih => exact ih member succeeded
  | fetched _ _ ih =>
    rcases List.mem_cons.mp member with rfl | later
    · exact ⟨_, _, rfl⟩
    · exact ih later succeeded
  | reported _ tail =>
    subst succeeded
    have unfailed := List.prefix_nil.mp (clean ▸ tail.failures_prefix)
    simp [Progress.report] at unfailed
  | fatal => cases succeeded

end ManifestVariables.Resolution
