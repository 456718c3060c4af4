import Mathlib.Data.List.Forall2
import Mathlib.Data.List.Nodup
import ManifestVariables.Proofs.Resolution.Phases

/-!
# How failures are collected

`Resolution.Collected` tells the failures of a tree from the answers that its variables
were given, site by site: a variable that could not be fetched is told at its first
placeholder, and a key that a value lacks at each placeholder that asks for it. Failures
are the result unless a fetch was fatal, which stands above all of them
(`Resolution.aggregated_resolve`).
-/

namespace ManifestVariables.Resolution

open Program

variable {qualify : String → String} {tree : Json} {ignored : List SubtreePattern}
  {names : List (Path × NamePath)} {fetches transcript : List (Exchange Fetching)}
  {base : String} {keys earlier : List String} {value : Json}
  {failures : List PlaceholderFailure}

/-- The part of a value that some keys lead to, as it is called in messages. -/
def partName (base : String) (keys : List String) : String :=
  keys.foldl (fun parent key => parent ++ "." ++ key) base

/-- What a placeholder adds to the failures, given what its variable was answered and
whether it was `told` at an earlier placeholder. -/
inductive Adds (base : String) (keys : List String) (told : Prop) :
    Except FetchFailure Json → List PlaceholderFailure → Prop where
  | unavailable {text : String} (first : ¬ told) :
      Adds base keys told (.error (.reported text)) [.unavailable text]
  | again {text : String} (again : told) : Adds base keys told (.error (.reported text)) []
  /-- Keys lead to some part of the value, which lacks the next one. -/
  | missingKey {value part : Json} {before after : List String} {key : String}
      (split : keys = before ++ key :: after)
      (found : before.foldlM Json.get? value = some part) (lacking : part.get? key = none) :
      Adds base keys told (.ok value) [.missingKey base (partName base before) key]
  | present {value part : Json} (found : keys.foldlM Json.get? value = some part) :
      Adds base keys told (.ok value) []

/-- The failures of some placeholders in order, given the variables of those that come
`earlier`. -/
inductive Collected (qualify : String → String) (fetches : List (Exchange Fetching)) :
    List String → List (Path × NamePath) → List PlaceholderFailure → Prop where
  | nil {earlier : List String} : Collected qualify fetches earlier [] []
  | cons {earlier : List String} {path : Path} {name : NamePath} {rest : List (Path × NamePath)}
      {reply : Except FetchFailure Json} {added failures : List PlaceholderFailure}
      (fetched : fetching (qualify name.base) reply ∈ fetches)
      (adds : Adds (qualify name.base) name.keys (qualify name.base ∈ earlier) reply added)
      (tail : Collected qualify fetches (earlier ++ [qualify name.base]) rest failures) :
      Collected qualify fetches earlier ((path, name) :: rest) (added ++ failures)

/-! ### Keys that lead nowhere -/

/-- Following keys fails at the first one that the part reached so far lacks. -/
theorem descendFrom_eq_error_iff {parent : String} {failure : PlaceholderFailure} :
    descendFrom base parent keys value = .error failure ↔
      ∃ before key after part, keys = before ++ key :: after ∧
        before.foldlM Json.get? value = some part ∧ part.get? key = none ∧
        failure = .missingKey base (partName parent before) key := by
  constructor
  · intro failed
    induction keys generalizing parent value with
    | nil => cases failed
    | cons key rest ih =>
      rw [descendFrom] at failed
      cases here : value.get? key with
      | none =>
        rw [here] at failed
        cases failed
        exact ⟨[], key, rest, value, rfl, rfl, here, rfl⟩
      | some child =>
        rw [here] at failed
        obtain ⟨before, last, after, part, rfl, found, lacking, rfl⟩ := ih failed
        exact ⟨key :: before, last, after, part, rfl, by simp [here, found], lacking, rfl⟩
  · rintro ⟨before, key, after, part, rfl, found, lacking, rfl⟩
    induction before generalizing parent value with
    | nil =>
      cases found
      simp [descendFrom, lacking, partName]
    | cons first rest ih =>
      rw [List.foldlM_cons] at found
      obtain ⟨child, here, found⟩ := Option.bind_eq_some_iff.mp found
      rw [List.cons_append, descendFrom, here]
      exact ih found

/-- What a placeholder of a fetched variable adds is what following its keys comes to. -/
theorem adds_ok_iff {told : Prop} {added : List PlaceholderFailure} :
    Adds base keys told (.ok value) added ↔
      (∃ part, descend base keys value = .ok part ∧ added = []) ∨
        ∃ failure, descend base keys value = .error failure ∧ added = [failure] := by
  have selected := descendFrom_toOption base base keys value
  constructor
  · intro adds
    cases adds with
    | missingKey split found lacking =>
      exact .inr ⟨_, descendFrom_eq_error_iff.mpr ⟨_, _, _, _, split, found, lacking, rfl⟩, rfl⟩
    | present found => exact .inl ⟨_, eq_ok_of_toOption (selected.trans found), rfl⟩
  · rintro (⟨part, followed, rfl⟩ | ⟨failure, failed, rfl⟩)
    · rw [descend] at followed
      rw [followed] at selected
      exact .present selected.symm
    · obtain ⟨before, key, after, part, split, found, lacking, rfl⟩ :=
        descendFrom_eq_error_iff.mp failed
      exact .missingKey split found lacking

/-- Nothing is added just where the keys lead to a part. -/
theorem adds_ok_nil_iff {told : Prop} :
    Adds base keys told (.ok value) [] ↔ ∃ part, keys.foldlM Json.get? value = some part := by
  constructor
  · intro adds
    generalize none : [] = added at adds
    cases adds with
    | missingKey => cases none
    | present found => exact ⟨_, found⟩
  · rintro ⟨part, found⟩
    exact .present found

theorem Adds.unique {told : Prop} {reply : Except FetchFailure Json}
    {added other : List PlaceholderFailure} (adds : Adds base keys told reply added)
    (again : Adds base keys told reply other) : other = added := by
  match reply with
  | .ok value =>
    rcases adds_ok_iff.mp adds with ⟨_, first, rfl⟩ | ⟨_, first, rfl⟩ <;>
    rcases adds_ok_iff.mp again with ⟨_, second, rfl⟩ | ⟨_, second, rfl⟩ <;>
    cases first.symm.trans second <;> rfl
  | .error failure =>
    cases adds with
    | unavailable first =>
      cases again with
      | unavailable => rfl
      | again told => exact absurd told first
    | again told =>
      cases again with
      | unavailable first => exact absurd told first
      | again => rfl

/-- Where no variable was given two answers, the failures are determined. -/
theorem Collected.unique {others : List PlaceholderFailure}
    (distinct : (fetches.map Exchange.question).Nodup)
    (collected : Collected qualify fetches earlier names failures)
    (again : Collected qualify fetches earlier names others) : others = failures := by
  induction collected generalizing others with
  | nil =>
    cases again
    rfl
  | cons fetched adds _ ih =>
    cases again with
    | cons refetched readds retail =>
      have same := List.inj_on_of_nodup_map distinct fetched refetched rfl
      cases same
      rw [adds.unique readds, ih retail]

/-! ### What settling collects -/

/-- The fetches tell what is known of the variables of earlier placeholders, and nothing is
known of others. -/
structure Progress.Told (progress : Progress) (earlier : List String)
    (fetches : List (Exchange Fetching)) : Prop where
  known : ∀ base, base ∈ earlier ↔ Keyed.get? progress.fetched base ≠ none
  value : ∀ base value, Keyed.get? progress.fetched base = some (some value) →
    fetching base (.ok value) ∈ fetches
  failed : ∀ base, Keyed.get? progress.fetched base = some none →
    ∃ text, fetching base (.error (.reported text)) ∈ fetches

variable {progress : Progress}

theorem told_start : Progress.start.Told [] fetches :=
  ⟨fun _ => ⟨nofun, fun known => absurd rfl known⟩, nofun, nofun⟩

/-- A placeholder of a known variable adds nothing to what is known. -/
theorem Progress.Told.again (told : progress.Told earlier fetches)
    (held : Keyed.get? progress.fetched base ≠ none) :
    progress.Told (earlier ++ [base]) fetches := by
  refine ⟨fun other => ?_, told.value, told.failed⟩
  rw [List.mem_append, List.mem_singleton, told.known]
  constructor
  · rintro (known | rfl)
    · exact known
    · exact held
  · exact .inl

theorem Progress.Told.of_fetched_eq {other : Progress} (told : progress.Told earlier fetches)
    (same : other.fetched = progress.fetched) : other.Told earlier fetches := by
  obtain ⟨known, value, failed⟩ := told
  rw [← same] at known value failed
  exact ⟨known, value, failed⟩

/-- A fetch that is not fatal makes its variable known. -/
theorem Progress.Told.fetch {reply : Except FetchFailure Json}
    (told : progress.Told earlier fetches) (fetched : fetching base reply ∈ fetches)
    (unfatal : ¬ IsFatal (fetching base reply)) :
    (progress.fetch base reply.toOption).Told (earlier ++ [base]) fetches := by
  constructor
  case known =>
    intro other
    rw [List.mem_append, List.mem_singleton, told.known, Progress.fetch]
    by_cases same : other = base
    · subst same
      simp
    · rw [Keyed.get?_put_of_ne same]
      simp [same]
  case value =>
    intro other value held
    by_cases same : other = base
    · subst same
      rw [Progress.fetch, Keyed.get?_put_self] at held
      exact eq_ok_of_toOption (Option.some.inj held) ▸ fetched
    · rw [Progress.fetch, Keyed.get?_put_of_ne same] at held
      exact told.value other value held
  case failed =>
    intro other held
    by_cases same : other = base
    · subst same
      rw [Progress.fetch, Keyed.get?_put_self] at held
      cases reply with
      | ok value => cases held
      | error failure =>
        cases failure with
        | reported text => exact ⟨text, fetched⟩
        | fatal error => exact absurd ⟨other, error, rfl⟩ unfatal
    · rw [Progress.fetch, Keyed.get?_put_of_ne same] at held
      exact told.failed other held

/-- Settling a placeholder of a fetched variable adds the failure of its keys, if they lead
nowhere. -/
theorem settle_adds (progress : Progress) (path : Path) (base : String) (keys : List String)
    (value : Json) (told : Prop) :
    ∃ added, (progress.settle path base keys (some value)).failures =
        progress.failures ++ added ∧ Adds base keys told (.ok value) added := by
  simp only [Progress.settle]
  cases followed : descend base keys value with
  | ok part => exact ⟨[], (List.append_nil _).symm, adds_ok_iff.mpr (.inl ⟨part, followed, rfl⟩)⟩
  | error failure => exact ⟨[failure], rfl, adds_ok_iff.mpr (.inr ⟨failure, followed, rfl⟩)⟩

/-- Settling collects the failures of its placeholders. -/
theorem Settling.exists_collected {final : Progress}
    (settled : Settling qualify names progress transcript (.ok final))
    (included : transcript ⊆ fetches) (told : progress.Told earlier fetches) :
    ∃ failures, final.failures = progress.failures ++ failures ∧
      Collected qualify fetches earlier names failures := by
  -- The known variables are those of the earlier placeholders, so whether a failure is told
  -- here or was told before can be read off what is known.
  generalize succeeded : Except.ok final = result at settled
  induction settled generalizing earlier with
  | finished =>
    cases succeeded
    exact ⟨[], (List.append_nil _).symm, .nil⟩
  | @known path name rest progress _ _ value held _ ih =>
    have among := (told.known (qualify name.base)).mpr (by rw [held]; exact nofun)
    have still := (told.again (by rw [held]; exact nofun)).of_fetched_eq
      (settle_fetched progress path (qualify name.base) name.keys value)
    obtain ⟨failures, same, collected⟩ := ih included still succeeded
    cases value with
    | none =>
      obtain ⟨text, fetched⟩ := told.failed _ held
      exact ⟨_, same, .cons fetched (.again among) collected⟩
    | some value =>
      obtain ⟨added, settled, adds⟩ :=
        settle_adds progress path (qualify name.base) name.keys value (qualify name.base ∈ earlier)
      exact ⟨added ++ failures, by rw [same, settled, List.append_assoc],
        .cons (told.value _ _ held) adds collected⟩
  | @fetched path name rest progress _ _ value new _ ih =>
    obtain ⟨fetched, later⟩ := List.cons_subset.mp included
    have still := (told.fetch fetched (not_isFatal_ok _ _)).of_fetched_eq
      (settle_fetched _ path (qualify name.base) name.keys (some value))
    obtain ⟨failures, same, collected⟩ := ih later still succeeded
    obtain ⟨added, settled, adds⟩ := settle_adds (progress.fetch (qualify name.base) (some value))
      path (qualify name.base) name.keys value (qualify name.base ∈ earlier)
    exact ⟨added ++ failures, by rw [same, settled, List.append_assoc]; rfl,
      .cons fetched adds collected⟩
  | @reported path name rest progress _ _ text new _ ih =>
    obtain ⟨fetched, later⟩ := List.cons_subset.mp included
    have still : (progress.report (qualify name.base) text).Told _ fetches :=
      (told.fetch fetched (not_isFatal_reported _ _)).of_fetched_eq rfl
    obtain ⟨failures, same, collected⟩ := ih later still succeeded
    have first : qualify name.base ∉ earlier := fun among => (told.known _).mp among new
    exact ⟨.unavailable text :: failures, by rw [same, Progress.report]; simp,
      .cons fetched (.unavailable first) collected⟩
  | fatal => cases succeeded

/-! ### How a resolution ends -/

/-- Every fetch brought a value. -/
def AllFetched (fetches : List (Exchange Fetching)) : Prop :=
  ∀ exchange ∈ fetches, ∃ base value, exchange = fetching base (.ok value)

/-- The keys of every placeholder lead to a part of the value that was fetched for it. -/
def AllPresent (qualify : String → String) (names : List (Path × NamePath))
    (fetches : List (Exchange Fetching)) : Prop :=
  ∀ site ∈ names, ∀ value, fetching (qualify site.2.base) (.ok value) ∈ fetches →
    ∃ part, site.2.keys.foldlM Json.get? value = some part

/-- Where nothing was collected from fetched values, every placeholder has its part. -/
theorem Collected.allPresent (distinct : (fetches.map Exchange.question).Nodup)
    (collected : Collected qualify fetches earlier names []) : AllPresent qualify names fetches := by
  generalize none : [] = failures at collected
  induction collected with
  | nil => exact nofun
  | @cons earlier path name rest reply added failures here adds _ ih =>
    obtain ⟨rfl, rfl⟩ := List.append_eq_nil_iff.mp none.symm
    refine List.forall_mem_cons.mpr ⟨fun value asked => ?_, ih rfl⟩
    obtain rfl : reply = .ok value := by
      have same := List.inj_on_of_nodup_map distinct here asked rfl
      cases same
      rfl
    exact adds_ok_nil_iff.mp adds

/-- Where every placeholder has its part, nothing is collected. -/
theorem Collected.eq_nil (collected : Collected qualify fetches earlier names failures)
    (fetched : AllFetched fetches) (present : AllPresent qualify names fetches) :
    failures = [] := by
  induction collected with
  | nil => rfl
  | @cons earlier path name rest reply added failures here adds _ ih =>
    obtain ⟨first, later⟩ := List.forall_mem_cons.mp present
    obtain ⟨_, value, same⟩ := fetched _ here
    cases same
    have none : added = [] := adds.unique (adds_ok_nil_iff.mpr (first value here)) |>.symm
    rw [none, ih later]
    rfl

/-- How a resolution of some placeholders ends and what it fetches, where `fetches` are the
exchanges of fetching all variables one after the other. -/
structure Aggregated (qualify : String → String) (names : List (Path × NamePath))
    (fetches transcript : List (Exchange Fetching)) (result : Except ResolutionError Json) :
    Prop where
  /-- The first fatal fetch is the last one that is made and gives the result, whatever
  failed before. -/
  fatal : ∀ before base error after,
    fetches = before ++ fetching base (.error (.fatal error)) :: after →
    (∀ exchange ∈ before, ¬ IsFatal exchange) →
    transcript = before ++ [fetching base (.error (.fatal error))] ∧ result = .error error
  /-- Without a fatal one all fetches are made, which determine the failures. These are the
  result if there are any. -/
  collected : (∀ exchange ∈ fetches, ¬ IsFatal exchange) →
    transcript = fetches ∧ ∃ failures, Collected qualify fetches [] names failures ∧
      (∀ others, Collected qualify fetches [] names others → others = failures) ∧
      (failures = [] ∧ (∃ resolved, result = .ok resolved) ∨
        failures ≠ [] ∧ result = .error (.placeholders failures))
  /-- It succeeds just where no fetch failed and no key is missing. -/
  succeeds : (∃ resolved, result = .ok resolved) ↔
    AllFetched fetches ∧ AllPresent qualify names fetches

/-- The first element of a kind is where it is. -/
theorem eq_of_first {α : Type} {kind : α → Prop} {before earlier after : List α} {x y : α}
    (started : before ++ [x] <+: earlier ++ y :: after) (first : ∀ a ∈ before, ¬ kind a)
    (isKind : kind x) (firstAgain : ∀ a ∈ earlier, ¬ kind a) (isKindToo : kind y) :
    before = earlier ∧ x = y := by
  induction before generalizing earlier with
  | nil =>
    cases earlier with
    | nil => exact ⟨rfl, (List.cons_prefix_cons.mp started).1⟩
    | cons b rest =>
      obtain ⟨rfl, _⟩ := List.cons_prefix_cons.mp started
      exact absurd isKind (firstAgain x List.mem_cons_self)
  | cons a rest ih =>
    obtain ⟨here, later⟩ := List.forall_mem_cons.mp first
    cases earlier with
    | nil =>
      obtain ⟨rfl, _⟩ := List.cons_prefix_cons.mp started
      exact absurd isKindToo here
    | cons b others =>
      obtain ⟨rfl, rest_started⟩ := List.cons_prefix_cons.mp started
      obtain ⟨rfl, same⟩ := ih rest_started later (List.forall_mem_cons.mp firstAgain).2
      exact ⟨rfl, same⟩

theorem aggregated_of_fatal {before : List (Exchange Fetching)} {error : ResolutionError}
    (started : before ++ [fetching base (.error (.fatal error))] <+: fetches)
    (unfatal : ∀ exchange ∈ before, ¬ IsFatal exchange) :
    Aggregated qualify names fetches (before ++ [fetching base (.error (.fatal error))])
      (.error error) := by
  have last : fetching base (.error (.fatal error)) ∈ fetches :=
    started.subset (List.mem_append_right _ List.mem_cons_self)
  constructor
  case fatal =>
    rintro earlier other cause after rfl first
    obtain ⟨rfl, same⟩ := eq_of_first started unfatal ⟨_, _, rfl⟩ first ⟨_, _, rfl⟩
    cases same
    exact ⟨rfl, rfl⟩
  case collected => exact fun none => absurd ⟨_, _, rfl⟩ (none _ last)
  case succeeds =>
    constructor
    · rintro ⟨_, same⟩
      cases same
    · rintro ⟨fetched, _⟩
      obtain ⟨_, _, same⟩ := fetched _ last
      cases same

theorem aggregated_of_unfatal {final : Progress}
    (distinct : (fetches.map Exchange.question).Nodup)
    (settled : Settling qualify names Progress.start fetches (.ok final))
    (unfatal : ∀ exchange ∈ fetches, ¬ IsFatal exchange) :
    Aggregated qualify names fetches fetches (conclude tree (.ok final)) := by
  obtain ⟨failures, same, collected⟩ :=
    settled.exists_collected (List.Subset.refl _) told_start
  rw [Progress.start, List.nil_append] at same
  constructor
  case fatal =>
    rintro before base error after rfl _
    exact absurd ⟨base, error, rfl⟩ (unfatal _ (List.mem_append_right _ List.mem_cons_self))
  case collected =>
    refine fun _ => ⟨rfl, failures, collected, fun _ again => collected.unique distinct again, ?_⟩
    by_cases none : failures = []
    · exact .inl ⟨none, _, conclude_eq_ok_iff.mpr ⟨final, rfl, same.trans none, rfl⟩⟩
    · have failed : final.failures.isEmpty = false := by
        rw [same]
        exact List.isEmpty_eq_false_iff.mpr none
      refine .inr ⟨none, ?_⟩
      rw [conclude, failed, same]
      rfl
  case succeeds =>
    constructor
    · rintro ⟨resolved, succeeded⟩
      obtain ⟨_, isFinal, clean, _⟩ := conclude_eq_ok_iff.mp succeeded
      cases isFinal
      have fetched : AllFetched fetches := fun _ member => settled.exists_value clean member
      rw [same] at clean
      exact ⟨fetched, (clean ▸ collected).allPresent distinct⟩
    · rintro ⟨fetched, present⟩
      have clean : final.failures = [] := same.trans (collected.eq_nil fetched present)
      exact ⟨_, conclude_eq_ok_iff.mpr ⟨final, rfl, clean, rfl⟩⟩

/-- Settling whose exchanges are the first ones of `fetches` ends as these tell. -/
theorem Settling.aggregated {settled : Except ResolutionError Progress}
    (settling : Settling qualify names Progress.start transcript settled)
    (asked : fetches.map Exchange.question = bases qualify names)
    (started : transcript <+: fetches) :
    Aggregated qualify names fetches transcript (conclude tree settled) := by
  rcases settling.unfatal_or_fatal with
    ⟨unfatal, all, final, rfl⟩ | ⟨before, base, error, rfl, unfatal, rfl⟩
  · -- All variables were fetched, so there is nothing more in `fetches`.
    have complete : transcript = fetches := by
      refine started.eq_of_length ?_
      have same := congrArg List.length ((all.trans (pending_start names)).trans asked.symm)
      simpa only [List.length_map] using same
    subst complete
    exact aggregated_of_unfatal (asked ▸ nodup_eraseDups _) settling unfatal
  · exact aggregated_of_fatal started unfatal

/-- A resolution of well-formed placeholders ends as all its fetches tell. -/
theorem aggregated_resolve {σ : Type} (qualify : String → String)
    (wellFormed : ∀ site ∈ Tree.sites tree ignored, site.WellFormed)
    (fetch : String → σ → Except FetchFailure Json × σ) (state : σ) :
    Aggregated qualify (placeholders tree ignored)
      (inTurn (I := Fetching) fetch (bases qualify (placeholders tree ignored)) state)
      ((resolve tree ignored qualify).transcript fetch state)
      ((resolve tree ignored qualify).run fetch state).1 := by
  have ended := ends_transcript (I := Fetching) fetch (resolve tree ignored qualify) state
  obtain ⟨settled, settling, concluded⟩ :=
    (ends_resolve_iff (parseSites_of_wellFormed wellFormed)).mp ended
  have started : (resolve tree ignored qualify).transcript fetch state <+:
      inTurn (I := Fetching) fetch (variablesOf tree ignored qualify) state :=
    (asksInOrder_resolve tree ignored qualify).transcript_prefix_inTurn (I := Fetching) state
  rw [variablesOf_of_wellFormed wellFormed] at started
  rw [concluded]
  exact settling.aggregated (map_question_inTurn (I := Fetching) _ _) started

end ManifestVariables.Resolution
