import ManifestVariables.Proofs.Program.Questions
import ManifestVariables.Proofs.Resolution.Settling

/-!
# What a resolution fetches

A resolution fetches the variables of a tree in the order in which they first appear,
each once (`Resolution.asksInOrder_resolve`). It fetches all of them unless some fetch
is fatal, which is the last one then and gives the result
(`Resolution.fetches_of_ends_resolve`).
-/

namespace ManifestVariables.Resolution

open Program

variable {qualify : String → String} {path : Path} {name : NamePath}
  {names rest : List (Path × NamePath)} {progress : Progress} {tree : Json}
  {ignored : List SubtreePattern} {transcript : List (Exchange Fetching)}

/-- The variables of some placeholders in the order in which they first appear. -/
def bases (qualify : String → String) (names : List (Path × NamePath)) : List String :=
  (names.map fun site => qualify site.2.base).eraseDups

/-- The variables among them that were not fetched so far. -/
def pending (qualify : String → String) (names : List (Path × NamePath)) (progress : Progress) :
    List String :=
  ((names.map fun site => qualify site.2.base).filter fun base =>
    (Keyed.get? progress.fetched base).isNone).eraseDups

/-- The variables of a tree; none where some name is malformed. -/
def variablesOf (tree : Json) (ignored : List SubtreePattern) (qualify : String → String) :
    List String :=
  match parseSites (Tree.sites tree ignored) with
  | .ok names => bases qualify names
  | .error _ => []

theorem nodup_eraseDups (names : List String) : names.eraseDups.Nodup := by
  induction length : names.length using Nat.strongRecOn generalizing names with
  | ind count ih =>
    cases names with
    | nil => exact .nil
    | cons name rest =>
      rw [List.eraseDups_cons, List.nodup_cons, List.mem_eraseDups]
      have shorter : (rest.filter fun other => !other == name).length < count :=
        length ▸ Nat.lt_succ_of_le (List.length_filter_le _ _)
      exact ⟨by simp, ih _ shorter _ rfl⟩

theorem nodup_variablesOf (tree : Json) (ignored : List SubtreePattern)
    (qualify : String → String) : (variablesOf tree ignored qualify).Nodup := by
  unfold variablesOf
  split
  · exact nodup_eraseDups _
  · exact .nil

theorem pending_start (names : List (Path × NamePath)) :
    pending qualify names Progress.start = bases qualify names := by
  exact congrArg List.eraseDups (List.filter_eq_self.mpr fun _ _ => rfl)

@[simp] theorem pending_settle (names : List (Path × NamePath)) (progress : Progress)
    (path : Path) (base : String) (keys : List String) (value : Option Json) :
    pending qualify names (progress.settle path base keys value) =
      pending qualify names progress := by
  simp only [pending, settle_fetched]

@[simp] theorem pending_report (names : List (Path × NamePath)) (progress : Progress)
    (base text : String) :
    pending qualify names (progress.report base text) =
      pending qualify names (progress.fetch base none) :=
  rfl

theorem pending_cons_of_known {value : Option Json}
    (held : Keyed.get? progress.fetched (qualify name.base) = some value) :
    pending qualify ((path, name) :: rest) progress = pending qualify rest progress := by
  simp [pending, held]

/-- What is pending besides a fetched variable was so before. -/
theorem pending_fetch (names : List (Path × NamePath)) (progress : Progress) (base : String)
    (value : Option Json) :
    pending qualify names (progress.fetch base value) =
      ((names.map fun site => qualify site.2.base).filter fun other =>
        !other == base && (Keyed.get? progress.fetched other).isNone).eraseDups := by
  refine congrArg List.eraseDups (congrArg (List.filter · _) (funext fun other => ?_))
  by_cases same : other = base
  · subst same
    simp [Progress.fetch]
  · simp [Progress.fetch, Keyed.get?_put_of_ne same, same]

/-- A variable that is fetched is the first one pending, and not pending any more. -/
theorem pending_cons_of_new (new : Keyed.get? progress.fetched (qualify name.base) = none)
    (value : Option Json) :
    pending qualify ((path, name) :: rest) progress =
      qualify name.base :: pending qualify rest (progress.fetch (qualify name.base) value) := by
  rw [pending_fetch]
  simp [pending, new, List.eraseDups_cons, List.filter_filter]

theorem asksInOrder_settleAll (names : List (Path × NamePath)) (progress : Progress) :
    (settleAll qualify names progress).AsksInOrder (pending qualify names progress) := by
  induction names generalizing progress with
  | nil => trivial
  | cons site rest ih =>
    obtain ⟨path, name⟩ := site
    simp only [settleAll]
    split
    next value held =>
      rw [pending_cons_of_known held, ← pending_settle]
      exact ih _
    next new =>
      rw [pending_cons_of_new new none]
      refine ⟨rfl, fun reply => ?_⟩
      cases reply with
      | ok value =>
        have rest := ih ((progress.fetch (qualify name.base) (some value)).settle path
          (qualify name.base) name.keys (some value))
        rwa [pending_settle, pending_fetch, ← pending_fetch _ _ _ none] at rest
      | error failure =>
        cases failure with
        | reported text => exact ih (progress.report (qualify name.base) text)
        | fatal error => exact asksInOrder_done _

/-- The variables of a tree are fetched in the order in which they first appear, each
once. -/
theorem asksInOrder_resolve (tree : Json) (ignored : List SubtreePattern)
    (qualify : String → String) :
    (resolve tree ignored qualify).AsksInOrder (variablesOf tree ignored qualify) := by
  unfold resolve variablesOf
  cases parseSites (Tree.sites tree ignored) with
  | error malformed => exact asksInOrder_done _
  | ok names =>
    simp only [← pending_start]
    refine (asksInOrder_settleAll names _).andThen_done fun result => ?_
    match result with
    | .error error => exact ⟨_, rfl⟩
    | .ok progress =>
      dsimp only
      split <;> exact ⟨_, rfl⟩

/-- A fetch whose failure ends the whole resolution. -/
def IsFatal (exchange : Exchange Fetching) : Prop :=
  ∃ base error, exchange = fetching base (.error (.fatal error))

theorem not_isFatal_ok (base : String) (value : Json) : ¬ IsFatal (fetching base (.ok value)) := by
  rintro ⟨_, _, same⟩
  cases same

theorem not_isFatal_reported (base text : String) :
    ¬ IsFatal (fetching base (.error (.reported text))) := by
  rintro ⟨_, _, same⟩
  cases same

/-- Either no fetch is fatal and all pending variables are fetched, or the last fetch is the
only fatal one and gives the result. -/
theorem Settling.unfatal_or_fatal {result : Except ResolutionError Progress}
    (settled : Settling qualify names progress transcript result) :
    ((∀ exchange ∈ transcript, ¬ IsFatal exchange) ∧
        transcript.map Exchange.question = pending qualify names progress ∧
        ∃ final, result = .ok final) ∨
      ∃ before base error, transcript = before ++ [fetching base (.error (.fatal error))] ∧
        (∀ exchange ∈ before, ¬ IsFatal exchange) ∧ result = .error error := by
  induction settled with
  | finished => exact .inl ⟨nofun, rfl, _, rfl⟩
  | known held _ ih =>
    rw [pending_settle] at ih
    rwa [pending_cons_of_known held]
  | @fetched path name rest progress _ _ value new _ ih =>
    have harmless := not_isFatal_ok (qualify name.base) value
    rcases ih with ⟨unfatal, all, final⟩ | ⟨before, last, error, rfl, unfatal, failed⟩
    · rw [pending_settle] at all
      refine .inl ⟨List.forall_mem_cons.mpr ⟨harmless, unfatal⟩, ?_, final⟩
      rw [pending_cons_of_new new (some value), ← all]
      rfl
    · exact .inr ⟨_ :: before, last, error, rfl, List.forall_mem_cons.mpr ⟨harmless, unfatal⟩, failed⟩
  | @reported path name rest progress _ _ text new _ ih =>
    have harmless := not_isFatal_reported (qualify name.base) text
    rcases ih with ⟨unfatal, all, final⟩ | ⟨before, last, error, rfl, unfatal, failed⟩
    · refine .inl ⟨List.forall_mem_cons.mpr ⟨harmless, unfatal⟩, ?_, final⟩
      rw [pending_cons_of_new new none, ← pending_report, ← all]
      rfl
    · exact .inr ⟨_ :: before, last, error, rfl, List.forall_mem_cons.mpr ⟨harmless, unfatal⟩, failed⟩
  | fatal => exact .inr ⟨[], _, _, rfl, nofun, rfl⟩

/-- All pending variables are fetched, or the last fetch is fatal and gives the result. -/
theorem Settling.fetches {result : Except ResolutionError Progress}
    (settled : Settling qualify names progress transcript result) :
    transcript.map Exchange.question = pending qualify names progress ∨
      ∃ before name error, transcript = before ++ [fetching name (.error (.fatal error))] ∧
        result = .error error := by
  rcases settled.unfatal_or_fatal with ⟨_, all, _⟩ | ⟨before, base, error, same, _, failed⟩
  · exact .inl all
  · exact .inr ⟨before, base, error, same, failed⟩

/-- The last of some elements is a given one of them or comes after it. -/
theorem last_or_later {α : Type} {earlier later before : List α} {given last : α}
    (same : earlier ++ given :: later = before ++ [last]) :
    (later = [] ∧ given = last) ∨ ∃ between, later = between ++ [last] ∧ given ∈ before := by
  rcases List.eq_nil_or_concat later with rfl | ⟨between, other, rfl⟩
  · exact .inl ⟨rfl, List.singleton_inj.mp (List.append_inj_right' same rfl)⟩
  · rw [List.concat_eq_append, ← List.cons_append, ← List.append_assoc] at same
    obtain rfl := List.singleton_inj.mp (List.append_inj_right' same rfl)
    rw [← List.append_inj_left' same rfl]
    exact .inr ⟨between, List.concat_eq_append .., List.mem_append_right _ List.mem_cons_self⟩

/-- A fatal fetch is the last one and gives the result. -/
theorem Settling.ends_after_fatal {result : Except ResolutionError Progress} {base : String}
    {error : ResolutionError} {earlier later : List (Exchange Fetching)}
    (settled : Settling qualify names progress
      (earlier ++ fetching base (.error (.fatal error)) :: later) result) :
    later = [] ∧ result = .error error := by
  rcases settled.unfatal_or_fatal with ⟨unfatal, _⟩ | ⟨before, last, cause, same, unfatal, failed⟩
  · exact absurd ⟨base, error, rfl⟩ (unfatal _ (List.mem_append_right _ List.mem_cons_self))
  · rcases last_or_later same with ⟨none, given⟩ | ⟨_, _, earlier⟩
    · cases given
      exact ⟨none, failed⟩
    · exact absurd ⟨base, error, rfl⟩ (unfatal _ earlier)

/-- A resolution ends at once where some name is malformed, and otherwise settles its
placeholders. -/
theorem ends_resolve_cases {result : Except ResolutionError Json}
    (ended : Ends (resolve tree ignored qualify) transcript result) :
    (variablesOf tree ignored qualify = [] ∧ transcript = []) ∨
      ∃ names settled, variablesOf tree ignored qualify = bases qualify names ∧
        Settling qualify names Progress.start transcript settled ∧
        result = conclude tree settled := by
  unfold variablesOf
  cases parsed : parseSites (Tree.sites tree ignored) with
  | error malformed =>
    rw [resolve, parsed] at ended
    exact .inl ⟨rfl, (ends_done_iff.mp ended).1⟩
  | ok names =>
    obtain ⟨settled, settling, concluded⟩ := (ends_resolve_iff parsed).mp ended
    exact .inr ⟨names, settled, rfl, settling, concluded⟩

/-- All variables of a tree are fetched, or the last fetch is fatal and gives the
result. -/
theorem fetches_of_ends_resolve {result : Except ResolutionError Json}
    (ended : Ends (resolve tree ignored qualify) transcript result) :
    transcript.map Exchange.question = variablesOf tree ignored qualify ∨
      ∃ before name error, transcript = before ++ [fetching name (.error (.fatal error))] ∧
        result = .error error := by
  rcases ends_resolve_cases ended with ⟨none, rfl⟩ | ⟨names, settled, same, settling, rfl⟩
  · exact .inl none.symm
  · rw [same, ← pending_start]
    rcases settling.fetches with all | ⟨before, name, error, rfl, rfl⟩
    · exact .inl all
    · exact .inr ⟨before, name, error, rfl, rfl⟩

/-- A resolution ends at once with what was fatal to a fetch. -/
theorem ends_after_fatal {result : Except ResolutionError Json} {base : String}
    {error : ResolutionError} {earlier later : List (Exchange Fetching)}
    (ended : Ends (resolve tree ignored qualify)
      (earlier ++ fetching base (.error (.fatal error)) :: later) result) :
    later = [] ∧ result = .error error := by
  rcases ends_resolve_cases ended with ⟨_, none⟩ | ⟨_, settled, _, settling, rfl⟩
  · exact absurd none (List.append_ne_nil_of_right_ne_nil _ (List.cons_ne_nil _ _))
  · obtain ⟨none, rfl⟩ := settling.ends_after_fatal
    exact ⟨none, rfl⟩

theorem ends_at_fatal {result : Except ResolutionError Json} {base : String}
    {error : ResolutionError} (ended : Ends (resolve tree ignored qualify) transcript result)
    (member : fetching base (.error (.fatal error)) ∈ transcript) :
    (∃ before, transcript = before ++ [fetching base (.error (.fatal error))]) ∧
      result = .error error := by
  obtain ⟨earlier, later, rfl⟩ := List.append_of_mem member
  obtain ⟨rfl, failed⟩ := ends_after_fatal ended
  exact ⟨⟨earlier, rfl⟩, failed⟩

theorem eq_error_of_fatal {result : Except ResolutionError Json} {base : String}
    {error : ResolutionError} (ended : Ends (resolve tree ignored qualify) transcript result)
    (member : fetching base (.error (.fatal error)) ∈ transcript) : result = .error error :=
  (ends_at_fatal ended member).2

end ManifestVariables.Resolution
