import ManifestVariables.Proofs.Name.Grammar
import ManifestVariables.Proofs.Resolution.Failures

/-!
# Trees with one name

Where all placeholders of a tree have the same name, its variable is fetched and nothing else
(`Resolution.OneName.exists_fetch`), and they all stand for the same part of its value
(`Resolution.OneName.exists_part`). The part is the value itself just where the name selects
no part: a part that keys lead to is smaller than what it is a part of.
-/

namespace ManifestVariables

namespace Json

variable {value part : Json} {keys : List String}

theorem sizeOf_lt_of_get? {key : String} (found : value.get? key = some part) :
    sizeOf part < sizeOf value := by
  cases value with
  | obj fields =>
    rw [get?] at found
    have smaller : sizeOf part < sizeOf fields := by
      induction fields with
      | nil => cases found
      | cons field rest ih =>
        obtain ⟨name, child⟩ := field
        rw [Keyed.get?] at found
        split at found
        · cases found
          simp
          omega
        · have later := ih found
          simp
          omega
    simp
    omega
  | _ => cases found

theorem ne_of_foldlM_get? (some_key : keys ≠ []) (found : keys.foldlM get? value = some part) :
    part ≠ value := by
  have smaller : ∀ (keys : List String) (value : Json), keys.foldlM get? value = some part →
      sizeOf part ≤ sizeOf value := by
    intro keys
    induction keys with
    | nil =>
      intro value found
      cases found
      exact Nat.le_refl _
    | cons key rest ih =>
      intro value found
      rw [List.foldlM_cons] at found
      obtain ⟨child, here, found⟩ := Option.bind_eq_some_iff.mp found
      exact Nat.le_trans (ih child found) (Nat.le_of_lt (sizeOf_lt_of_get? here))
  rintro rfl
  cases keys with
  | nil => exact some_key rfl
  | cons key rest =>
    rw [List.foldlM_cons] at found
    obtain ⟨child, here, found⟩ := Option.bind_eq_some_iff.mp found
    exact Nat.not_lt_of_le (smaller rest child found) (sizeOf_lt_of_get? here)

end Json

namespace Resolution

open Program

variable {qualify : String → String} {tree value part : Json} {ignored : List SubtreePattern}
  {name : String} {transcript : List (Exchange Fetching)} {result : Except ResolutionError Json}

theorem mapM_congr {α β : Type} {first second : α → Option β} {list : List α}
    (alike : ∀ a ∈ list, first a = second a) : list.mapM first = list.mapM second := by
  induction list with
  | nil => rfl
  | cons a rest ih =>
    obtain ⟨here, later⟩ := List.forall_mem_cons.mp alike
    rw [List.mapM_cons, List.mapM_cons, here, ih later]

/-- The placeholders of a tree have one name, and there are some. -/
structure OneName (tree : Json) (ignored : List SubtreePattern) (name : String) : Prop where
  nonempty : Tree.sites tree ignored ≠ []
  named : ∀ site ∈ Tree.sites tree ignored, Placeholder.name site.placeholder = .ok name

namespace OneName

variable (one : OneName tree ignored name)

include one

theorem path_eq {site : Site} (among : site ∈ Tree.sites tree ignored) :
    Placeholder.path site.placeholder = .ok (NamePath.parse name) := by
  rw [Placeholder.path, one.named site among]
  rfl

theorem wellFormed : ∀ site ∈ Tree.sites tree ignored, site.WellFormed :=
  fun _ among => ⟨_, one.path_eq among⟩

theorem parseSites_eq : parseSites (Tree.sites tree ignored) = .ok (placeholders tree ignored) :=
  parseSites_of_wellFormed one.wellFormed

theorem snd_eq {site : Path × NamePath} (member : site ∈ placeholders tree ignored) :
    site.2 = NamePath.parse name := by
  obtain ⟨found, among, read⟩ := exists_site_of_mem_named member
  exact Except.ok.inj (read.symm.trans (one.path_eq among))

theorem placeholders_ne_nil : placeholders tree ignored ≠ [] := by
  obtain ⟨site, rest, sites⟩ := List.exists_cons_of_ne_nil one.nonempty
  have read := one.path_eq (sites ▸ List.mem_cons_self)
  rw [placeholders, sites, named_cons read]
  exact List.cons_ne_nil _ _

theorem bases_eq :
    bases qualify (placeholders tree ignored) = [qualify (NamePath.parse name).base] := by
  have same : ∀ base ∈ (placeholders tree ignored).map fun site => qualify site.2.base,
      base = qualify (NamePath.parse name).base := by
    intro base member
    obtain ⟨site, among, rfl⟩ := List.mem_map.mp member
    rw [one.snd_eq among]
  rw [bases]
  obtain ⟨site, rest, whole⟩ := List.exists_cons_of_ne_nil one.placeholders_ne_nil
  rw [whole, List.map_cons] at same ⊢
  obtain ⟨here, later⟩ := List.forall_mem_cons.mp same
  have none : (rest.map fun site => qualify site.2.base).filter
      (fun base => !base == qualify site.2.base) = [] := by
    refine List.filter_eq_nil_iff.mpr fun base member => ?_
    rw [later base member, here]
    simp
  rw [List.eraseDups_cons, none, here]
  rfl

/-- The variable is fetched once, and no other. -/
theorem exists_fetch (ended : Ends (resolve tree ignored qualify) transcript result) :
    ∃ reply, transcript = [fetching (qualify (NamePath.parse name).base) reply] := by
  have started := (asksInOrder_resolve tree ignored qualify).prefix_of_reaches ended
  have fetches := fetches_of_ends_resolve ended
  rw [variablesOf_of_wellFormed one.wellFormed, one.bases_eq] at started fetches
  match transcript with
  | [] =>
    rcases fetches with all | ⟨before, _, _, same, _⟩
    · cases all
    · cases before <;> cases same
  | [⟨asked, reply⟩] =>
    obtain ⟨rfl, _⟩ := List.cons_prefix_cons.mp started
    exact ⟨reply, rfl⟩
  | _ :: _ :: _ =>
    obtain ⟨_, more⟩ := List.cons_prefix_cons.mp started
    exact nomatch List.prefix_nil.mp more

/-- The tree is resolved where the fetched value has the part that the name selects. -/
theorem exists_ok_of_part
    (ended : Ends (resolve tree ignored qualify)
      [fetching (qualify (NamePath.parse name).base) (.ok value)] result)
    (found : (NamePath.parse name).keys.foldlM Json.get? value = some part) :
    ∃ resolved, result = .ok resolved := by
  obtain ⟨settled, settling, rfl⟩ := (ends_resolve_iff one.parseSites_eq).mp ended
  have asked : [fetching (qualify (NamePath.parse name).base) (.ok value)].map Exchange.question =
      bases qualify (placeholders tree ignored) := one.bases_eq.symm
  refine (settling.aggregated asked (List.prefix_refl _)).succeeds.mpr ⟨?_, ?_⟩
  · exact List.forall_mem_singleton.mpr ⟨_, _, rfl⟩
  · intro site among other fetched
    rw [one.snd_eq among] at fetched ⊢
    cases List.mem_singleton.mp fetched
    exact ⟨part, found⟩

/-- A resolved tree has the part that the name selects in the place of each placeholder. -/
theorem exists_part {resolved : Json} (distinct : tree.DistinctKeys)
    (ended : Ends (resolve tree ignored qualify)
      [fetching (qualify (NamePath.parse name).base) (.ok value)] (.ok resolved)) :
    ∃ part, (NamePath.parse name).keys.foldlM Json.get? value = some part ∧
      Tree.filled? ignored (fun _ => some part) [] tree = some resolved := by
  obtain ⟨names, progress, parsed, settled, clean, rfl⟩ := ends_resolve_ok_iff.mp ended
  obtain ⟨new, found, values⟩ := settled.found_eq reported_start clean
  have held : Keyed.get? progress.fetched (qualify (NamePath.parse name).base) =
      some (some value) := by
    rw [settled.fetched_eq]
    simp [Progress.start, Keyed.get?, fetchedValues, Except.toOption]
  have standsFor : ∀ site ∈ Tree.sites tree ignored,
      standsFor? progress.fetched qualify site.placeholder =
        (NamePath.parse name).keys.foldlM Json.get? value := by
    intro site among
    simp [standsFor?, one.path_eq among, part?, held, Except.toOption]
  rw [mapM_parseSites parsed, mapM_congr fun site among =>
    congrArg (Option.map (Prod.mk site.path)) (standsFor site among)] at values
  cases selected : (NamePath.parse name).keys.foldlM Json.get? value with
  | none =>
    obtain ⟨site, rest, sites⟩ := List.exists_cons_of_ne_nil one.nonempty
    rw [selected, sites, List.mapM_cons] at values
    cases values
  | some part =>
    rw [selected] at values
    have valued := (mapM_sites (fun _ => some part) tree ignored).symm.trans values
    have filled := Tree.filled?_of_valued? ignored tree [] distinct valued
    refine ⟨part, rfl, ?_⟩
    rw [filled, found, List.length_nil, Tree.substituteBelow_zero]
    rfl

/-- Two values that stand for the placeholders alike are the same. -/
theorem eq_of_filled? {first second filled : Json}
    (here : Tree.filled? ignored (fun _ => some first) [] tree = some filled)
    (there : Tree.filled? ignored (fun _ => some second) [] tree = some filled) :
    first = second := by
  obtain ⟨site, among⟩ := List.exists_mem_of_ne_nil _ one.nonempty
  obtain ⟨string, found, rfl⟩ := List.mem_map.mp among
  obtain ⟨stands, full⟩ := List.mem_filter.mp found
  exact Tree.eq_of_filled? ignored tree [] ⟨string, stands, full⟩ here there

end OneName

/-- The placeholder of a valid name is a tree with this name. -/
theorem oneName_ofName (valid : Name.Valid name.toList) :
    OneName (.str (Placeholder.ofName name)) [] name := by
  have alone : Tree.sites (.str (Placeholder.ofName name)) [] =
      [⟨[], Placeholder.ofName name⟩] := by
    simp [Tree.sites, Tree.strings, Path.ignoredBy, Placeholder.isFull_ofName valid]
  refine ⟨by rw [alone]; exact List.cons_ne_nil _ _, fun site among => ?_⟩
  rw [alone] at among
  rw [List.mem_singleton.mp among]
  exact Placeholder.name_ofName valid

end Resolution

end ManifestVariables
