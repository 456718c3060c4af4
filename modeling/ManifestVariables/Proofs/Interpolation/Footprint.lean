import ManifestVariables.Proofs.Interpolation.LinkBindings
import ManifestVariables.Proofs.Interpolation.OfflineCheck

/-!
# What a resolution leaves in the ledger

Where nobody else comes to the ledger, a resolution through a handle of a set adds a row to
this set for each latest version that the config server told it, and leaves everything else
as it is, however it ends (`Interpolation.pinned_footprint`). The rows can be read off the
transcript: `latestRows` are those that its lookups by name call for. One fetch adds just
these (`PinnedFetch.of_alone`), and so do fetches one after the other
(`recording_of_expands`).
-/

namespace ManifestVariables.Interpolation

open Program Engine Resolution

variable {director name : String} {tree : Json} {set : VariableSet}
  {options : InterpolationOptions} {transcript : List (Exchange Needs)} {before after : Ledger}

/-- The row that a set is to have once a latest version was told. -/
def latestRow? (set : SetId) : Exchange Needs → Option Association
  | ⟨.call (.get name), (outcome : Outcome)⟩ =>
    (Client.readByName name outcome).toOption.map fun found => ⟨set, name, found.id, none⟩
  | _ => none

/-- The rows that a set is to have for all latest versions that were told. -/
def latestRows (set : SetId) (transcript : List (Exchange Needs)) : List Association :=
  transcript.filterMap (latestRow? set)

@[simp] theorem latestRows_append (set : SetId) (first second : List (Exchange Needs)) :
    latestRows set (first ++ second) = latestRows set first ++ latestRows set second :=
  List.filterMap_append

@[simp] theorem latestRows_cons_asked {query : Ledger.Query}
    (reply : Except LedgerError query.Result) (set : SetId) :
    latestRows set (asked query reply :: transcript) = latestRows set transcript := rfl

theorem latestRows_of_told {outcome : Outcome} {found : Variable}
    (read : Client.readByName name outcome = .ok found) (id : SetId) :
    latestRows id [called (.get name) outcome] = [⟨id, name, found.id, none⟩] := by
  simp [latestRows, latestRow?, read, Except.toOption]

theorem latestRows_of_untold {outcome : Outcome} {error : ServerError}
    (read : Client.readByName name outcome = .error error) (id : SetId) :
    latestRows id [called (.get name) outcome] = [] := by
  simp [latestRows, latestRow?, read, Except.toOption]

theorem latestRow?_eq_some_iff {exchange : Exchange Needs} {row : Association} {id : SetId} :
    latestRow? id exchange = some row ↔
      ∃ name outcome found, exchange = called (.get name) outcome ∧
        Client.readByName name outcome = .ok found ∧ row = ⟨id, name, found.id, none⟩ := by
  constructor
  · intro told
    unfold latestRow? at told
    split at told
    next name outcome =>
      cases read : Client.readByName name outcome with
      | error error => simp [read, Except.toOption] at told
      | ok found =>
        simp only [read, Except.toOption, Option.map_some, Option.some.injEq] at told
        exact ⟨name, outcome, found, rfl, read, told.symm⟩
    · cases told
  · rintro ⟨name, outcome, found, rfl, read, rfl⟩
    simp [latestRow?, read, Except.toOption]

/-- Each of these rows has the version that was told for its name, as the set's own. -/
theorem mem_latestRows_iff {row : Association} {id : SetId} :
    row ∈ latestRows id transcript ↔
      row.set = id ∧ row.provider = none ∧
        ∃ outcome found, called (.get row.name) outcome ∈ transcript ∧
          Client.readByName row.name outcome = .ok found ∧ found.id = row.id := by
  simp only [latestRows, List.mem_filterMap, latestRow?_eq_some_iff]
  constructor
  · rintro ⟨_, member, name, outcome, found, rfl, read, rfl⟩
    exact ⟨rfl, rfl, outcome, found, member, read, rfl⟩
  · obtain ⟨set, name, version, provider⟩ := row
    rintro ⟨rfl, rfl, outcome, found, member, read, rfl⟩
    exact ⟨_, member, name, outcome, found, rfl, read, rfl⟩

theorem latestRows_of_adding {row : Association} {result : Except StoreError VariableId}
    (adding : Adding set row transcript result) (id : SetId) : latestRows id transcript = [] := by
  cases adding <;> rfl

/-- A lookup of a name that the set lacks, and then a call, leave the ledger as it is. -/
theorem Alone.of_lacking {outcome : Outcome}
    (alone : Alone False before
      (asked (.findId set.id name) (.ok none) :: called (.get name) outcome :: transcript) after) :
    before.idOf? set.id name = none ∧ Alone False before transcript after := by
  obtain ⟨_, found, rest⟩ := alone.exists_answered
  obtain ⟨lacking, rfl⟩ := found.findId
  obtain ⟨_, answered, followed⟩ := rest.exists_answered
  cases answered with
  | call => exact ⟨lacking, followed⟩

/-- What some exchanges record in a set for the names of a list: the latest versions that
were told, and nothing else. -/
structure Recording (set : SetId) (names : List String) (before : Ledger)
    (transcript : List (Exchange Needs)) : Prop where
  rows : rowsAdded transcript = latestRows set transcript
  sets : setsSaved transcript = []
  /-- The rows are in the order of the names, one for a name at most. -/
  names : ((latestRows set transcript).map Association.name).Sublist names
  lacking : ∀ row ∈ latestRows set transcript, before.idOf? set row.name = none

theorem recording_nothing {id : SetId} (rows : rowsAdded transcript = [])
    (latest : latestRows id transcript = []) (sets : setsSaved transcript = [])
    (names : List String) : Recording id names before transcript := by
  refine ⟨rows.trans latest.symm, sets, ?_, ?_⟩
  · rw [latest]
    exact List.nil_sublist _
  · rw [latest]
    exact nofun

/-- A fetch records the latest version where the set lacks its name, once it was told. -/
theorem PinnedFetch.of_alone {result : Except FetchFailure Json}
    (fetch : PinnedFetch set name transcript result) (alone : Alone False before transcript after)
    (recorded : Keyed.contains before.sets set.id = true) :
    Recording set.id [name] before transcript := by
  cases fetch with
  | unread => exact recording_nothing rfl rfl rfl _
  | pinned => exact recording_nothing rfl rfl rfl _
  | unrecorded => exact recording_nothing rfl rfl rfl _
  | unknown writable read =>
    refine recording_nothing rfl ?_ rfl _
    rw [latestRows_cons_asked, latestRows_of_untold read]
  | refused writable read adding =>
    obtain ⟨_, alone⟩ := Alone.of_lacking alone
    cases (adding.of_alone alone recorded writable).1
  | @recorded writable outcome latest added read adding =>
    obtain ⟨lacking, alone⟩ := Alone.of_lacking alone
    obtain ⟨_, _, unsaved⟩ := adding.effects
    have rows : rowsAdded added = [⟨set.id, name, latest.id, none⟩] :=
      (adding.of_alone alone recorded writable).2.trans (if_pos lacking)
    have told : latestRows set.id (asked (.findId set.id name) (.ok none) ::
        called (.get name) outcome :: added) = [⟨set.id, name, latest.id, none⟩] := by
      change latestRows set.id ([called (.get name) outcome] ++ added) = _
      rw [latestRows_append, latestRows_of_told read, latestRows_of_adding adding, List.append_nil]
    refine ⟨rows.trans told.symm, unsaved, ?_, ?_⟩
    · rw [told]
      exact List.Sublist.refl _
    · rw [told]
      intro row member
      cases List.mem_singleton.mp member
      exact lacking
  | overtaken writable read adding different =>
    obtain ⟨lacking, alone⟩ := Alone.of_lacking alone
    obtain ⟨_, alone, _⟩ := Serves.exists_between alone
    have own := (adding.of_alone alone recorded writable).1
    rw [lacking, Option.getD_none] at own
    exact absurd (Except.ok.inj own) different

/-- Fetches one after the other record what each of them records, and one that brings a
value leaves a version for its name. -/
theorem recording_of_expands {outer : List (Exchange Fetching)}
    (expanded : Expands (I := Fetching) (fetchPinned set) outer transcript)
    (alone : Alone False before transcript after)
    (recorded : Keyed.contains before.sets set.id = true) :
    Recording set.id (askedFor outer) before transcript ∧
      ∀ name value, fetching name (.ok value) ∈ outer → ∃ id, after.idOf? set.id name = some id := by
  induction expanded generalizing before with
  | nil => exact ⟨recording_nothing rfl rfl rfl _, nofun⟩
  | @cons fetch outer inner rest ended tail ih =>
    obtain ⟨(first : String), (reply : Except FetchFailure Json)⟩ := fetch
    obtain ⟨between, alone, followed⟩ := Serves.exists_between alone
    have fetched : PinnedFetch set first inner reply := ends_fetchPinned_iff.mp ended
    have here := fetched.of_alone alone recorded
    have still : Keyed.contains between.sets set.id = true := by
      rw [(sets_of_alone alone here.sets).1]
      exact recorded
    obtain ⟨later, brought⟩ := ih followed still
    refine ⟨⟨?_, ?_, ?_, ?_⟩, ?_⟩
    · rw [rowsAdded_append, latestRows_append, here.rows, later.rows]
    · rw [setsSaved_append, here.sets, later.sets]
      rfl
    · rw [latestRows_append, List.map_append, askedFor_cons]
      exact here.names.append later.names
    · intro row member
      rw [latestRows_append] at member
      rcases List.mem_append.mp member with now | next
      · exact here.lacking row now
      · -- What the set lacks after the first fetch it lacked before.
        refine Option.eq_none_iff_forall_ne_some.mpr fun id held => ?_
        cases (later.lacking row next).symm.trans ((Alone.served alone).later.idOf?_eq_some held)
    · intro name value member
      rcases List.mem_cons.mp member with same | among
      · cases same
        obtain ⟨id, held, _⟩ := fetched.exists_recorded (Alone.served alone)
        exact ⟨id, (Alone.served followed).later.idOf?_eq_some held⟩
      · exact brought name value among

/-- New rows are all of the set. -/
theorem filter_latestRows (set id : SetId) (transcript : List (Exchange Needs)) :
    ((latestRows set transcript).filter fun row => row.set = id) =
      if id = set then latestRows set transcript else [] :=
  Ledger.filter_owned (fun _ member => (mem_latestRows_iff.mp member).1) id

/-- A well-formed name of a site is that of a variable. -/
theorem mem_variablesOf_of_mem_sites {ignored : List SubtreePattern} {qualify : String → String}
    {site : Site} {found : NamePath}
    (wellFormed : ∀ site ∈ Tree.sites tree ignored, site.WellFormed)
    (among : site ∈ Tree.sites tree ignored)
    (read : Placeholder.path site.placeholder = .ok found) :
    qualify found.base ∈ variablesOf tree ignored qualify := by
  have placed : (site.path, found) ∈ placeholders tree ignored :=
    List.mem_filterMap.mpr ⟨site, among, by rw [read]; rfl⟩
  rw [variablesOf_of_wellFormed wellFormed, bases, List.mem_eraseDups]
  exact List.mem_map.mpr ⟨_, placed, rfl⟩

/-- Where a resolution succeeds, all names are well formed and all variables have values. -/
theorem complete_of_ends_resolve {ignored : List SubtreePattern} {qualify : String → String}
    {outer : List (Exchange Fetching)} {value : Json}
    (ended : Ends (resolve tree ignored qualify) outer (.ok value)) :
    (∀ site ∈ Tree.sites tree ignored, site.WellFormed) ∧
      ∀ name ∈ variablesOf tree ignored qualify, ∃ value, fetching name (.ok value) ∈ outer := by
  obtain ⟨names, _, parsed, _⟩ := ends_resolve_ok_iff.mp ended
  refine ⟨(wellFormed_of_parseSites parsed).1, fun name member => ?_⟩
  have all : askedFor outer = variablesOf tree ignored qualify := by
    rcases fetches_of_ends_resolve ended with all | ⟨_, _, _, _, failed⟩
    · exact all
    · cases failed
  rw [← all] at member
  obtain ⟨reply, among⟩ := exists_fetch_of_mem member
  obtain ⟨_, value, same⟩ := exists_value_of_ends_resolve ended among
  cases same
  exact ⟨value, among⟩

/-- What a resolution records through a handle of a set, and what the set has where it
succeeds. -/
theorem recording_of_ends {result : Except ResolutionError Json}
    (ended : Ends (pinned director tree set options) transcript result)
    (alone : Alone False before transcript after)
    (recorded : Keyed.contains before.sets set.id = true) :
    Recording set.id (variablesOf tree options.ignored (qualifierOf (some set) director options))
        before transcript ∧
      ∀ value, result = .ok value →
        (∀ site ∈ Tree.sites tree options.ignored, site.WellFormed) ∧
          ∀ name ∈ variablesOf tree options.ignored (qualifierOf (some set) director options),
            ∃ id, after.idOf? set.id name = some id := by
  unfold pinned at ended
  rcases checkAbsolute_cases tree options with goesOn | ⟨_, names, refused⟩
  · rw [goesOn] at ended
    obtain ⟨outer, resolved, expanded⟩ := ends_translate_iff.mp ended
    obtain ⟨recording, brought⟩ := recording_of_expands expanded alone recorded
    have in_order : askedFor outer <+: _ :=
      (asksInOrder_resolve tree options.ignored
        (qualifierOf (some set) director options)).prefix_of_reaches resolved
    refine ⟨{ recording with names := recording.names.trans in_order.sublist }, ?_⟩
    rintro value rfl
    obtain ⟨wellFormed, fetched⟩ := complete_of_ends_resolve resolved
    refine ⟨wellFormed, fun name member => ?_⟩
    obtain ⟨value, among⟩ := fetched name member
    exact brought name value among
  · rw [refused] at ended
    obtain ⟨rfl, rfl⟩ := ends_done_iff.mp ended
    exact ⟨recording_nothing rfl rfl rfl _, nofun⟩

/-- What a resolution of some sites through a handle of a set leaves in the ledger. -/
structure Footprint (set : SetId) (sites : List Site) (qualify : String → String)
    (before : Ledger) (transcript : List (Exchange Needs)) (result : Except ResolutionError Json)
    (after : Ledger) : Prop where
  sets : after.sets = before.sets ∧ after.order = before.order
  /-- The set gains a row for each name whose latest version was told, and no other. -/
  rows : ∀ id, after.rowsOf id = before.rowsOf id ++ if id = set then latestRows set transcript else []
  /-- Such a row is the set's own, with the version that was told, for a name of a site that
  the set lacked. -/
  told : ∀ row ∈ latestRows set transcript, row.isLocal = true ∧
    (∃ outcome found, called (.get row.name) outcome ∈ transcript ∧
      Client.readByName row.name outcome = .ok found ∧ found.id = row.id) ∧
    (∃ site ∈ sites, ∃ name, Placeholder.path site.placeholder = .ok name ∧
      row.name = qualify name.base) ∧
    before.idOf? set row.name = none
  once : ((latestRows set transcript).map Association.name).Nodup
  kept : ∀ name id, before.idOf? set name = some id → after.idOf? set name = some id
  /-- Where the names are at fault, nothing was asked. -/
  refused : ∀ error, OfNames error → result = .error error → transcript = [] ∧ after = before
  /-- Where the tree is resolved, the set has a version for all of its names. -/
  complete : ∀ value, result = .ok value → ∀ site ∈ sites,
    ∃ name, Placeholder.path site.placeholder = .ok name ∧
      ∃ id, after.idOf? set (qualify name.base) = some id

/-- However a resolution through a handle of a recorded set ends, whatever the config server
answers, where nobody else comes to the ledger: the set gains a row for each name whose latest
version was told, and nothing else in the ledger changes. -/
theorem pinned_footprint {σ : Type} {answer : (need : Need) → σ → need.Reply × σ} {state : σ}
    (recorded : Keyed.contains before.sets set.id = true)
    (alone : Alone False before
      ((pinned director tree set options).transcript answer state) after) :
    Footprint set.id (Tree.sites tree options.ignored)
      (qualifier director (some (options.deployment.getD set.deployment))) before
      ((pinned director tree set options).transcript answer state)
      ((pinned director tree set options).run answer state).1 after := by
  obtain ⟨recording, complete⟩ := recording_of_ends
    (ends_transcript (I := Needs) answer (pinned director tree set options) state) alone recorded
  constructor
  case sets => exact sets_of_alone alone recording.sets
  case rows =>
    intro id
    rw [rowsOf_of_alone alone, recording.rows, filter_latestRows]
  case told =>
    intro row member
    obtain ⟨_, own, told⟩ := mem_latestRows_iff.mp member
    refine ⟨by rw [Association.isLocal, own]; rfl, told, ?_, recording.lacking row member⟩
    have named := recording.names.subset (List.mem_map_of_mem member)
    obtain ⟨placed, among, same⟩ := exists_placeholder_of_mem_variablesOf named
    obtain ⟨site, found, read⟩ := exists_site_of_mem_named among
    exact ⟨site, found, placed.2, read, same.symm⟩
  case once => exact recording.names.nodup (nodup_variablesOf _ _ _)
  case kept => exact fun name id held => (Alone.served alone).later.idOf?_eq_some held
  case refused =>
    intro error ofNames failed
    by_cases none : (Tree.check tree options.ignored options.mustBeAbsolute).problems = []
    · have failing : ((through (some set) director tree options).run answer state).1 =
          .error error := failed
      exact absurd ofNames (not_ofNames_of_run none failing)
    · obtain ⟨_, _, nothing⟩ := exists_ofNames_of_problems (some set) director none
      have silent : (pinned director tree set options).transcript answer state = [] := by
        rw [show pinned director tree set options = _ from nothing]
        rfl
      rw [silent] at alone
      exact ⟨silent, alone.eq_of_nil⟩
  case complete =>
    intro value succeeded site among
    obtain ⟨wellFormed, held⟩ := complete value succeeded
    obtain ⟨name, read⟩ := wellFormed site among
    exact ⟨name, read, held _ (mem_variablesOf_of_mem_sites wellFormed among read)⟩

theorem pinned_footprint_sampleManifest :
    Keyed.contains sampleLedger.sets sampleSet.id = true ∧
      Alone False sampleLedger recordingTranscript recordedLedger ∧
      Footprint sampleSet.id (Tree.sites sampleManifest []) (qualifier "d" (some "o")) sampleLedger
        recordingTranscript (.ok (.obj [("password", .str "old"), ("port", .int 1)]))
        recordedLedger := by
  obtain ⟨same, resolved, ledger⟩ := run_recording
  have recorded : Keyed.contains sampleLedger.sets sampleSet.id = true := by decide
  have alone := alone_transcript (pinned "d" sampleManifest sampleSet sampleOptions)
    (calm sampleVersions sampleLedger) rfl rfl
  have left := pinned_footprint recorded alone
  rw [same, resolved, ledger] at left
  rw [same, ledger] at alone
  exact ⟨recorded, alone, left⟩

end ManifestVariables.Interpolation
