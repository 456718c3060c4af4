import ManifestVariables.Proofs.Generation.Effects
import ManifestVariables.Proofs.Ledger.Previous

/-!
# A version that is kept

Where all successful deploys that have a name have the same version of it, a variable that
is only to change with the stemcell gets this version again: nothing is asked of the config
server for it, and the current set has no other version of it. `Keeping` is the state of the
ledger while variables are generated into the current set. Each declaration leaves it so
(`Keeping.step`), and `Keeps` is what this comes to for a run over several declarations
(`Keeping.all`).
-/

namespace ManifestVariables.Generation

open Program Engine
open Ledger (Later Steady Deployed)

variable {context : GenerationContext} {set : VariableSet} {flags : GenerationFlags}
  {declaration : Declaration} {declarations : List Declaration} {entry : GeneratedVariable}
  {error : GenerationError} {name : String} {version : VariableId}
  {transcript first second : List (Exchange Needs)} {before between after : Ledger}

/-- The deploy attempt of a set is under way: the set is the newest one of its deployment,
the successful deploys of which have at most one version of a name. -/
structure Underway (set : VariableSet) (name : String) (ledger : Ledger) : Prop where
  steady : Steady set.deployment name ledger
  newest : (ledger.setsOf set.deployment).head? = some set
  writable : set.writable = true
  unfinished : set.deployedSuccessfully = false

theorem Underway.recorded (underway : Underway set name before) :
    Keyed.get? before.sets set.id = some set :=
  ((Ledger.mem_setsOf_iff underway.steady.started).mp (List.mem_of_head? underway.newest)).1

/-- A transcript concerns the ledger only in that it adds rows of a set. -/
structure AddsTo (set : VariableSet) (transcript : List (Exchange Needs)) : Prop where
  unsaved : setsSaved transcript = []
  own : ∀ row ∈ rowsAdded transcript, row.set = set.id

/-- Rows of the set of an attempt leave the versions of the successful deploys as they are. -/
theorem Underway.idOf?_eq (underway : Underway set name before) (adds : AddsTo set transcript)
    (alone : Alone False before transcript after) (other : VariableSet)
    (recorded : Keyed.get? before.sets other.id = some other)
    (successful : other.deployedSuccessfully = true) :
    after.idOf? other.id name = before.idOf? other.id name := by
  refine idOf?_of_alone alone fun row added same => ?_
  rw [← same, adds.own row added, underway.recorded] at recorded
  cases recorded
  cases underway.unfinished.symm.trans successful

theorem Underway.of_alone (underway : Underway set name before) (adds : AddsTo set transcript)
    (alone : Alone False before transcript after) : Underway set name after := by
  obtain ⟨sets, order⟩ := sets_of_alone alone adds.unsaved
  refine ⟨underway.steady.congr (Alone.served alone).later sets (underway.idOf?_eq adds alone),
    ?_, underway.writable, underway.unfinished⟩
  rw [Ledger.setsOf, sets, order]
  exact underway.newest

theorem Underway.deployed_iff (underway : Underway set name before) (adds : AddsTo set transcript)
    (alone : Alone False before transcript after) :
    after.Deployed set.deployment name version ↔ before.Deployed set.deployment name version :=
  Ledger.deployed_congr (sets_of_alone alone adds.unsaved).1 (underway.idOf?_eq adds alone)

theorem Stopped.addsTo (stopped : Stopped context set flags declaration transcript error) :
    AddsTo set transcript := by
  refine ⟨stopped.sets, ?_⟩
  rw [stopped.rows]
  exact nofun

theorem Generated.addsTo {entries : List GeneratedVariable}
    (generated : Generated context set flags before declarations entries transcript after) :
    AddsTo set transcript := by
  refine ⟨generated.sets, fun row added => ?_⟩
  obtain ⟨entry, _, rfl⟩ := List.mem_map.mp (generated.rows.subset added)
  rfl

/-- An attempt that is under way, whose deployment has a version of the name from its
successful deploys, has no other version of it. -/
structure Keeping (set : VariableSet) (name : String) (version : VariableId) (ledger : Ledger) :
    Prop extends Underway set name ledger where
  deployed : ledger.Deployed set.deployment name version
  own : ∀ id, ledger.idOf? set.id name = some id → id = version

/-- It goes on as long as its set gets no other version. -/
theorem Keeping.of_alone (keeping : Keeping set name version before) (adds : AddsTo set transcript)
    (alone : Alone False before transcript after)
    (own : ∀ id, after.idOf? set.id name = some id → id = version) :
    Keeping set name version after :=
  { keeping.toUnderway.of_alone adds alone with
    deployed := (keeping.deployed_iff adds alone).mpr keeping.deployed
    own }

/-- The version to keep is found. -/
theorem Keeping.keptOf (keeping : Keeping set name version before)
    {result : Except GenerationError (Option VariableId)}
    (ended : Ends (keptOf context set flags declaration) transcript result)
    (alone : Alone False before transcript after)
    (named : nameOf context set.deployment declaration = name)
    (mode : declaration.updateMode = some .onStemcellChange)
    (same : flags.stemcellChanged = false) :
    result = .ok (some version) ∧ after = before := by
  have keeps : modeOf declaration flags = .onStemcellChange ∧ !flags.stemcellChanged := by
    simp [modeOf, mode, same]
  rw [Generation.keptOf, keptVersion, if_pos keeps, named] at ended
  obtain ⟨reply, looked, rfl⟩ := ends_fromStore_iff.mp ended
  have ran := run_of_alone looked alone
  rw [Store.run_previousId, keeping.steady.previousId?_eq_some keeping.newest keeping.unfinished
    keeping.deployed] at ran
  obtain ⟨rfl, rfl⟩ := Prod.mk.inj ran
  exact ⟨rfl, rfl⟩

/-- Recording the version that is kept leaves the current set with it. -/
theorem Keeping.recording (keeping : Keeping set name version before) {mode : UpdateMode}
    {latestVersion : Bool} {result : Except GenerationError GeneratedVariable}
    (recording : Recording context set name version mode latestVersion transcript result)
    (alone : Alone False before transcript after) :
    result = .ok ⟨name, version, mode, latestVersion⟩ := by
  have recorded : Keyed.contains before.sets set.id = true := by
    rw [Keyed.contains, keeping.recorded]
    rfl
  have kept : (before.idOf? set.id name).getD version = version := by
    cases held : before.idOf? set.id name with
    | none => rfl
    | some id => exact keeping.own id held
  cases recording with
  | refused adding =>
    obtain ⟨added, _⟩ := adding.of_alone alone recorded keeping.writable
    cases added
  | @recorded _ stored _ adding =>
    obtain ⟨_, whileAdding, _⟩ := Serves.exists_between alone
    obtain ⟨added, _⟩ := adding.of_alone whileAdding recorded keeping.writable
    obtain rfl : stored = version := (Except.ok.inj added).trans kept
    rfl

/-- A declaration of the name is malformed or generated with the version that is kept. -/
theorem Keeping.generating (keeping : Keeping set name version before)
    {result : Except GenerationError GeneratedVariable}
    (generating : Generating context set flags declaration transcript result)
    (alone : Alone False before transcript after)
    (named : nameOf context set.deployment declaration = name)
    (mode : declaration.updateMode = some .onStemcellChange)
    (same : flags.stemcellChanged = false) :
    (Name.validate declaration.name ≠ .ok () ∧ Idle transcript ∧ ∃ error, result = .error error) ∨
      result = .ok ⟨name, version, .onStemcellChange, false⟩ := by
  have sameMode : modeOf declaration flags = .onStemcellChange := by simp [modeOf, mode]
  cases generating with
  | malformed invalid =>
    refine .inl ⟨fun valid => ?_, idle_nil, _, rfl⟩
    cases invalid.symm.trans valid
  | unread _ unread => cases (keeping.keptOf unread alone named mode same).1
  | @reused looked recorded id _ _ kept recording =>
    obtain ⟨_, whileLooking, whileRecording⟩ := Serves.exists_between alone
    obtain ⟨found, rfl⟩ := keeping.keptOf kept whileLooking named mode same
    cases found
    rw [named, sameMode] at recording
    exact .inr (keeping.recording recording whileRecording)
  | unlinked _ unkept => cases (keeping.keptOf unkept alone named mode same).1
  | refused _ unkept =>
    obtain ⟨_, whileLooking, _⟩ := Serves.exists_between alone
    cases (keeping.keptOf unkept whileLooking named mode same).1
  | generated _ unkept =>
    obtain ⟨_, whileLooking, _⟩ := Serves.exists_between alone
    cases (keeping.keptOf unkept whileLooking named mode same).1

theorem key_post_encode (request : GenerationRequest) :
    (Call.post request.encode).key = request.name := rfl

/-- What one declaration comes to for a version that is kept. -/
structure KeepsHere (context : GenerationContext) (set : VariableSet) (name : String)
    (version : VariableId) (declaration : Declaration) (transcript : List (Exchange Needs))
    (result : Except GenerationError GeneratedVariable) (after : Ledger) : Prop where
  unasked : ∀ call ∈ calls transcript, call.key ≠ name
  tells : ∀ event ∈ events transcript, event.objectName = name →
    event = Event.created context.request set.deployment name version .onStemcellChange false
  reports : ∀ entry, result = .ok entry →
    entry.name = nameOf context set.deployment declaration ∧
    (entry.name = name → entry = ⟨name, version, .onStemcellChange, false⟩ ∧
      after.idOf? set.id name = some version ∧
      Event.created context.request set.deployment name version .onStemcellChange false ∈
        events transcript)
  fails : ∀ error, result = .error error → nameOf context set.deployment declaration = name →
    Name.validate declaration.name ≠ .ok ()

/-- The only call for a declaration asks for its name, and it is made for a new version. -/
theorem Generated.call_here
    (generated : Generated context set flags before [declaration] [entry] transcript after)
    {call : Call} (made : call ∈ calls transcript) :
    entry.latestVersion = true ∧ call.key = nameOf context set.deployment declaration := by
  obtain ⟨requests, asks, requested⟩ := generated.asks
  rw [asks] at made
  obtain ⟨request, member, rfl⟩ := List.mem_map.mp made
  cases version : entry.latestVersion with
  | false =>
    have none : renewed [declaration] [entry] = [] := by simp [renewed, version]
    rw [none, List.forall₂_nil_left_iff] at requested
    subst requested
    cases member
  | true =>
    have one : renewed [declaration] [entry] = [declaration] := by simp [renewed, version]
    rw [one, List.forall₂_cons_left_iff] at requested
    obtain ⟨only, rest, here, tail, rfl⟩ := requested
    rw [List.forall₂_nil_left_iff] at tail
    subst tail
    obtain rfl := List.mem_singleton.mp member
    exact ⟨rfl, name_of_requestOf here⟩

/-- A declaration of another name has nothing to do with the version that is kept. -/
theorem keepsHere_of_ne {result : Except GenerationError GeneratedVariable}
    (generating : Generating context set flags declaration transcript result)
    (alone : Alone False before transcript after)
    (different : nameOf context set.deployment declaration ≠ name) :
    KeepsHere context set name version declaration transcript result after := by
  cases result with
  | error error =>
    have stopped := generating.stopped
    refine ⟨?_, ?_, nofun, fun _ _ named => absurd named different⟩
    · intro call made
      rcases stopped.asks with none | ⟨request, requested, one⟩
      · rw [none] at made
        cases made
      · rw [one] at made
        obtain rfl := List.mem_singleton.mp made
        rw [key_post_encode, name_of_requestOf requested]
        exact different
    · intro event told named
      rcases stopped.events with ⟨none, _⟩ | ⟨_, _, _, _, _, _, _, _, one⟩
      · rw [none] at told
        cases told
      · rw [one] at told
        obtain rfl := List.mem_singleton.mp told
        exact absurd named different
  | ok entry =>
    have generated := generating.of_ok (Alone.served alone)
    have sameName : entry.name = nameOf context set.deployment declaration :=
      (List.cons.inj generated.names).1
    refine ⟨?_, ?_, ?_, nofun⟩
    · intro call made
      rw [(generated.call_here made).2]
      exact different
    · intro event told named
      rw [generated.events] at told
      obtain rfl := List.mem_singleton.mp told
      exact absurd (sameName.symm.trans named) different
    · rintro _ ⟨⟩
      exact ⟨sameName, fun named => absurd (sameName.symm.trans named) different⟩

/-- A declaration of the name gets the version that is kept. -/
theorem Keeping.keepsHere (keeping : Keeping set name version before)
    {result : Except GenerationError GeneratedVariable}
    (generating : Generating context set flags declaration transcript result)
    (alone : Alone False before transcript after)
    (named : nameOf context set.deployment declaration = name)
    (mode : declaration.updateMode = some .onStemcellChange)
    (same : flags.stemcellChanged = false) :
    KeepsHere context set name version declaration transcript result after := by
  rcases keeping.generating generating alone named mode same with
    ⟨invalid, idle, error, rfl⟩ | rfl
  · refine ⟨?_, ?_, nofun, fun _ _ _ => invalid⟩
    · rw [idle.calls]
      exact nofun
    · rw [idle.events]
      exact nofun
  · have generated := generating.of_ok (Alone.served alone)
    have told : events transcript = [Event.created context.request set.deployment name version
        .onStemcellChange false] := generated.events
    refine ⟨?_, ?_, ?_, nofun⟩
    · intro call made
      cases (generated.call_here made).1
    · intro event member _
      rw [told] at member
      exact List.mem_singleton.mp member
    · rintro _ ⟨⟩
      refine ⟨named.symm, fun _ => ⟨rfl, (generated.held _ List.mem_cons_self).1, ?_⟩⟩
      rw [told]
      exact List.mem_cons_self

/-- No declaration gives the current set another version of the name. -/
theorem Keeping.step (keeping : Keeping set name version before)
    {result : Except GenerationError GeneratedVariable}
    (generating : Generating context set flags declaration transcript result)
    (alone : Alone False before transcript after)
    (mode : nameOf context set.deployment declaration = name →
      declaration.updateMode = some .onStemcellChange)
    (same : flags.stemcellChanged = false) :
    KeepsHere context set name version declaration transcript result after ∧
      Keeping set name version after := by
  have here : KeepsHere context set name version declaration transcript result after := by
    by_cases named : nameOf context set.deployment declaration = name
    · exact keeping.keepsHere generating alone named (mode named) same
    · exact keepsHere_of_ne generating alone named
  refine ⟨here, ?_⟩
  cases result with
  | error error =>
    have stopped := generating.stopped
    refine keeping.of_alone stopped.addsTo alone ?_
    rw [idOf?_of_alone alone]
    · exact keeping.own
    · rw [stopped.rows]
      exact nofun
  | ok entry =>
    have generated := generating.of_ok (Alone.served alone)
    refine keeping.of_alone generated.addsTo alone ?_
    by_cases named : entry.name = name
    · obtain ⟨_, held, _⟩ := (here.reports entry rfl).2 named
      intro id found
      exact Option.some.inj (found.symm.trans held)
    · rw [idOf?_of_alone alone]
      · exact keeping.own
      · intro row added _
        rw [List.mem_singleton.mp (generated.rows.subset added)]
        exact named

/-- What a run over some declarations comes to for a version that is kept. -/
structure Keeps (context : GenerationContext) (set : VariableSet) (flags : GenerationFlags)
    (name : String) (version : VariableId) (declarations : List Declaration)
    (transcript : List (Exchange Needs))
    (result : Except GenerationError (List GeneratedVariable)) (after : Ledger) : Prop where
  /-- The config server is not asked for the name. -/
  unasked : ∀ call ∈ calls transcript, call.key ≠ name
  /-- An event about the name is one of using the version again. -/
  tells : ∀ event ∈ events transcript, event.objectName = name →
    event = Event.created context.request set.deployment name version .onStemcellChange false
  /-- What is answered for the name is the version. -/
  reports : ∀ entries, result = .ok entries →
    entries.map GeneratedVariable.name = declarations.map (nameOf context set.deployment) ∧
    ∀ entry ∈ entries, entry.name = name → entry = ⟨name, version, .onStemcellChange, false⟩
  /-- A well-formed declaration of the name is generated, and then the set has the version,
  unless the run fails at an earlier declaration. -/
  generates : ∀ done declaration later, declarations = done ++ declaration :: later →
    nameOf context set.deployment declaration = name → Name.validate declaration.name = .ok () →
    (after.idOf? set.id name = some version ∧
      Event.created context.request set.deployment name version .onStemcellChange false ∈
        events transcript) ∨
    ∃ failing ∈ done, ∃ first second error, transcript = first ++ second ∧
      Generating context set flags failing second (.error error) ∧ result = .error error

theorem keeps_nil : Keeps context set flags name version [] [] (.ok []) after where
  unasked := nofun
  tells := nofun
  reports := by
    rintro _ ⟨⟩
    exact ⟨rfl, nofun⟩
  generates := fun done _ _ split => by cases done <;> cases split

theorem KeepsHere.stopped {rest : List Declaration}
    (here : KeepsHere context set name version declaration transcript (.error error) after)
    (generating : Generating context set flags declaration transcript (.error error)) :
    Keeps context set flags name version (declaration :: rest) transcript (.error error) after where
  unasked := here.unasked
  tells := here.tells
  reports := nofun
  generates := by
    intro done chosen later split named valid
    cases done with
    | nil =>
      cases split
      exact absurd valid (here.fails error rfl named)
    | cons failing others =>
      cases split
      exact .inr ⟨declaration, List.mem_cons_self, [], transcript, error, rfl, generating, rfl⟩

theorem KeepsHere.cons {result : Except GenerationError (List GeneratedVariable)}
    (here : KeepsHere context set name version declaration first (.ok entry) between)
    (tail : Keeps context set flags name version declarations second result after)
    (passed : Later between after) :
    Keeps context set flags name version (declaration :: declarations) (first ++ second)
      (result.map fun entries => entry :: entries) after where
  unasked := by
    rw [calls_append]
    exact fun call made => (List.mem_append.mp made).elim (here.unasked call) (tail.unasked call)
  tells := by
    rw [events_append]
    exact fun event told => (List.mem_append.mp told).elim (here.tells event) (tail.tells event)
  reports := by
    obtain ⟨sameName, kept⟩ := here.reports entry rfl
    intro entries answered
    cases result with
    | error => cases answered
    | ok others =>
      cases answered
      obtain ⟨names, keptLater⟩ := tail.reports others rfl
      refine ⟨by rw [List.map_cons, List.map_cons, names, sameName], fun other member named => ?_⟩
      rcases List.mem_cons.mp member with rfl | later
      · exact (kept named).1
      · exact keptLater other later named
  generates := by
    intro done chosen later split named valid
    cases done with
    | nil =>
      cases split
      obtain ⟨sameName, kept⟩ := here.reports entry rfl
      obtain ⟨_, held, told⟩ := kept (sameName.trans named)
      rw [events_append]
      exact .inl ⟨passed.idOf?_eq_some held, List.mem_append_left _ told⟩
    | cons _ others =>
      cases split
      rcases tail.generates others chosen later rfl named valid with
        ⟨held, told⟩ | ⟨failing, member, before, part, error, rfl, failed, rfl⟩
      · rw [events_append]
        exact .inl ⟨held, List.mem_append_right _ told⟩
      · exact .inr ⟨failing, List.mem_cons_of_mem _ member, first ++ before, part, error,
          (List.append_assoc _ _ _).symm, failed, rfl⟩

/-- Declarations one after the other keep the version that is kept. -/
theorem Keeping.each (keeping : Keeping set name version before)
    {result : Except GenerationError (List GeneratedVariable)}
    (generating : GeneratingEach context set flags declarations transcript result)
    (alone : Alone False before transcript after)
    (modes : ∀ declaration ∈ declarations, nameOf context set.deployment declaration = name →
      declaration.updateMode = some .onStemcellChange)
    (same : flags.stemcellChanged = false) :
    Keeps context set flags name version declarations transcript result after ∧
      Keeping set name version after := by
  induction generating generalizing before with
  | nil =>
    obtain rfl := Alone.eq_of_nil alone
    exact ⟨keeps_nil, keeping⟩
  | stopped stopped =>
    obtain ⟨here, still⟩ := keeping.step stopped alone (modes _ List.mem_cons_self) same
    exact ⟨here.stopped stopped, still⟩
  | cons here tail ih =>
    obtain ⟨between, alone, followed⟩ := Serves.exists_between alone
    obtain ⟨first, still⟩ := keeping.step here alone (modes _ List.mem_cons_self) same
    obtain ⟨rest, final⟩ := ih still followed fun declaration member =>
      modes declaration (List.mem_cons_of_mem _ member)
    exact ⟨first.cons rest (Alone.served followed).later, final⟩

/-- A lookup before the run makes no difference. -/
theorem Keeps.after_idle {result : Except GenerationError (List GeneratedVariable)}
    (keeps : Keeps context set flags name version declarations second result after)
    (idle : Idle first) :
    Keeps context set flags name version declarations (first ++ second) result after where
  unasked := by
    rw [calls_append, idle.calls]
    exact keeps.unasked
  tells := by
    rw [events_append, idle.events]
    exact keeps.tells
  reports := keeps.reports
  generates := by
    intro done declaration later split named valid
    rw [events_append, idle.events]
    refine (keeps.generates done declaration later split named valid).imp_right ?_
    rintro ⟨failing, member, before, part, error, rfl, failed, stops⟩
    exact ⟨failing, member, first ++ before, part, error, (List.append_assoc _ _ _).symm, failed,
      stops⟩

/-- The set has the version later on as well. -/
theorem Keeps.mono {result : Except GenerationError (List GeneratedVariable)}
    (keeps : Keeps context set flags name version declarations transcript result between)
    (passed : Later between after) :
    Keeps context set flags name version declarations transcript result after :=
  { keeps with
    generates := fun done declaration later split named valid =>
      (keeps.generates done declaration later split named valid).imp_left fun kept =>
        ⟨passed.idOf?_eq_some kept.1, kept.2⟩ }

/-- A run during an attempt that is under way generates into the set of the attempt. -/
theorem Underway.generatingEach (underway : Underway set name before)
    {result : Except GenerationError (List GeneratedVariable)}
    (generating : GeneratingAll context set.deployment flags declarations transcript result)
    (alone : Alone False before transcript after) :
    ∃ looked each, transcript = looked ++ each ∧ Idle looked ∧
      GeneratingEach context set flags declarations each result ∧
      Alone False before each after := by
  have listing {reply : Except LedgerError (List VariableSet)} {rest : List (Exchange Needs)}
      (alone : Alone False before (asked (.findSets set.deployment) reply :: rest) after) :
      reply = .ok (before.setsOf set.deployment) ∧ Alone False before rest after := by
    obtain ⟨_, answered, tail⟩ := alone.exists_answered
    obtain ⟨replied, rfl⟩ := Prod.mk.inj answered.responded
    exact ⟨replied.symm, tail⟩
  cases generating with
  | nothing => exact ⟨[], [], rfl, idle_nil, .nil, alone⟩
  | unread => cases (listing alone).1
  | missing =>
    have none := underway.newest
    rw [← Except.ok.inj (listing alone).1] at none
    cases none
  | frozen newest frozen =>
    rw [Except.ok.inj (listing alone).1, underway.newest] at newest
    cases newest
    cases underway.writable.symm.trans frozen
  | @each _ _ _ _ rest _ newest _ generating =>
    obtain ⟨listed, tail⟩ := listing alone
    rw [Except.ok.inj listed, underway.newest] at newest
    cases newest
    exact ⟨[_], rest, rfl, ⟨rfl, rfl, rfl, rfl⟩, generating, tail⟩

/-- A run during an attempt leaves the attempt under way. -/
theorem Underway.all (underway : Underway set name before)
    {result : Except GenerationError (List GeneratedVariable)}
    (generating : GeneratingAll context set.deployment flags declarations transcript result)
    (alone : Alone False before transcript after) :
    Underway set name after ∧ ∀ version, after.Deployed set.deployment name version ↔
      before.Deployed set.deployment name version := by
  obtain ⟨looked, each, rfl, idle, generating, alone⟩ := underway.generatingEach generating alone
  have adds : AddsTo set each := by
    rcases generating.cases (Alone.served alone) with
      ⟨_, _, generated⟩ | ⟨_, _, _, _, first, second, _, _, rfl, _, generated, stopped⟩
    · exact generated.addsTo
    · refine ⟨?_, ?_⟩
      · rw [setsSaved_append, generated.sets, stopped.sets]
        rfl
      · rw [rowsAdded_append, stopped.rows, List.append_nil]
        exact generated.addsTo.own
  exact ⟨underway.of_alone adds alone, fun _ => underway.deployed_iff adds alone⟩

/-- A run during an attempt keeps the version that is kept. -/
theorem Keeping.all (keeping : Keeping set name version before)
    {result : Except GenerationError (List GeneratedVariable)}
    (generating : GeneratingAll context set.deployment flags declarations transcript result)
    (alone : Alone False before transcript after)
    (modes : ∀ declaration ∈ declarations, nameOf context set.deployment declaration = name →
      declaration.updateMode = some .onStemcellChange)
    (same : flags.stemcellChanged = false) :
    Keeps context set flags name version declarations transcript result after ∧
      Keeping set name version after := by
  obtain ⟨looked, each, rfl, idle, generating, alone⟩ :=
    keeping.generatingEach generating alone
  obtain ⟨keeps, still⟩ := keeping.each generating alone modes same
  exact ⟨keeps.after_idle idle, still⟩

end ManifestVariables.Generation
