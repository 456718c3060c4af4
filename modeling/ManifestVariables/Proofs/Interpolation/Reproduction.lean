import ManifestVariables.Proofs.Interpolation.Stability
import ManifestVariables.Proofs.Resolution.Fetches

/-!
# Frozen sets are read alike everywhere

A resolution through a frozen handle looks up versions of the set and asks for those
that it finds, and for nothing else; it stops at the first variable that the set lacks.
So what surrounds the set makes no difference: worlds that agree on its rows and on the
values of its versions give the same result (`Interpolation.pinned_reproducible`).
-/

namespace ManifestVariables

/-- A set uses a version for some name. -/
def Ledger.Uses (ledger : Ledger) (set : SetId) (id : VariableId) : Prop :=
  ∃ name, ledger.idOf? set name = some id

namespace World

open Engine

/-- The outcomes of asking for some versions by their ids, one after the other. -/
def outcomes : World → List VariableId → List Outcome
  | _, [] => []
  | world, id :: rest =>
    (world.answerCall (.getById id)).1 :: (world.answerCall (.getById id)).2.outcomes rest

/-- Two worlds agree on a set: they have the same rows of it, and the same answers for the
versions in them. Where lookups are made to fail, they fail alike. -/
structure Agree (set : SetId) (world other : World) : Prop where
  rows : other.ledger.rowsOf set = world.ledger.rowsOf set
  outcomes : ∀ ids, (∀ id ∈ ids, world.ledger.Uses set id) → other.outcomes ids = world.outcomes ids
  faults : other.faults.filter isLookupFault = world.faults.filter isLookupFault

variable {set : SetId} {name : String} {world other : World}

theorem Agree.idOf?_eq (agree : Agree set world other) (name : String) :
    other.ledger.idOf? set name = world.ledger.idOf? set name := by
  rw [Ledger.idOf?, Ledger.idOf?, agree.rows]

/-- The same config server has the same outcomes. -/
theorem outcomes_of_sameServer (same : SameServer world other) (ids : List VariableId) :
    other.outcomes ids = world.outcomes ids := by
  induction ids generalizing world other with
  | nil => rfl
  | cons id rest ih =>
    obtain ⟨first, still⟩ := same.answerCall (.getById id)
    rw [outcomes, outcomes, first, ih still]

/-- Where no outcomes are canned, the config server answers from its versions. -/
theorem outcomes_of_canned_eq_nil (ids : List VariableId) (none : world.canned = []) :
    world.outcomes ids =
      ids.map fun id => .ok (Versions.respond (.getById id) world.versions).1 := by
  induction ids generalizing world with
  | nil => rfl
  | cons id rest ih =>
    have answered : world.answerCall (.getById id) =
        (.ok (Versions.respond (.getById id) world.versions).1,
          { world with calls := world.calls ++ [.getById id] }) := by
      simp only [answerCall, none, take?, Versions.respond]
      split <;> rfl
    rw [outcomes, answered, List.map_cons]
    exact congrArg _ (ih none)

/-- A version is looked up alike. -/
theorem Agree.findId (agree : Agree set world other) (name : String) :
    (world.answer (.ledger (.findId set name))).1 = (other.answer (.ledger (.findId set name))).1 ∧
      Agree set (world.answer (.ledger (.findId set name))).2
        (other.answer (.ledger (.findId set name))).2 := by
  have same := agree.faults
  rcases answer_findId_cases set name world with
    ⟨found, none⟩ | ⟨failure, others, _, _, due, failed⟩ <;>
  rcases answer_findId_cases set name other with
    ⟨otherFound, otherNone⟩ | ⟨otherFailure, more, _, _, otherDue, otherFailed⟩
  · rw [found, otherFound, agree.idOf?_eq]
    exact ⟨rfl, agree⟩
  · rw [none, otherDue] at same
    cases same
  · rw [due, otherNone] at same
    cases same
  · rw [due, otherDue] at same
    obtain ⟨alike, rest⟩ := List.cons.inj same
    cases alike
    rw [failed, otherFailed]
    refine ⟨rfl, agree.rows, fun ids used => ?_, rest⟩
    -- The faults of the ledger make no difference to the config server.
    have alike (world : World) (faults : List (Ledger.QueryKind × LedgerError)) :
        ({ world with faults } : World).outcomes ids = world.outcomes ids := by
      have same : SameServer world { world with faults } := ⟨rfl, rfl, rfl⟩
      exact outcomes_of_sameServer same ids
    exact (alike other _).trans ((agree.outcomes ids used).trans (alike world _).symm)

/-- A version of the set is asked for alike. -/
theorem Agree.getById {id : VariableId} (agree : Agree set world other)
    (uses : world.ledger.Uses set id) :
    (world.answer (.call (.getById id))).1 = (other.answer (.call (.getById id))).1 ∧
      Agree set (world.answer (.call (.getById id))).2 (other.answer (.call (.getById id))).2 := by
  obtain ⟨ledger, faults⟩ := answerCall_keeps (.getById id) world
  obtain ⟨otherLedger, otherFaults⟩ := answerCall_keeps (.getById id) other
  have first (ids : List VariableId) (used : ∀ id ∈ ids, world.ledger.Uses set id) :=
    List.cons.inj (agree.outcomes (id :: ids) (List.forall_mem_cons.mpr ⟨uses, used⟩))
  refine ⟨(first [] nofun).1.symm, ?_, ?_, ?_⟩
  · rw [World.answer, World.answer, ledger, otherLedger]
    exact agree.rows
  · intro ids used
    rw [World.answer, ledger] at used
    exact (first ids used).2
  · rw [World.answer, World.answer, faults, otherFaults]
    exact agree.faults

end World

namespace Interpolation

open Program Engine Resolution

variable {director name : String} {tree : Json} {set : VariableSet} {options : InterpolationOptions}
  {world other : World}

/-- Worlds that agree on a set give the same value through a frozen handle, and go on to
agree. -/
theorem run_fetchPinned_of_agree (frozen : set.writable = false)
    (agree : World.Agree set.id world other) (name : String) :
    (Program.run World.answer (fetchPinned set name) world).1 =
        (Program.run World.answer (fetchPinned set name) other).1 ∧
      World.Agree set.id (Program.run World.answer (fetchPinned set name) world).2
        (Program.run World.answer (fetchPinned set name) other).2 := by
  obtain ⟨same, still⟩ := agree.findId name
  simp only [fetchPinned_eq, Program.run, ← same]
  rcases answer_findId_cases set.id name world with
    ⟨found, _⟩ | ⟨failure, others, _, _, _, failed⟩
  · rw [found] at still ⊢
    cases held : world.ledger.idOf? set.id name with
    | none =>
      simp only [resumePinned, frozen]
      exact ⟨rfl, still⟩
    | some id =>
      obtain ⟨alike, later⟩ := still.getById ⟨name, held⟩
      simp only [resumePinned, fetchVersion_eq, Program.run, ← alike]
      exact ⟨trivial, later⟩
  · rw [failed] at still ⊢
    exact ⟨rfl, still⟩

/-- The variables of a tree that is resolved through a set. -/
def pinnedVariables (director : String) (tree : Json) (set : VariableSet)
    (options : InterpolationOptions) : List String :=
  variablesOf tree options.ignored
    (qualifier director (some (options.deployment.getD set.deployment)))

/-- Why a resolution through a frozen handle may end before it comes to a variable. -/
inductive Interrupted (world : World) (set : SetId) (earlier : List String)
    (transcript : List (Exchange Needs)) : ResolutionError → Prop where
  /-- A lookup met a fault of the ledger. -/
  | ledger {failure : LedgerError} (due : (.findId, failure) ∈ world.faults) :
      Interrupted world set earlier transcript (.store (.ledger failure))
  /-- The config server gave no answer about the version of an earlier variable. -/
  | transport {name : String} {id : VariableId} {failure : TransportError}
      (among : name ∈ earlier) (held : world.ledger.idOf? set name = some id)
      (called : called (.getById id) (.error failure) ∈ transcript) :
      Interrupted world set earlier transcript (.transport failure)

/-- Reading a version is fatal where the call had no answer. -/
theorem readVersion_eq_fatal {id : VariableId} {outcome : Outcome} {error : ResolutionError}
    (read : readVersion name id outcome = .error (.fatal error)) :
    ∃ failure, outcome = .error failure ∧ error = .transport failure := by
  rw [readVersion] at read
  cases found : Client.readById name id outcome with
  | ok => rw [found] at read; cases read
  | error cause =>
    rw [found] at read
    cases cause with
    | transport failure =>
      cases read
      exact ⟨failure, Client.readById_eq_transport_iff.mp found, rfl⟩
    | notFound => cases read
    | fetch => cases read
    | generation => cases read

theorem ends_pinned_cases {transcript : List (Exchange Needs)}
    {result : Except ResolutionError Json}
    (ended : Ends (pinned director tree set options) transcript result) :
    (¬ NamesPermitted tree options ∧ transcript = []) ∨
      ∃ outer, Ends (resolve tree options.ignored
          (qualifier director (some (options.deployment.getD set.deployment)))) outer result ∧
        Expands (I := Fetching) (fetchPinned set) outer transcript := by
  unfold pinned at ended
  rcases checkAbsolute_cases tree options with same | ⟨refused, names, same⟩
  · rw [same] at ended
    exact .inr (ends_translate_iff.mp ended)
  · rw [same] at ended
    exact .inl ⟨refused, (ends_done_iff.mp ended).1⟩

/-- A lookup finds what the ledger of a world has, or meets a fault that is to come. -/
def Finds (world : World) (set : SetId) (exchange : Exchange Needs) : Prop :=
  ∀ name reply, exchange = asked (.findId set name) reply →
    reply = .ok (world.ledger.idOf? set name) ∨
      ∃ failure, (.findId, failure) ∈ world.faults ∧ reply = .error failure

/-- What a resolution through a frozen handle may ask. -/
def OnlyReads (set : SetId) (need : Need) : Prop :=
  (∃ name, need = .ledger (.findId set name)) ∨ ∃ id, need = .call (.getById id)

/-- What it leaves of a world. -/
def Preserves (world next : World) : Prop :=
  next.ledger = world.ledger ∧ next.faults ⊆ world.faults

theorem finds_of_onlyReads {need : Need} {next : World} (reads : OnlyReads set.id need)
    (preserved : Preserves world next) :
    Finds world set.id ⟨need, (World.answer need next).1⟩ ∧
      Preserves world (World.answer need next).2 := by
  obtain ⟨ledger, faults⟩ := preserved
  rcases reads with ⟨name, rfl⟩ | ⟨id, rfl⟩
  · rcases answer_findId_cases set.id name next with
      ⟨found, _⟩ | ⟨failure, others, due, among, _, failed⟩
    · rw [found]
      refine ⟨?_, ledger, faults⟩
      rintro _ _ ⟨⟩
      exact .inl (by rw [ledger])
    · rw [failed]
      refine ⟨?_, ledger, List.Subset.trans among faults⟩
      rintro _ _ ⟨⟩
      exact .inr ⟨failure, faults due, rfl⟩
  · obtain ⟨sameLedger, sameFaults⟩ := answerCall_keeps (.getById id) next
    exact ⟨nofun, sameLedger.trans ledger, sameFaults ▸ faults⟩

variable {transcript : List (Exchange Needs)} {result : Except ResolutionError Json}
  {outer : List (Exchange Fetching)}

/-- What a fetch through a frozen handle is answered, told by the ledger and the outcome of
the one call that it makes. -/
theorem fetch_of_frozen {reply : Except FetchFailure Json} (frozen : set.writable = false)
    (finds : ∀ exchange ∈ transcript, Finds world set.id exchange)
    (expanded : Expands (I := Fetching) (fetchPinned set) outer transcript)
    (member : fetching name reply ∈ outer) :
    (∃ failure, (.findId, failure) ∈ world.faults ∧
        reply = .error (storeFailure (.ledger failure))) ∨
      (world.ledger.idOf? set.id name = none ∧
        reply = .error (.fatal (.unrecorded (.inSet name set.deployment)))) ∨
      ∃ id outcome, world.ledger.idOf? set.id name = some id ∧
        called (.getById id) outcome ∈ transcript ∧ reply = readVersion name id outcome := by
  obtain ⟨before, inner, after, rfl, ended⟩ := expanded.exists_part member
  rcases (ends_fetchPinned_iff.mp ended).of_frozen frozen with
    ⟨failure, rfl, same⟩ | ⟨rfl, same⟩ | ⟨id, outcome, rfl, same⟩
  · rcases finds _ (by simp) name (.error failure) rfl with found | ⟨_, due, failed⟩
    · cases found
    · cases failed
      exact .inl ⟨failure, due, same⟩
  · rcases finds _ (by simp) name (.ok none) rfl with found | ⟨_, _, failed⟩
    · exact .inr (.inl ⟨(Except.ok.inj found).symm, same⟩)
    · cases failed
  · rcases finds _ (by simp) name (.ok (some id)) rfl with found | ⟨_, _, failed⟩
    · exact .inr (.inr ⟨id, outcome, (Except.ok.inj found).symm, by simp, same⟩)
    · cases failed

/-- Through a frozen handle, versions are looked up and asked for, and nothing else is. -/
theorem asks_of_frozen (frozen : set.writable = false)
    (ended : Ends (pinned director tree set options) transcript result)
    {exchange : Exchange Needs} (member : exchange ∈ transcript) :
    (∃ name reply, exchange = asked (.findId set.id name) reply) ∨
      ∃ name id outcome, exchange = called (.getById id) outcome ∧
        asked (.findId set.id name) (.ok (some id)) ∈ transcript := by
  rcases ends_pinned_cases ended with ⟨_, rfl⟩ | ⟨outer, _, expanded⟩
  · cases member
  obtain ⟨⟨name, reply⟩, _, before, inner, after, rfl, fetched, within⟩ :=
    expanded.exists_of_mem member
  rcases (ends_fetchPinned_iff.mp fetched).of_frozen frozen with
    ⟨failure, rfl, _⟩ | ⟨rfl, _⟩ | ⟨id, outcome, rfl, _⟩
  · exact .inl ⟨name, _, List.mem_singleton.mp within⟩
  · exact .inl ⟨name, _, List.mem_singleton.mp within⟩
  · rcases List.mem_cons.mp within with lookup | call
    · exact .inl ⟨name, _, lookup⟩
    · exact .inr ⟨name, id, outcome, List.mem_singleton.mp call, by simp⟩

/-- A resolution through a frozen handle leaves the ledger as it is, so that all its lookups
find the same rows. -/
theorem finds_of_frozen (frozen : set.writable = false) (director : String) (tree : Json)
    (options : InterpolationOptions) (world : World) :
    (∀ exchange ∈ (pinned director tree set options).transcript World.answer world,
        Finds world set.id exchange) ∧
      Preserves world ((pinned director tree set options).run World.answer world).2 := by
  have ended := ends_transcript (I := Needs) World.answer (pinned director tree set options) world
  have reads : ∀ exchange ∈ (pinned director tree set options).transcript World.answer world,
      OnlyReads set.id exchange.question := by
    intro exchange member
    rcases asks_of_frozen frozen ended member with ⟨name, _, rfl⟩ | ⟨_, id, _, rfl, _⟩
    · exact .inl ⟨name, rfl⟩
    · exact .inr ⟨id, rfl⟩
  exact transcript_fits (I := Needs) reads (fun _ _ => finds_of_onlyReads)
    ⟨rfl, List.Subset.refl _⟩

/-- A resolution through a frozen handle that comes to a variable that the set lacks ends
there. -/
theorem unrecorded_of_asked (frozen : set.writable = false)
    (ended : Ends (pinned director tree set options) transcript result)
    (lacking : asked (.findId set.id name) (.ok none) ∈ transcript) :
    result = .error (.unrecorded (.inSet name set.deployment)) := by
  rcases ends_pinned_cases ended with ⟨_, rfl⟩ | ⟨outer, resolved, expanded⟩
  · cases lacking
  obtain ⟨⟨base, reply⟩, among, before, inner, after, rfl, fetched, within⟩ :=
    expanded.exists_of_mem lacking
  rcases (ends_fetchPinned_iff.mp fetched).of_frozen frozen with
    ⟨failure, rfl, _⟩ | ⟨rfl, same⟩ | ⟨id, outcome, rfl, _⟩
  · cases List.mem_singleton.mp within
  · cases List.mem_singleton.mp within
    dsimp only at same
    subst same
    exact eq_error_of_fatal resolved among
  · rcases List.mem_cons.mp within with same | same
    · cases same
    · cases List.mem_singleton.mp same

/-- What starts a list and lacks one of its elements starts the part before that. -/
theorem prefix_left_of_not_mem {α : Type} {start before after : List α} {element : α}
    (started : start <+: before ++ [element] ++ after) (lacks : element ∉ start) :
    start <+: before := by
  rcases List.prefix_or_prefix_of_prefix started (List.prefix_append (before ++ [element]) after)
    with short | long
  · rcases List.prefix_concat_iff.mp short with rfl | done
    · exact absurd (by simp) lacks
    · exact done
  · exact absurd (long.subset (by simp)) lacks

/-- A fatal fetch of a variable that the set has is an interruption. -/
theorem interrupted_of_held {earlier : List String} {error : ResolutionError}
    (frozen : set.writable = false) (finds : ∀ exchange ∈ transcript, Finds world set.id exchange)
    (expanded : Expands (I := Fetching) (fetchPinned set) outer transcript)
    (member : fetching name (.error (.fatal error)) ∈ outer) (among : name ∈ earlier)
    (held : world.ledger.idOf? set.id name ≠ none) :
    Interrupted world set.id earlier transcript error := by
  rcases fetch_of_frozen frozen finds expanded member with
    ⟨failure, due, same⟩ | ⟨none, _⟩ | ⟨id, outcome, found, call, same⟩
  · cases same
    exact .ledger due
  · exact absurd none held
  · obtain ⟨failure, rfl, rfl⟩ := readVersion_eq_fatal same.symm
    exact .transport among found call

/-- A resolution through a frozen handle comes to the first variable that the set lacks,
unless it is interrupted before. -/
theorem unrecorded_or_interrupted {earlier later : List String} (frozen : set.writable = false)
    (finds : ∀ exchange ∈ transcript, Finds world set.id exchange)
    (ended : Ends (pinned director tree set options) transcript result)
    (permitted : NamesPermitted tree options)
    (order : pinnedVariables director tree set options = earlier ++ name :: later)
    (held : ∀ other ∈ earlier, world.ledger.idOf? set.id other ≠ none)
    (lacking : world.ledger.idOf? set.id name = none) :
    result = .error (.unrecorded (.inSet name set.deployment)) ∨
      ∃ error, result = .error error ∧ Interrupted world set.id earlier transcript error := by
  rcases ends_pinned_cases ended with ⟨refused, _⟩ | ⟨outer, resolved, expanded⟩
  · exact absurd permitted refused
  by_cases reached : name ∈ outer.map Exchange.question
  · obtain ⟨⟨_, reply⟩, among, rfl⟩ := List.mem_map.mp reached
    rcases fetch_of_frozen frozen finds expanded among with
      ⟨failure, due, rfl⟩ | ⟨_, rfl⟩ | ⟨id, _, found, _⟩
    · exact .inr ⟨_, eq_error_of_fatal resolved among, .ledger due⟩
    · exact .inl (eq_error_of_fatal resolved among)
    · exact nomatch lacking.symm.trans found
  · rcases fetches_of_ends_resolve resolved with all | ⟨before, last, error, rfl, failed⟩
    · rw [all, ← pinnedVariables, order] at reached
      exact absurd (List.mem_append_right _ List.mem_cons_self) reached
    -- The fatal fetch was about a variable that the set has.
    have here : fetching last (.error (.fatal error)) ∈
        before ++ [fetching last (.error (.fatal error))] :=
      List.mem_append_right _ List.mem_cons_self
    have among : last ∈ earlier := by
      have started := (asksInOrder_resolve _ _ _).prefix_of_reaches resolved
      rw [← pinnedVariables, order, List.append_cons earlier] at started
      exact (prefix_left_of_not_mem started reached).subset (List.mem_map.mpr ⟨_, here, rfl⟩)
    exact .inr ⟨error, failed,
      interrupted_of_held frozen finds expanded here among (held last among)⟩

/-- What a resolution through a frozen handle does in a world, and how it ends. -/
structure ReadOnly (world : World) (set : VariableSet) (tree : Json)
    (options : InterpolationOptions) (names : List String)
    (transcript : List (Exchange Needs)) (result : Except ResolutionError Json) : Prop where
  /-- Versions of the set are looked up, and those that it has are asked for. -/
  reads : ∀ exchange ∈ transcript,
    (∃ name reply, exchange = asked (.findId set.id name) reply) ∨
      ∃ id outcome, exchange = called (.getById id) outcome ∧ world.ledger.Uses set.id id
  /-- A variable that the set lacks ends it. -/
  lacking : ∀ name, asked (.findId set.id name) (.ok none) ∈ transcript →
    result = .error (.unrecorded (.inSet name set.deployment))
  /-- It comes to the first such variable unless it is interrupted before. -/
  first : NamesPermitted tree options → ∀ earlier name later,
    names = earlier ++ name :: later →
    (∀ other ∈ earlier, world.ledger.idOf? set.id other ≠ none) →
    world.ledger.idOf? set.id name = none →
    result = .error (.unrecorded (.inSet name set.deployment)) ∨
      ∃ error, result = .error error ∧ Interrupted world set.id earlier transcript error

theorem readOnly_of_frozen (frozen : set.writable = false) (director : String) (tree : Json)
    (options : InterpolationOptions) (world : World) :
    ReadOnly world set tree options (pinnedVariables director tree set options)
      ((pinned director tree set options).transcript World.answer world)
      ((pinned director tree set options).run World.answer world).1 := by
  have ended := ends_transcript (I := Needs) World.answer (pinned director tree set options) world
  obtain ⟨finds, _⟩ := finds_of_frozen frozen director tree options world
  constructor
  case reads =>
    intro exchange member
    rcases asks_of_frozen frozen ended member with lookup | ⟨name, id, outcome, rfl, found⟩
    · exact .inl lookup
    · rcases finds _ found name _ rfl with same | ⟨_, _, failed⟩
      · exact .inr ⟨id, outcome, rfl, name, (Except.ok.inj same).symm⟩
      · cases failed
  case lacking => exact fun name lacking => unrecorded_of_asked frozen ended lacking
  case first =>
    intro permitted earlier name later order held lacking
    exact unrecorded_or_interrupted frozen finds ended permitted order held lacking

/-- Through a frozen handle, a manifest is resolved by reading only, which leaves the ledger
as it is, and ends at the first variable that the set lacks. The result is the same in
all worlds that agree on the set. -/
theorem pinned_reproducible (frozen : set.writable = false) (director : String) (tree : Json)
    (options : InterpolationOptions) (world : World) :
    ReadOnly world set tree options (pinnedVariables director tree set options)
        ((pinned director tree set options).transcript World.answer world)
        ((pinned director tree set options).run World.answer world).1 ∧
      ((pinned director tree set options).run World.answer world).2.ledger = world.ledger ∧
      ∀ other, World.Agree set.id world other →
        ((pinned director tree set options).run World.answer other).1 =
          ((pinned director tree set options).run World.answer world).1 := by
  refine ⟨readOnly_of_frozen frozen director tree options world,
    (finds_of_frozen frozen director tree options world).2.1, fun other agree => ?_⟩
  unfold pinned
  rcases checkAbsolute_cases tree options with same | ⟨_, names, same⟩
  · rw [same, run_resolveWith, run_resolveWith]
    have step (name : String) (world other : World) (agree : World.Agree set.id world other) :=
      run_fetchPinned_of_agree frozen agree name
    exact (run_related (I := Fetching) step agree _).1.symm
  · rw [same]
    rfl

/-- A world with a still newer version, and with other sets and another deployment. -/
def busyWorld : World :=
  calm (newerVersions.store "/d/o/pw" (.str "newest") .null).2
    ((frozenLedger.save (.fresh ⟨"set-2"⟩ "o")).save (.fresh ⟨"set-3"⟩ "p"))

theorem agree_busyWorld :
    World.Agree (sampleSet.frozen true).id (calm newerVersions frozenLedger) busyWorld := by
  refine ⟨rfl, fun ids used => ?_, rfl⟩
  rw [World.outcomes_of_canned_eq_nil ids rfl, World.outcomes_of_canned_eq_nil ids rfl]
  refine List.map_congr_left fun id member => ?_
  obtain ⟨name, held⟩ := used id member
  obtain ⟨row, found, rfl⟩ := Option.map_eq_some_iff.mp held
  have only : row ∈ [⟨⟨"set-1"⟩, "/d/o/pw", "1", none⟩] := List.mem_of_find?_eq_some found
  obtain rfl := List.mem_singleton.mp only
  cbv

theorem pinned_reproducible_busyWorld :
    (sampleSet.frozen true).writable = false ∧
      World.Agree (sampleSet.frozen true).id (calm newerVersions frozenLedger) busyWorld ∧
      ((pinned "d" sampleManifest (sampleSet.frozen true) sampleOptions).run World.answer
        busyWorld).1 = .ok (.obj [("password", .str "old"), ("port", .int 1)]) := by
  have fetch : PinnedFetch (sampleSet.frozen true) "/d/o/pw" pinnedTranscript (.ok (.str "old")) :=
    readVersion_versionOutcome ▸ .pinned
  have given : Gives World.answer (calm newerVersions frozenLedger) pinnedTranscript :=
    ⟨rfl, rfl, trivial⟩
  obtain ⟨_, ran⟩ := (ends_pinned_sampleManifest rfl fetch).run_eq World.answer given
  have frozen : (sampleSet.frozen true).writable = false := rfl
  obtain ⟨_, _, same⟩ := pinned_reproducible frozen "d" sampleManifest sampleOptions
    (calm newerVersions frozenLedger)
  exact ⟨frozen, agree_busyWorld, (same busyWorld agree_busyWorld).trans (congrArg Prod.fst ran)⟩

end Interpolation

end ManifestVariables
