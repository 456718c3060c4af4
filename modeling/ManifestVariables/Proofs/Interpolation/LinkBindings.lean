import ManifestVariables.Proofs.Interpolation.LinkedFetch
import ManifestVariables.Proofs.Interpolation.Stability
import ManifestVariables.Proofs.Resolution.Fetches

/-!
# Resolving links binds names

A resolution for a consumer asks for versions by their ids, and adds to the ledger the
rows that bind the names of the consumer to versions of the provider. `Bindings` says
which of them, where nobody else comes to the ledger: all is decided name by name by what
the ledger holds at the start (`Interpolation.linked_binds`). Names do not interfere
because each is reached once, so no row is for a name that is still to come.
-/

namespace ManifestVariables.Interpolation

open Program Engine Resolution

variable {director : String} {tree : Json} {consumer provider : VariableSet}
  {options : InterpolationOptions} {transcript : List (Exchange Needs)} {before after : Ledger}

/-- What a resolution of some names comes to that reached the first ones of them. -/
structure Bindings (consumer provider : VariableSet) (before : Ledger) (names reached : List String)
    (transcript : List (Exchange Needs)) (result : Except ResolutionError Json)
    (after : Ledger) : Prop where
  in_order : reached <+: names
  once : reached.Nodup
  /-- Each name that is linked to a version is asked for by the id of this version. -/
  asks : calls transcript = (reached.filterMap (linkedId? consumer provider before)).map .getById
  /-- A name that is linked to none ends the resolution. -/
  aborts : ∀ name ∈ reached, linkedId? consumer provider before name = none →
    reached.getLast? = some name ∧ result = .error (.unrecorded (unlinked consumer provider name))
  /-- Nothing else does but a call that fails for all of the config server. -/
  stops : reached ≠ names → ∃ name, reached.getLast? = some name ∧
    (linkedId? consumer provider before name = none ∨ ∃ id outcome error,
      linkedId? consumer provider before name = some id ∧
        called (.getById id) outcome ∈ transcript ∧
        readVersion name id outcome = .error (.fatal error) ∧ result = .error error)
  /-- The consumer gains a row for each name that it takes over. -/
  rows : ∀ id, after.rowsOf id = before.rowsOf id ++
    if id = consumer.id then reached.filterMap (newBinding? consumer provider before) else []
  sets : after.sets = before.sets ∧ after.order = before.order
  /-- Where the tree is resolved, the consumer has a version for all of its names. -/
  binds : ∀ tree, result = .ok tree → reached = names ∧
    ∀ name ∈ names, ∃ id, linkedId? consumer provider before name = some id ∧
      after.idOf? consumer.id name = some id

theorem name_of_newBinding? {name : String} {row : Association}
    (new : newBinding? consumer provider before name = some row) :
    row.name = name ∧ row.set = consumer.id := by
  rw [newBinding?] at new
  split at new
  · obtain ⟨id, _, rfl⟩ := Option.map_eq_some_iff.mp new
    exact ⟨rfl, rfl⟩
  · cases new

/-- New rows are all of the consumer. -/
theorem filter_newBindings (names : List String) (id : SetId) :
    ((names.filterMap (newBinding? consumer provider before)).filter fun row => row.set = id) =
      if id = consumer.id then names.filterMap (newBinding? consumer provider before) else [] := by
  refine Ledger.filter_owned (fun row member => ?_) id
  obtain ⟨name, _, new⟩ := List.mem_filterMap.mp member
  exact (name_of_newBinding? new).2

/-- The names that some fetches ask for. -/
def askedFor (outer : List (Exchange Fetching)) : List String :=
  outer.map Exchange.question

@[simp] theorem askedFor_cons (name : String) (reply : Except FetchFailure Json)
    (outer : List (Exchange Fetching)) :
    askedFor (fetching name reply :: outer) = name :: askedFor outer := rfl

@[simp] theorem askedFor_append (first second : List (Exchange Fetching)) :
    askedFor (first ++ second) = askedFor first ++ askedFor second :=
  List.map_append

theorem getLast?_askedFor (earlier : List (Exchange Fetching)) (name : String)
    (reply : Except FetchFailure Json) :
    (askedFor (earlier ++ [fetching name reply])).getLast? = some name := by
  rw [askedFor_append]
  exact List.getLast?_concat

/-- What fetches do that are made one after the other, each for a name of its own. -/
theorem effects_of_expands {outer : List (Exchange Fetching)}
    (expanded : Expands (I := Fetching) (fetchLinked consumer provider) outer transcript)
    (alone : Alone False before transcript after)
    (recorded : Keyed.contains before.sets consumer.id = true) (once : (askedFor outer).Nodup) :
    calls transcript =
        ((askedFor outer).filterMap (linkedId? consumer provider before)).map .getById ∧
      rowsAdded transcript = (askedFor outer).filterMap (newBinding? consumer provider before) ∧
      setsSaved transcript = [] ∧
      ∀ name reply, fetching name reply ∈ outer →
        LinkReply consumer provider before name transcript after reply := by
  induction expanded generalizing before with
  | nil => exact ⟨rfl, rfl, rfl, nofun⟩
  | @cons fetch outer inner rest ended tail ih =>
    obtain ⟨(first : String), (reply : Except FetchFailure Json)⟩ := fetch
    obtain ⟨fresh, once⟩ := List.nodup_cons.mp once
    obtain ⟨between, alone, followed⟩ := Serves.exists_between alone
    obtain ⟨asks, rows, unsaved, replied⟩ := (ends_fetchLinked_iff.mp ended).of_alone alone recorded
    -- The first fetch adds no row but for its own name, so it makes no difference to the others.
    have unaffected : ∀ name ∈ askedFor outer, ∀ id,
        between.idOf? id name = before.idOf? id name := by
      intro name member id
      refine idOf?_of_alone alone fun row added _ => ?_
      rw [rows, Option.mem_toList] at added
      rintro rfl
      rw [(name_of_newBinding? added).1] at member
      exact fresh member
    have links : ∀ name ∈ askedFor outer,
        linkedId? consumer provider between name = linkedId? consumer provider before name := by
      intro name member
      simp only [linkedId?, unaffected name member]
    have news : ∀ name ∈ askedFor outer,
        newBinding? consumer provider between name = newBinding? consumer provider before name := by
      intro name member
      simp only [newBinding?, unaffected name member, links name member]
    have still : Keyed.contains between.sets consumer.id = true := by
      rw [(sets_of_alone alone unsaved).1]
      exact recorded
    obtain ⟨asksLater, rowsLater, unsavedLater, replies⟩ := ih followed still once
    rw [List.filterMap_congr links] at asksLater
    rw [List.filterMap_congr news] at rowsLater
    refine ⟨?_, ?_, ?_, ?_⟩
    · rw [calls_append, asks, asksLater, askedFor_cons, List.filterMap_cons]
      cases linkedId? consumer provider before first <;> rfl
    · rw [rowsAdded_append, rows, rowsLater, askedFor_cons, List.filterMap_cons]
      cases newBinding? consumer provider before first <;> rfl
    · rw [setsSaved_append, unsaved, unsavedLater]
      rfl
    · intro name given member
      rcases List.mem_cons.mp member with here | later
      · cases here
        exact replied.mono (List.subset_append_left _ _) (Alone.served followed).later
      · have among : name ∈ askedFor outer := List.mem_map.mpr ⟨_, later, rfl⟩
        exact ((replies name given later).mono (List.subset_append_right _ _) (.refl _)).congr
          (links name among).symm

theorem exists_fetch_of_mem {outer : List (Exchange Fetching)} {name : String}
    (member : name ∈ askedFor outer) : ∃ reply, fetching name reply ∈ outer := by
  obtain ⟨⟨_, reply⟩, among, rfl⟩ := List.mem_map.mp member
  exact ⟨reply, among⟩

theorem exists_bindings_of_ends {result : Except ResolutionError Json}
    (ended : Ends (linked director tree consumer provider options) transcript result)
    (alone : Alone False before transcript after)
    (recorded : Keyed.contains before.sets consumer.id = true) :
    ∃ reached, Bindings consumer provider before
      (variablesOf tree options.ignored (Name.qualify director provider.deployment)) reached
      transcript result after := by
  obtain ⟨outer, resolved, expanded⟩ := ends_translate_iff.mp ended
  have in_order : askedFor outer <+: _ :=
    (asksInOrder_resolve tree options.ignored
      (Name.qualify director provider.deployment)).prefix_of_reaches resolved
  have once : (askedFor outer).Nodup := in_order.sublist.nodup (nodup_variablesOf _ _ _)
  obtain ⟨asks, rows, unsaved, replies⟩ := effects_of_expands expanded alone recorded once
  -- A fatal fetch is the last one.
  have last {name : String} {error : ResolutionError}
      (member : fetching name (.error (.fatal error)) ∈ outer) :
      (askedFor outer).getLast? = some name ∧ result = .error error := by
    obtain ⟨⟨earlier, rfl⟩, failed⟩ := ends_at_fatal resolved member
    exact ⟨getLast?_askedFor earlier name _, failed⟩
  have aborts : ∀ name ∈ askedFor outer, linkedId? consumer provider before name = none →
      (askedFor outer).getLast? = some name ∧
        result = .error (.unrecorded (unlinked consumer provider name)) := by
    intro name member none
    obtain ⟨reply, among⟩ := exists_fetch_of_mem member
    cases replies name reply among with
    | unlinked => exact last among
    | linked linked => cases none.symm.trans linked
  have stops : askedFor outer ≠ variablesOf tree options.ignored
      (Name.qualify director provider.deployment) →
      ∃ name, (askedFor outer).getLast? = some name ∧
        (linkedId? consumer provider before name = none ∨ ∃ id outcome error,
          linkedId? consumer provider before name = some id ∧
            called (.getById id) outcome ∈ transcript ∧
            readVersion name id outcome = .error (.fatal error) ∧ result = .error error) := by
    intro partly
    rcases fetches_of_ends_resolve resolved with all | ⟨earlier, name, error, same, failed⟩
    · exact absurd all partly
    · have member : fetching name (.error (.fatal error)) ∈ outer := by simp [same]
      refine ⟨name, (last member).1, ?_⟩
      have reply := replies name _ member
      generalize given : Except.error (FetchFailure.fatal error) = answer at reply
      cases reply with
      | unlinked none => exact .inl none
      | @linked id outcome linked asked =>
        exact .inr ⟨id, outcome, error, linked, asked, given.symm, failed⟩
  refine ⟨askedFor outer, in_order, once, asks, aborts, stops, ?_, sets_of_alone alone unsaved, ?_⟩
  · intro id
    rw [rowsOf_of_alone alone, rows, filter_newBindings]
  · rintro value rfl
    have all : askedFor outer = variablesOf tree options.ignored
        (Name.qualify director provider.deployment) := by
      by_contra partly
      obtain ⟨name, isLast, none | ⟨_, _, _, _, _, _, failed⟩⟩ := stops partly
      · cases (aborts name (List.mem_of_getLast? isLast) none).2
      · cases failed
    refine ⟨all, fun name member => ?_⟩
    rw [← all] at member
    obtain ⟨reply, among⟩ := exists_fetch_of_mem member
    cases replies name reply among with
    | unlinked => cases (last among).2
    | @linked id _ linked _ held => exact ⟨id, linked, held⟩

/-- Resolving what another deployment provides asks for versions by their ids only, one for
each name that it reaches, and binds the names of a consumer that can take them over. -/
theorem linked_binds {σ : Type} {answer : (need : Need) → σ → need.Reply × σ} {state : σ}
    (recorded : Keyed.contains before.sets consumer.id = true)
    (alone : Alone False before
      ((linked director tree consumer provider options).transcript answer state) after) :
    ∃ reached, Bindings consumer provider before
      (variablesOf tree options.ignored (Name.qualify director provider.deployment)) reached
      ((linked director tree consumer provider options).transcript answer state)
      ((linked director tree consumer provider options).run answer state).1 after :=
  exists_bindings_of_ends
    (ends_transcript (I := Needs) answer (linked director tree consumer provider options) state)
    alone recorded

/-- A set of another deployment, a ledger in which it has a version of a name, and a config
server that has the version. -/
def providerSet : VariableSet := .fresh ⟨"set-2"⟩ "p"

def providerLedger : Ledger :=
  { sampleLedger.save providerSet with
    rows := [(⟨"set-2"⟩, [⟨⟨"set-2"⟩, "/d/p/pw", "1", none⟩])] }

def providerVersions : Versions := (Versions.store [] "/d/p/pw" (.str "old") .null).2

theorem variablesOf_sampleManifest :
    variablesOf sampleManifest sampleOptions.ignored (Name.qualify "d" providerSet.deployment) =
      ["/d/p/pw"] := by
  decide +kernel

theorem linked_binds_sampleManifest :
    Keyed.contains providerLedger.sets sampleSet.id = true ∧
      Alone False providerLedger
        ((linked "d" sampleManifest sampleSet providerSet sampleOptions).transcript World.answer
          (calm providerVersions providerLedger))
        ((linked "d" sampleManifest sampleSet providerSet sampleOptions).run World.answer
          (calm providerVersions providerLedger)).2.ledger ∧
      ∃ reached, Bindings sampleSet providerSet providerLedger ["/d/p/pw"] reached
        ((linked "d" sampleManifest sampleSet providerSet sampleOptions).transcript World.answer
          (calm providerVersions providerLedger))
        ((linked "d" sampleManifest sampleSet providerSet sampleOptions).run World.answer
          (calm providerVersions providerLedger)).1
        ((linked "d" sampleManifest sampleSet providerSet sampleOptions).run World.answer
          (calm providerVersions providerLedger)).2.ledger := by
  have recorded : Keyed.contains providerLedger.sets sampleSet.id = true := by decide
  have alone := alone_transcript (linked "d" sampleManifest sampleSet providerSet sampleOptions)
    (calm providerVersions providerLedger) rfl rfl
  refine ⟨recorded, alone, ?_⟩
  rw [← variablesOf_sampleManifest]
  exact linked_binds recorded alone

end ManifestVariables.Interpolation
