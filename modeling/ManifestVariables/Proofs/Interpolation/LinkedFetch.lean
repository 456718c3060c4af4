import ManifestVariables.Proofs.Engine.Effects
import ManifestVariables.Proofs.Interpolation.PinnedFetch

/-!
# Fetching a linked value

`Interpolation.LinkedFetch` is the account of `Interpolation.fetchLinked` as a relation,
one rule for each way in which it ends. As with a pinned value, a fetch that brings a
value leaves a row for its name with the consumer (`LinkedFetch.exists_recorded`). Which
version that is, is decided by `Interpolation.linkedId?` where nobody else comes to the
ledger, and `Interpolation.newBinding?` is the row that is added for it
(`LinkedFetch.of_alone`).
-/

namespace ManifestVariables.Interpolation

open Program Engine

variable {consumer provider : VariableSet} {name : String} {transcript : List (Exchange Needs)}
  {result : Except FetchFailure Json} {before after : Ledger}

/-- The row that binds a name of the consumer to a version of the provider. -/
def binding (consumer provider : VariableSet) (name : String) (id : VariableId) : Association :=
  ⟨consumer.id, name, id, some provider.deployment⟩

/-- The exchanges of a fetch for a consumer, and what comes of them. -/
inductive LinkedFetch (consumer provider : VariableSet) (name : String) :
    List (Exchange Needs) → Except FetchFailure Json → Prop where
  | unread {failure : LedgerError} :
      LinkedFetch consumer provider name [asked (.findId consumer.id name) (.error failure)]
        (.error (storeFailure (.ledger failure)))
  /-- The consumer has a version for the name. -/
  | bound {id : VariableId} {outcome : Outcome} :
      LinkedFetch consumer provider name
        [asked (.findId consumer.id name) (.ok (some id)), called (.getById id) outcome]
        (readVersion name id outcome)
  | unrecorded (frozen : consumer.writable = false) :
      LinkedFetch consumer provider name [asked (.findId consumer.id name) (.ok none)]
        (.error (.fatal (.unrecorded (.inConsumer name consumer.deployment))))
  | unreadProvider (writable : consumer.writable = true) {failure : LedgerError} :
      LinkedFetch consumer provider name
        [asked (.findId consumer.id name) (.ok none),
          asked (.findId provider.id name) (.error failure)]
        (.error (storeFailure (.ledger failure)))
  | unprovided (writable : consumer.writable = true) :
      LinkedFetch consumer provider name
        [asked (.findId consumer.id name) (.ok none), asked (.findId provider.id name) (.ok none)]
        (.error (.fatal (.unrecorded (.inProvider name provider.deployment))))
  | refused (writable : consumer.writable = true) {id : VariableId}
      {added : List (Exchange Needs)} {error : StoreError}
      (adding : Adding consumer (binding consumer provider name id) added (.error error)) :
      LinkedFetch consumer provider name
        (asked (.findId consumer.id name) (.ok none) ::
          asked (.findId provider.id name) (.ok (some id)) :: added)
        (.error (storeFailure error))
  /-- The provider's version was copied, or another writer was faster. -/
  | copied (writable : consumer.writable = true) {id stored : VariableId} {outcome : Outcome}
      {added : List (Exchange Needs)}
      (adding : Adding consumer (binding consumer provider name id) added (.ok stored)) :
      LinkedFetch consumer provider name
        (asked (.findId consumer.id name) (.ok none) ::
          asked (.findId provider.id name) (.ok (some id)) ::
          (added ++ [called (.getById stored) outcome]))
        (readVersion name stored outcome)

theorem ends_addLink_iff {id : VariableId} {result : Except FetchFailure VariableId} :
    Ends (fromStore (Store.addLink name id provider.deployment consumer)) transcript result ↔
      ∃ reply, Adding consumer (binding consumer provider name id) transcript reply ∧
        result = reply.mapError storeFailure := by
  simp only [ends_fromStore_iff, Store.addLink, ends_insert_iff, binding]

theorem ends_findFrom_iff {set : VariableSet}
    {result : Except FetchFailure (Option VariableId)} :
    Ends (fromStore (Store.find name set)) transcript result ↔
      ∃ reply, transcript = [asked (.findId set.id name) reply] ∧
        result = reply.mapError fun failure => storeFailure (.ledger failure) := by
  refine ends_fromStore_iff.trans ⟨?_, ?_⟩
  · rintro ⟨_, ended, rfl⟩
    obtain ⟨reply, rfl, rfl⟩ := ends_find_iff.mp ended
    exact ⟨reply, rfl, by cases reply <;> rfl⟩
  · rintro ⟨reply, rfl, rfl⟩
    exact ⟨_, ends_find_iff.mpr ⟨reply, rfl, rfl⟩, by cases reply <;> rfl⟩

/-- What is left of a fetch once the provider is known to have a version. -/
def copyVersion (consumer provider : VariableSet) (name : String) (id : VariableId) :
    Fetch Json := do
  let stored ← fromStore (Store.addLink name id provider.deployment consumer)
  fetchVersion name stored

theorem LinkedFetch.of_copyVersion (writable : consumer.writable = true) {id : VariableId}
    (ended : Ends (copyVersion consumer provider name id) transcript result) :
    LinkedFetch consumer provider name
      (asked (.findId consumer.id name) (.ok none) ::
        asked (.findId provider.id name) (.ok (some id)) :: transcript) result := by
  rcases ends_bind_iff.mp ended with
    ⟨error, failed, rfl⟩ | ⟨added, stored, after, rfl, recorded, followed⟩
  · obtain ⟨reply, adding, same⟩ := ends_addLink_iff.mp failed
    cases reply <;> cases same
    exact .refused writable adding
  · obtain ⟨reply, adding, same⟩ := ends_addLink_iff.mp recorded
    cases reply <;> cases same
    obtain ⟨outcome, rfl, rfl⟩ := ends_fetchVersion_iff.mp followed
    exact .copied writable adding

/-- What is left of a fetch through a writable handle whose set lacks the name. -/
def fetchProvided (consumer provider : VariableSet) (name : String) : Fetch Json := do
  match ← fromStore (Store.find name provider) with
  | none => throw (.fatal (.unrecorded (.inProvider name provider.deployment)))
  | some id => copyVersion consumer provider name id

theorem LinkedFetch.of_fetchProvided (writable : consumer.writable = true)
    (ended : Ends (fetchProvided consumer provider name) transcript result) :
    LinkedFetch consumer provider name
      (asked (.findId consumer.id name) (.ok none) :: transcript) result := by
  rcases ends_bind_iff.mp ended with
    ⟨error, failed, rfl⟩ | ⟨_, held, after, rfl, provided, followed⟩
  · obtain ⟨reply, rfl, same⟩ := ends_findFrom_iff.mp failed
    cases reply <;> cases same
    exact .unreadProvider writable
  · obtain ⟨reply, rfl, same⟩ := ends_findFrom_iff.mp provided
    cases reply <;> cases same
    cases held with
    | none =>
      obtain ⟨rfl, rfl⟩ := ends_done_iff.mp followed
      exact .unprovided writable
    | some id => exact .of_copyVersion writable followed

/-- A fetch goes on with the provider where a writable consumer lacks the name. -/
theorem ends_fetchLinked_of_copyVersion (writable : consumer.writable = true) {id : VariableId}
    (ended : Ends (copyVersion consumer provider name id) transcript result) :
    Ends (fetchLinked consumer provider name)
      (asked (.findId consumer.id name) (.ok none) ::
        asked (.findId provider.id name) (.ok (some id)) :: transcript) result := by
  refine ends_bind_iff.mpr (.inr ⟨[_], none, _, rfl, ends_find_of_found none, ?_⟩)
  simp only [writable]
  exact ends_bind_iff.mpr (.inr ⟨[_], some id, _, rfl, ends_find_of_found (some id), ended⟩)

/-- A fetch ends in the ways that are listed, and in no other. -/
theorem ends_fetchLinked_iff :
    Ends (fetchLinked consumer provider name) transcript result ↔
      LinkedFetch consumer provider name transcript result := by
  constructor
  · intro ended
    rcases ends_bind_iff.mp ended with
      ⟨error, failed, rfl⟩ | ⟨_, found, after, rfl, known, followed⟩
    · obtain ⟨reply, rfl, same⟩ := ends_findFrom_iff.mp failed
      cases reply <;> cases same
      exact .unread
    obtain ⟨reply, rfl, same⟩ := ends_findFrom_iff.mp known
    cases reply <;> cases same
    cases found with
    | some id =>
      obtain ⟨outcome, rfl, rfl⟩ := ends_fetchVersion_iff.mp followed
      exact .bound
    | none =>
      cases writable : consumer.writable with
      | false =>
        simp only [writable] at followed
        obtain ⟨rfl, rfl⟩ := ends_done_iff.mp followed
        exact .unrecorded writable
      | true =>
        simp only [writable] at followed
        exact .of_fetchProvided writable followed
  · intro fetch
    cases fetch with
    | @unread failure =>
      exact ends_bind_iff.mpr (.inl ⟨_, ends_findFrom_iff.mpr ⟨.error failure, rfl, rfl⟩, rfl⟩)
    | @bound id outcome =>
      exact ends_bind_iff.mpr (.inr ⟨[_], some id, _, rfl, ends_find_of_found (some id),
        ends_fetchVersion_iff.mpr ⟨outcome, rfl, rfl⟩⟩)
    | unrecorded frozen =>
      refine ends_bind_iff.mpr (.inr ⟨[_], none, _, rfl, ends_find_of_found none, ?_⟩)
      simp only [frozen]
      exact .refl _
    | @unreadProvider writable failure =>
      refine ends_bind_iff.mpr (.inr ⟨[_], none, _, rfl, ends_find_of_found none, ?_⟩)
      simp only [writable]
      exact ends_bind_iff.mpr (.inl ⟨_, ends_findFrom_iff.mpr ⟨.error failure, rfl, rfl⟩, rfl⟩)
    | unprovided writable =>
      refine ends_bind_iff.mpr (.inr ⟨[_], none, _, rfl, ends_find_of_found none, ?_⟩)
      simp only [writable]
      exact ends_bind_iff.mpr (.inr ⟨[_], none, [], rfl, ends_find_of_found none, .refl _⟩)
    | refused writable adding =>
      exact ends_fetchLinked_of_copyVersion writable
        (ends_bind_iff.mpr (.inl ⟨_, ends_addLink_iff.mpr ⟨_, adding, rfl⟩, rfl⟩))
    | @copied writable id stored outcome added adding =>
      exact ends_fetchLinked_of_copyVersion writable
        (ends_bind_iff.mpr (.inr ⟨_, stored, _, rfl, ends_addLink_iff.mpr ⟨_, adding, rfl⟩,
          ends_fetchVersion_iff.mpr ⟨outcome, rfl, rfl⟩⟩))

/-- A fetch that brings a value leaves a version for its name with the consumer, and the
value is one that was reported for this version. -/
theorem LinkedFetch.exists_recorded {faulty : Prop} {value : Json}
    (fetch : LinkedFetch consumer provider name transcript (.ok value))
    (served : Served faulty before transcript after) :
    ∃ id, after.idOf? consumer.id name = some id ∧ Reported transcript id value := by
  generalize succeeded : Except.ok value = result at fetch
  cases fetch with
  | unread => cases succeeded
  | unrecorded => cases succeeded
  | unreadProvider => cases succeeded
  | unprovided => cases succeeded
  | refused => cases succeeded
  | @bound id outcome =>
    obtain ⟨_, _, _, answered, rest⟩ := served.exists_answered
    obtain ⟨found, rfl⟩ := answered.findId
    exact ⟨id, (Served.later rest).idOf?_eq_some found, _, by simp,
      readVersion_iff_reports.mp succeeded.symm⟩
  | @copied writable id stored outcome added adding =>
    obtain ⟨_, _, _, _, served⟩ := served.exists_answered
    obtain ⟨_, _, _, _, served⟩ := served.exists_answered
    obtain ⟨_, served, rest⟩ := served.exists_between
    exact ⟨stored, (Served.later rest).idOf?_eq_some (adding.recorded served), _, by simp,
      readVersion_iff_reports.mp succeeded.symm⟩

/-- A fetch of a name that the consumer has asks for the version of the consumer and for
nothing else. -/
theorem LinkedFetch.of_held {id : VariableId}
    (fetch : LinkedFetch consumer provider name transcript result)
    (served : Served False before transcript after)
    (held : before.idOf? consumer.id name = some id) :
    ∃ outcome, transcript =
        [asked (.findId consumer.id name) (.ok (some id)), called (.getById id) outcome] ∧
      result = readVersion name id outcome := by
  have finds {reply : Except LedgerError (Option VariableId)} {rest : List (Exchange Needs)}
      (served : Served False before (asked (.findId consumer.id name) reply :: rest) after) :
      reply = .ok (some id) := by
    obtain ⟨_, _, waited, answered, _⟩ := served.exists_answered
    rw [answered.reply_of_findId, (Served.later waited).idOf?_eq_some held]
  cases fetch with
  | unread => exact nomatch finds served
  | unrecorded => exact nomatch finds served
  | unreadProvider => exact nomatch finds served
  | unprovided => exact nomatch finds served
  | refused => exact nomatch finds served
  | copied => exact nomatch finds served
  | @bound other outcome =>
    obtain rfl : other = id := Option.some.inj (Except.ok.inj (finds served))
    exact ⟨outcome, rfl, rfl⟩

/-- The version that a name is linked to: the one of the consumer, or else the provider's
where the consumer can still take it over. -/
def linkedId? (consumer provider : VariableSet) (ledger : Ledger) (name : String) :
    Option VariableId :=
  (ledger.idOf? consumer.id name).or
    (if consumer.writable then ledger.idOf? provider.id name else none)

/-- The row that the consumer gains where it takes over the provider's version. -/
def newBinding? (consumer provider : VariableSet) (ledger : Ledger) (name : String) :
    Option Association :=
  if ledger.idOf? consumer.id name = none then
    (linkedId? consumer provider ledger name).map (binding consumer provider name)
  else none

/-- Who lacks a version for a name that is linked to none. -/
def unlinked (consumer provider : VariableSet) (name : String) : UnrecordedName :=
  if consumer.writable then .inProvider name provider.deployment
  else .inConsumer name consumer.deployment

/-- What a fetch brings: it fails where its name is linked to no version, and otherwise
reads the version that the consumer has from then on. -/
inductive LinkReply (consumer provider : VariableSet) (before : Ledger) (name : String)
    (transcript : List (Exchange Needs)) (after : Ledger) : Except FetchFailure Json → Prop where
  | unlinked (unlinked : linkedId? consumer provider before name = none) :
      LinkReply consumer provider before name transcript after
        (.error (.fatal (.unrecorded (Interpolation.unlinked consumer provider name))))
  | linked {id : VariableId} {outcome : Outcome}
      (linked : linkedId? consumer provider before name = some id)
      (asked : called (.getById id) outcome ∈ transcript)
      (held : after.idOf? consumer.id name = some id) :
      LinkReply consumer provider before name transcript after (readVersion name id outcome)

theorem LinkReply.mono {more : List (Exchange Needs)} {later : Ledger}
    (reply : LinkReply consumer provider before name transcript after result)
    (included : transcript ⊆ more) (passed : Ledger.Later after later) :
    LinkReply consumer provider before name more later result := by
  cases reply with
  | unlinked none => exact .unlinked none
  | linked linked asked held => exact .linked linked (included asked) (passed.idOf?_eq_some held)

/-- A reply depends on the ledger only by the version that the name is linked to. -/
theorem LinkReply.congr {other : Ledger}
    (reply : LinkReply consumer provider before name transcript after result)
    (same : linkedId? consumer provider other name = linkedId? consumer provider before name) :
    LinkReply consumer provider other name transcript after result := by
  cases reply with
  | unlinked none => exact .unlinked (same.trans none)
  | linked linked asked held => exact .linked (same.trans linked) asked held

/-- Where nobody else comes to the ledger, a fetch asks for the version that its name is
linked to, and adds the row that is missing for it and no other. -/
theorem LinkedFetch.of_alone (fetch : LinkedFetch consumer provider name transcript result)
    (alone : Alone False before transcript after)
    (recorded : Keyed.contains before.sets consumer.id = true) :
    calls transcript = ((linkedId? consumer provider before name).map Call.getById).toList ∧
      rowsAdded transcript = (newBinding? consumer provider before name).toList ∧
      setsSaved transcript = [] ∧
      LinkReply consumer provider before name transcript after result := by
  have finds {set : VariableSet} {reply : Except LedgerError (Option VariableId)}
      {rest : List (Exchange Needs)}
      (alone : Alone False before (asked (.findId set.id name) reply :: rest) after) :
      reply = .ok (before.idOf? set.id name) ∧ Alone False before rest after := by
    obtain ⟨_, answered, followed⟩ := alone.exists_answered
    obtain rfl := answered.reply_of_findId
    obtain ⟨_, rfl⟩ := answered.findId
    exact ⟨rfl, followed⟩
  cases fetch with
  | unread => exact nomatch (finds alone).1
  | @bound id outcome =>
    have held := Except.ok.inj (finds alone).1
    have linked : linkedId? consumer provider before name = some id := by
      rw [linkedId?, ← held, Option.some_or]
    have stays := (Alone.served alone).later.idOf?_eq_some held.symm
    refine ⟨by rw [linked]; rfl, ?_, rfl, .linked linked (by simp) stays⟩
    simp [newBinding?, ← held, rowsAdded, addedRow?]
  | unrecorded frozen =>
    have unheld := Except.ok.inj (finds alone).1
    have none : linkedId? consumer provider before name = none := by
      simp [linkedId?, ← unheld, frozen]
    have missing : unlinked consumer provider name = .inConsumer name consumer.deployment := by
      simp [unlinked, frozen]
    refine ⟨by rw [none]; rfl, ?_, rfl, missing ▸ .unlinked none⟩
    simp [newBinding?, none, rowsAdded, addedRow?]
  | unreadProvider writable => exact nomatch (finds (finds alone).2).1
  | unprovided writable =>
    have unheld := Except.ok.inj (finds alone).1
    have unprovided := Except.ok.inj (finds (finds alone).2).1
    have none : linkedId? consumer provider before name = none := by
      simp [linkedId?, ← unheld, ← unprovided]
    have missing : unlinked consumer provider name = .inProvider name provider.deployment := by
      simp [unlinked, writable]
    refine ⟨by rw [none]; rfl, ?_, rfl, missing ▸ .unlinked none⟩
    simp [newBinding?, none, rowsAdded, addedRow?]
  | @refused writable id added error adding =>
    obtain ⟨same, _⟩ := adding.of_alone (finds (finds alone).2).2 recorded writable
    cases same
  | @copied writable id stored outcome added adding =>
    have unheld := Except.ok.inj (finds alone).1
    have provided := Except.ok.inj (finds (finds alone).2).1
    obtain ⟨_, whileAdding, rest⟩ := Serves.exists_between (finds (finds alone).2).2
    obtain ⟨same, rows⟩ := adding.of_alone whileAdding recorded writable
    obtain ⟨silent, _, unsaved⟩ := adding.effects
    -- The consumer lacked the name, so the version that is stored is the provider's.
    have lacked : before.idOf? (binding consumer provider name id).set
        (binding consumer provider name id).name = none := unheld.symm
    have linked : linkedId? consumer provider before name = some id := by
      simp [linkedId?, ← unheld, ← provided, writable]
    simp only [lacked, if_true, Option.getD_none] at same rows
    obtain rfl : stored = id := Except.ok.inj same
    have stays := (Alone.served rest).later.idOf?_eq_some (adding.recorded (Alone.served whileAdding))
    refine ⟨?_, ?_, ?_, .linked linked (by simp) stays⟩
    · rw [linked]
      exact (calls_append added _).trans (by rw [silent]; rfl)
    · calc rowsAdded _ = rowsAdded added ++ rowsAdded [called (.getById stored) outcome] :=
          rowsAdded_append added _
        _ = [binding consumer provider name stored] := by
          rw [rows]
          rfl
        _ = (newBinding? consumer provider before name).toList := by
          simp [newBinding?, linked, ← unheld]
    · exact (setsSaved_append added _).trans (by rw [unsaved]; rfl)

end ManifestVariables.Interpolation
