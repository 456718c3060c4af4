import Mathlib.Data.List.Permutation
import ManifestVariables.Proofs.ConfigServer.Lookup
import ManifestVariables.Proofs.Engine.Actions
import ManifestVariables.Resolution.Interpolation

/-!
# Fetching a pinned value

`Interpolation.PinnedFetch` is the account of `Interpolation.fetchPinned` as a
relation, one rule for each way in which it ends. A fetch that brings a value leaves
a row for its name behind, and the value is one that was reported for the version in
that row (`PinnedFetch.recorded`). This holds on every way to a value: the row was
there, the fetch added it, or another writer was faster.
-/

namespace ManifestVariables.Interpolation

open Program Engine

variable {set : VariableSet} {name : String} {transcript : List (Exchange Needs)}
  {result : Except FetchFailure Json}

/-- The failure of a store operation while a value is fetched. -/
abbrev storeFailure (error : StoreError) : FetchFailure :=
  .fatal (.store error)

/-- The value of a version, from the outcome of its lookup. -/
def readVersion (name : String) (id : VariableId) (outcome : Outcome) : Except FetchFailure Json :=
  ((Client.readById name id outcome).mapError FetchFailure.ofServer).map Variable.value

/-- The exchanges of a fetch through a handle of a set, and what comes of them. -/
inductive PinnedFetch (set : VariableSet) (name : String) :
    List (Exchange Needs) → Except FetchFailure Json → Prop where
  | unread {failure : LedgerError} :
      PinnedFetch set name [asked (.findId set.id name) (.error failure)]
        (.error (storeFailure (.ledger failure)))
  /-- The set has a version for the name. -/
  | pinned {id : VariableId} {outcome : Outcome} :
      PinnedFetch set name
        [asked (.findId set.id name) (.ok (some id)), called (.getById id) outcome]
        (readVersion name id outcome)
  | unrecorded (frozen : set.writable = false) :
      PinnedFetch set name [asked (.findId set.id name) (.ok none)]
        (.error (.fatal (.unrecorded (.inSet name set.deployment))))
  | unknown (writable : set.writable = true) {outcome : Outcome} {error : ServerError}
      (read : Client.readByName name outcome = .error error) :
      PinnedFetch set name
        [asked (.findId set.id name) (.ok none), called (.get name) outcome]
        (.error (FetchFailure.ofServer error))
  | refused (writable : set.writable = true) {outcome : Outcome} {latest : Variable}
      {added : List (Exchange Needs)} {error : StoreError}
      (read : Client.readByName name outcome = .ok latest)
      (adding : Adding set ⟨set.id, name, latest.id, none⟩ added (.error error)) :
      PinnedFetch set name
        (asked (.findId set.id name) (.ok none) :: called (.get name) outcome :: added)
        (.error (storeFailure error))
  /-- The latest version is the one that the set has from now on. -/
  | recorded (writable : set.writable = true) {outcome : Outcome} {latest : Variable}
      {added : List (Exchange Needs)}
      (read : Client.readByName name outcome = .ok latest)
      (adding : Adding set ⟨set.id, name, latest.id, none⟩ added (.ok latest.id)) :
      PinnedFetch set name
        (asked (.findId set.id name) (.ok none) :: called (.get name) outcome :: added)
        (.ok latest.value)
  /-- Another writer was faster with another version. -/
  | overtaken (writable : set.writable = true) {outcome other : Outcome} {latest : Variable}
      {added : List (Exchange Needs)} {id : VariableId}
      (read : Client.readByName name outcome = .ok latest)
      (adding : Adding set ⟨set.id, name, latest.id, none⟩ added (.ok id))
      (different : id ≠ latest.id) :
      PinnedFetch set name
        (asked (.findId set.id name) (.ok none) :: called (.get name) outcome ::
          (added ++ [called (.getById id) other]))
        (readVersion name id other)

theorem ends_fromStore_iff {α : Type} {operation : Store.Operation α}
    {result : Except FetchFailure α} :
    Ends (fromStore operation) transcript result ↔
      ∃ reply, Ends (ofStore operation) transcript reply ∧ result = reply.mapError storeFailure :=
  ends_ofProgram_iff

theorem ends_fromServer_iff {call : Call} {read : Outcome → Except ServerError Variable}
    {result : Except FetchFailure Variable} :
    Ends (fromServer (.ask call fun outcome => .done (read outcome))) transcript result ↔
      ∃ outcome, transcript = [called call outcome] ∧
        result = (read outcome).mapError FetchFailure.ofServer := by
  refine ends_ofProgram_iff.trans ⟨?_, ?_⟩
  · rintro ⟨reply, ended, rfl⟩
    obtain ⟨outcome, rfl, rfl⟩ := ends_call_iff.mp ended
    exact ⟨outcome, rfl, rfl⟩
  · rintro ⟨outcome, rfl, rfl⟩
    exact ⟨_, ends_call_iff.mpr ⟨outcome, rfl, rfl⟩, rfl⟩

theorem ends_fetchVersion_iff {id : VariableId} :
    Ends (fetchVersion name id) transcript result ↔
      ∃ outcome, transcript = [called (.getById id) outcome] ∧
        result = readVersion name id outcome := by
  refine ends_bind_iff.trans ⟨?_, ?_⟩
  · rintro (⟨error, ended, rfl⟩ | ⟨before, found, after, rfl, ended, followed⟩)
    · obtain ⟨outcome, rfl, same⟩ := ends_fromServer_iff.mp ended
      exact ⟨outcome, rfl, by rw [readVersion, ← same]; rfl⟩
    · obtain ⟨outcome, rfl, same⟩ := ends_fromServer_iff.mp ended
      obtain ⟨rfl, rfl⟩ := ends_done_iff.mp followed
      exact ⟨outcome, rfl, by rw [readVersion, ← same]; rfl⟩
  · rintro ⟨outcome, rfl, rfl⟩
    rw [readVersion]
    cases read : (Client.readById name id outcome).mapError FetchFailure.ofServer with
    | error error =>
      exact .inl ⟨error, ends_fromServer_iff.mpr ⟨outcome, rfl, read.symm⟩, rfl⟩
    | ok found =>
      exact .inr ⟨_, found, [], (List.append_nil _).symm,
        ends_fromServer_iff.mpr ⟨outcome, rfl, read.symm⟩, .refl _⟩

theorem ends_find_of_found (found : Option VariableId) :
    Ends (fromStore (Store.find name set)) [asked (.findId set.id name) (.ok found)] (.ok found) :=
  ends_fromStore_iff.mpr ⟨.ok found, ends_find_iff.mpr ⟨.ok found, rfl, rfl⟩, rfl⟩

theorem ends_getByName_iff {result : Except FetchFailure Variable} :
    Ends (fromServer (Client.getByName name)) transcript result ↔
      ∃ outcome, transcript = [called (.get name) outcome] ∧
        result = (Client.readByName name outcome).mapError FetchFailure.ofServer :=
  ends_fromServer_iff

theorem ends_add_iff {id : VariableId} {result : Except FetchFailure VariableId} :
    Ends (fromStore (Store.add name id set)) transcript result ↔
      ∃ reply, Adding set ⟨set.id, name, id, none⟩ transcript reply ∧
        result = reply.mapError storeFailure := by
  simp only [ends_fromStore_iff, Store.add, ends_insert_iff]

/-- What is left of a fetch once the latest version is known. -/
def recordVersion (set : VariableSet) (name : String) (latest : Variable) : Fetch Json := do
  let stored ← fromStore (Store.add name latest.id set)
  if stored = latest.id then return latest.value else fetchVersion name stored

/-- What is left of a fetch through a writable handle whose set lacks the name. -/
def recordLatest (set : VariableSet) (name : String) : Fetch Json := do
  let latest ← fromServer (Client.getByName name)
  recordVersion set name latest

theorem PinnedFetch.of_recordVersion (writable : set.writable = true) {outcome : Outcome}
    {latest : Variable} (read : Client.readByName name outcome = .ok latest)
    (ended : Ends (recordVersion set name latest) transcript result) :
    PinnedFetch set name
      (asked (.findId set.id name) (.ok none) :: called (.get name) outcome :: transcript)
      result := by
  rcases ends_bind_iff.mp ended with
    ⟨error, failed, rfl⟩ | ⟨added, id, after, rfl, stored, followed⟩
  · obtain ⟨reply, adding, same⟩ := ends_add_iff.mp failed
    cases reply <;> cases same
    exact .refused writable read adding
  · obtain ⟨reply, adding, same⟩ := ends_add_iff.mp stored
    cases reply <;> cases same
    split at followed
    next same =>
      subst same
      obtain ⟨rfl, rfl⟩ := ends_done_iff.mp followed
      rw [List.append_nil]
      exact .recorded writable read adding
    next different =>
      obtain ⟨other, rfl, rfl⟩ := ends_fetchVersion_iff.mp followed
      exact .overtaken writable read adding different

theorem PinnedFetch.of_recordLatest (writable : set.writable = true)
    (ended : Ends (recordLatest set name) transcript result) :
    PinnedFetch set name (asked (.findId set.id name) (.ok none) :: transcript) result := by
  rcases ends_bind_iff.mp ended with
    ⟨error, failed, rfl⟩ | ⟨before, found, after, rfl, known, followed⟩
  · obtain ⟨outcome, rfl, same⟩ := ends_getByName_iff.mp failed
    cases read : Client.readByName name outcome <;> rw [read] at same <;> cases same
    exact .unknown writable read
  · obtain ⟨outcome, rfl, same⟩ := ends_getByName_iff.mp known
    cases read : Client.readByName name outcome <;> rw [read] at same <;> cases same
    exact .of_recordVersion writable read followed

/-- A fetch goes on with recording where a writable set lacks the name. -/
theorem ends_fetchPinned_of_recordVersion (writable : set.writable = true) {outcome : Outcome}
    {latest : Variable} (read : Client.readByName name outcome = .ok latest)
    (ended : Ends (recordVersion set name latest) transcript result) :
    Ends (fetchPinned set name)
      (asked (.findId set.id name) (.ok none) :: called (.get name) outcome :: transcript)
      result := by
  refine ends_bind_iff.mpr (.inr ⟨[_], none, _, rfl, ends_find_of_found none, ?_⟩)
  simp only [writable]
  exact ends_bind_iff.mpr (.inr ⟨[_], latest, _, rfl,
    ends_getByName_iff.mpr ⟨outcome, rfl, by rw [read]; rfl⟩, ended⟩)

/-- A fetch ends in the ways that are listed, and in no other. -/
theorem ends_fetchPinned_iff :
    Ends (fetchPinned set name) transcript result ↔ PinnedFetch set name transcript result := by
  constructor
  · intro ended
    rcases ends_bind_iff.mp ended with
      ⟨error, failed, rfl⟩ | ⟨before, found, after, rfl, known, followed⟩
    · obtain ⟨reply, ended, same⟩ := ends_fromStore_iff.mp failed
      obtain ⟨reply, rfl, rfl⟩ := ends_find_iff.mp ended
      cases reply <;> cases same
      exact .unread
    · obtain ⟨reply, ended, same⟩ := ends_fromStore_iff.mp known
      obtain ⟨reply, rfl, rfl⟩ := ends_find_iff.mp ended
      cases reply <;> cases same
      cases found with
      | some id =>
        obtain ⟨outcome, rfl, rfl⟩ := ends_fetchVersion_iff.mp followed
        exact .pinned
      | none =>
        cases writable : set.writable with
        | false =>
          simp only [writable] at followed
          obtain ⟨rfl, rfl⟩ := ends_done_iff.mp followed
          exact .unrecorded writable
        | true =>
          simp only [writable] at followed
          exact .of_recordLatest writable followed
  · intro fetch
    cases fetch with
    | @unread failure =>
      exact ends_bind_iff.mpr (.inl ⟨_,
        ends_fromStore_iff.mpr ⟨_, ends_find_iff.mpr ⟨.error failure, rfl, rfl⟩, rfl⟩, rfl⟩)
    | @pinned id outcome =>
      exact ends_bind_iff.mpr (.inr ⟨[_], some id, _, rfl, ends_find_of_found (some id),
        ends_fetchVersion_iff.mpr ⟨outcome, rfl, rfl⟩⟩)
    | unrecorded frozen =>
      refine ends_bind_iff.mpr (.inr ⟨[_], none, _, rfl, ends_find_of_found none, ?_⟩)
      simp only [frozen]
      exact .refl _
    | @unknown writable outcome error read =>
      refine ends_bind_iff.mpr (.inr ⟨[_], none, _, rfl, ends_find_of_found none, ?_⟩)
      simp only [writable]
      exact ends_bind_iff.mpr (.inl ⟨_,
        ends_getByName_iff.mpr ⟨outcome, rfl, by rw [read]; rfl⟩, rfl⟩)
    | refused writable read adding =>
      exact ends_fetchPinned_of_recordVersion writable read
        (ends_bind_iff.mpr (.inl ⟨_, ends_add_iff.mpr ⟨_, adding, rfl⟩, rfl⟩))
    | @recorded writable outcome latest added read adding =>
      refine ends_fetchPinned_of_recordVersion writable read (ends_bind_iff.mpr
        (.inr ⟨_, latest.id, [], (List.append_nil _).symm, ends_add_iff.mpr ⟨_, adding, rfl⟩, ?_⟩))
      simp only [if_true]
      exact .refl _
    | @overtaken writable outcome other latest added id read adding different =>
      refine ends_fetchPinned_of_recordVersion writable read (ends_bind_iff.mpr
        (.inr ⟨_, id, _, rfl, ends_add_iff.mpr ⟨_, adding, rfl⟩, ?_⟩))
      simp only [different, if_false]
      exact ends_fetchVersion_iff.mpr ⟨other, rfl, rfl⟩

theorem fetchVersion_eq (name : String) (id : VariableId) :
    (fetchVersion name id : Program Needs (Except FetchFailure Json)) =
      .ask (.call (.getById id) : Need) fun outcome => .done (readVersion name id outcome) := by
  refine congrArg (Program.ask (I := Needs) (.call (.getById id) : Need))
    (funext fun outcome => ?_)
  simp only [readVersion, Program.translate, Program.andThen]
  cases Client.readById name id outcome <;> rfl

/-- What is left of a fetch once the ledger has answered. -/
def resumePinned (set : VariableSet) (name : String) :
    Except LedgerError (Option VariableId) → Program Needs (Except FetchFailure Json)
  | .error failure => .done (.error (storeFailure (.ledger failure)))
  | .ok (some id) => fetchVersion name id
  | .ok none =>
    if set.writable then recordLatest set name
    else .done (.error (.fatal (.unrecorded (.inSet name set.deployment))))

/-- A fetch asks the ledger first. -/
theorem fetchPinned_eq (set : VariableSet) (name : String) :
    (fetchPinned set name : Program Needs (Except FetchFailure Json)) =
      .ask (.ledger (.findId set.id name) : Need) (resumePinned set name) := by
  refine congrArg (Program.ask (I := Needs) (.ledger (.findId set.id name) : Need))
    (funext fun reply => ?_)
  match reply with
  | .error failure => rfl
  | .ok (some id) => rfl
  | .ok none =>
    simp only [resumePinned, Program.translate, Program.andThen, Except.mapError,
      ExceptT.bindCont]
    cases set.writable <;> rfl

/-- A fetch through a frozen handle only reads. -/
theorem PinnedFetch.of_frozen (fetch : PinnedFetch set name transcript result)
    (frozen : set.writable = false) :
    (∃ failure, transcript = [asked (.findId set.id name) (.error failure)] ∧
        result = .error (storeFailure (.ledger failure))) ∨
      (transcript = [asked (.findId set.id name) (.ok none)] ∧
        result = .error (.fatal (.unrecorded (.inSet name set.deployment)))) ∨
      ∃ id outcome, transcript =
          [asked (.findId set.id name) (.ok (some id)), called (.getById id) outcome] ∧
        result = readVersion name id outcome := by
  cases fetch with
  | unread => exact .inl ⟨_, rfl, rfl⟩
  | unrecorded => exact .inr (.inl ⟨rfl, rfl⟩)
  | pinned => exact .inr (.inr ⟨_, _, rfl, rfl⟩)
  | unknown writable => cases writable.symm.trans frozen
  | refused writable => cases writable.symm.trans frozen
  | recorded writable => cases writable.symm.trans frozen
  | overtaken writable => cases writable.symm.trans frozen

theorem readVersion_eq_ok_iff {id : VariableId} {outcome : Outcome} {value : Json} :
    readVersion name id outcome = .ok value ↔
      ∃ found, Client.readById name id outcome = .ok found ∧ found.value = value := by
  rw [readVersion]
  cases Client.readById name id outcome with
  | error => exact ⟨nofun, nofun⟩
  | ok found =>
    constructor
    · intro read
      exact ⟨found, rfl, Except.ok.inj read⟩
    · rintro ⟨_, same, rfl⟩
      cases same
      rfl

/-- A lookup reads a value where its exchange reports it. -/
theorem readVersion_iff_reports {id : VariableId} {outcome : Outcome} {value : Json} :
    readVersion name id outcome = .ok value ↔ Reports (called (.getById id) outcome) id value := by
  rw [readVersion_eq_ok_iff]
  constructor
  · rintro ⟨found, read, rfl⟩
    exact .version read
  · intro reports
    cases reports with
    | version read => exact Client.readById_rename read name

/-- A fetch that brings a value leaves a version for its name in the set, and the value
is one that was reported for this version. -/
theorem PinnedFetch.exists_recorded {faulty : Prop} {before after : Ledger} {value : Json}
    (fetch : PinnedFetch set name transcript (.ok value))
    (served : Served faulty before transcript after) :
    ∃ id, after.idOf? set.id name = some id ∧ Reported transcript id value := by
  generalize succeeded : Except.ok value = result at fetch
  cases fetch with
  | unread => cases succeeded
  | unrecorded => cases succeeded
  | unknown => cases succeeded
  | refused => cases succeeded
  | @pinned id outcome =>
    obtain ⟨_, _, _, answered, rest⟩ := served.exists_answered
    obtain ⟨found, rfl⟩ := answered.findId
    exact ⟨id, (Served.later rest).idOf?_eq_some found, _, by simp,
      readVersion_iff_reports.mp succeeded.symm⟩
  | recorded writable read adding =>
    cases succeeded
    obtain ⟨_, _, _, _, served⟩ := served.exists_answered
    obtain ⟨_, _, _, _, served⟩ := served.exists_answered
    exact ⟨_, adding.recorded served, _, by simp, .latest read⟩
  | @overtaken writable outcome other latest added id read adding different =>
    obtain ⟨_, _, _, _, served⟩ := served.exists_answered
    obtain ⟨_, _, _, _, served⟩ := served.exists_answered
    obtain ⟨_, served, rest⟩ := served.exists_between
    exact ⟨id, (Served.later rest).idOf?_eq_some (adding.recorded served), _, by simp,
      readVersion_iff_reports.mp succeeded.symm⟩

/-- A fetch of a name that the set has asks for the version of the set and for nothing
else. -/
theorem PinnedFetch.of_held {before after : Ledger} {id : VariableId}
    (fetch : PinnedFetch set name transcript result)
    (served : Served False before transcript after) (held : before.idOf? set.id name = some id) :
    ∃ outcome, transcript =
        [asked (.findId set.id name) (.ok (some id)), called (.getById id) outcome] ∧
      result = readVersion name id outcome := by
  have finds {reply : Except LedgerError (Option VariableId)} {rest : List (Exchange Needs)}
      (served : Served False before (asked (.findId set.id name) reply :: rest) after) :
      reply = .ok (some id) := by
    obtain ⟨_, _, waited, answered, _⟩ := served.exists_answered
    rw [answered.reply_of_findId, (Served.later waited).idOf?_eq_some held]
  cases fetch with
  | unread => exact nomatch finds served
  | unrecorded => exact nomatch finds served
  | unknown => exact nomatch finds served
  | refused => exact nomatch finds served
  | recorded => exact nomatch finds served
  | overtaken => exact nomatch finds served
  | @pinned other outcome =>
    obtain rfl : other = id := Option.some.inj (Except.ok.inj (finds served))
    exact ⟨outcome, rfl, rfl⟩

/-- A set of a deployment, a ledger that has recorded it, the ledger with a row and the
one in which the set is frozen. -/
def sampleSet : VariableSet := .fresh ⟨"set-1"⟩ "o"

def sampleLedger : Ledger := Ledger.empty.save sampleSet

def recordedLedger : Ledger :=
  { sampleLedger with rows := [(⟨"set-1"⟩, [⟨⟨"set-1"⟩, "/d/o/pw", "1", none⟩])] }

def frozenLedger : Ledger :=
  ((Store.freeze sampleSet true).run Ledger.respond recordedLedger).2

/-- One version of a name, and a newer one. -/
def sampleVersions : Versions := (Versions.store [] "/d/o/pw" (.str "old") .null).2

def newerVersions : Versions := (sampleVersions.store "/d/o/pw" (.str "new") .null).2

/-- The outcomes of asking for the latest version before and after there was a newer one,
and for the older one by its id. -/
def latestOutcome : Outcome := .ok (Versions.respond (.get "/d/o/pw") sampleVersions).1

def newerOutcome : Outcome := .ok (Versions.respond (.get "/d/o/pw") newerVersions).1

def versionOutcome : Outcome := .ok (Versions.respond (.getById "1") newerVersions).1

theorem readByName_latestOutcome :
    Client.readByName "/d/o/pw" latestOutcome = .ok ⟨"1", "/d/o/pw", .str "old"⟩ := by
  cbv

theorem readById_versionOutcome :
    Client.readById "/d/o/pw" "1" versionOutcome = .ok ⟨"1", "/d/o/pw", .str "old"⟩ := by
  cbv

theorem readByName_newerOutcome :
    Client.readByName "/d/o/pw" newerOutcome = .ok ⟨"2", "/d/o/pw", .str "new"⟩ := by
  cbv

theorem readVersion_versionOutcome :
    readVersion "/d/o/pw" "1" versionOutcome = .ok (.str "old") :=
  readVersion_eq_ok_iff.mpr ⟨_, readById_versionOutcome, rfl⟩

end ManifestVariables.Interpolation
