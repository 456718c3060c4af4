import ManifestVariables.Proofs.Ledger.Register

/-!
# A ledger keeps what it was told

Whatever was asked of a ledger that was empty at first, its tables stand for a
register, and every further query has the answer of this register
(`Ledger.after_refines_register`). The theorem spells out what this comes to.
`Ledger.Kept` says what the tables hold after some queries, told by the queries alone,
and `Ledger.Serving` how the ledger then answers and what it lets a query change.
-/

namespace ManifestVariables.Ledger

variable {ledger : Ledger} {register : Register} {queries : List Query} {id : SetId}
  {name : String}

/-- Every sequence of queries keeps the tables in step with the register. -/
theorem represents_after (queries : List Query) :
    Represents (Ledger.empty.after queries) (Register.empty.after queries) := by
  induction queries using List.reverseRecOn with
  | nil => exact .empty
  | append_singleton queries query ih =>
    rw [after_concat, Register.after_concat]
    exact (ih.respond query).2

/-- What the tables of a ledger hold after some queries. -/
structure Kept (queries : List Query) (ledger : Ledger) : Prop where
  /-- The sets are listed in the order of their first saves. -/
  order : ledger.order = firstSaved queries
  order_nodup : ledger.order.Nodup
  mem_order_iff : ∀ id, id ∈ ledger.order ↔ id ∈ Keyed.keys ledger.sets
  /-- Under each identity stands what was saved last. -/
  recorded : ∀ id, Keyed.get? ledger.sets id = lastSaved? queries id
  /-- Rows belong to a set that is recorded, and have different names. -/
  rows : ∀ id rows, Keyed.get? ledger.rows id = some rows →
    id ∈ Keyed.keys ledger.sets ∧ (∀ row ∈ rows, row.set = id) ∧
      (rows.map Association.name).Nodup

/-- How a ledger answers after some queries, and what a query may change. -/
structure Serving (queries : List Query) (ledger : Ledger) : Prop where
  /-- The sets whose last record has the deployment, each once, the first saved one last. -/
  findSets : ∀ deployment, ∃ sets : List VariableSet,
    respond (.findSets deployment) ledger = (.ok sets, ledger) ∧
    (∀ set, set ∈ sets ↔
      lastSaved? queries set.id = some set ∧ set.deployment = deployment) ∧
    (sets.map VariableSet.id).Nodup ∧
    (sets.map VariableSet.id).Sublist (firstSaved queries).reverse
  /-- The version in the only row of the name. -/
  findId : ∀ id name, ∃ found : Option VariableId,
    respond (.findId id name) ledger = (.ok found, ledger) ∧
    ∀ version, found = some version ↔
      ∃ row ∈ ledger.rowsOf id, row.name = name ∧ row.id = version ∧
        ∀ other ∈ ledger.rowsOf id, other.name = name → other = row
  insert_unknown : ∀ row, row.set ∉ Keyed.keys ledger.sets →
    respond (.insert row) ledger =
      (.error (.notFound s!"variable set {row.set.text}"), ledger)
  insert_held : ∀ row, row.set ∈ Keyed.keys ledger.sets →
    row.name ∈ (ledger.rowsOf row.set).map Association.name →
    respond (.insert row) ledger =
      (.error (.uniqueViolation
        s!"variable '{row.name}' already associated with set {row.set.text}"), ledger)
  /-- An added row stands behind the other rows of its set, and all else is as it was. -/
  insert_new : ∀ row, row.set ∈ Keyed.keys ledger.sets →
    row.name ∉ (ledger.rowsOf row.set).map Association.name →
    ∃ next, respond (.insert row) ledger = (.ok (), next) ∧
      next.sets = ledger.sets ∧ next.order = ledger.order ∧
      Keyed.get? next.rows row.set = some (ledger.rowsOf row.set ++ [row]) ∧
      ∀ id, id ≠ row.set → Keyed.get? next.rows id = Keyed.get? ledger.rows id
  /-- No row is ever changed or taken away. -/
  rows_stay : ∀ query id, ledger.rowsOf id <+: (respond query ledger).2.rowsOf id

/-- The rows of a set are rows of this set under different names. -/
theorem own_and_nodup_of_represents (represents : Represents ledger register) (id : SetId) :
    (∀ row ∈ ledger.rowsOf id, row.set = id) ∧
      ((ledger.rowsOf id).map Association.name).Nodup := by
  rw [represents.rows]
  cases found : register.lookup? id with
  | none => exact ⟨fun _ member => (nomatch member), .nil⟩
  | some entry =>
    obtain rfl := Register.id_of_lookup? found
    exact ⟨entry.own, entry.distinct⟩

theorem kept_after (queries : List Query) : Kept queries (Ledger.empty.after queries) := by
  have represents := represents_after queries
  constructor
  case order => exact order_after queries
  case order_nodup =>
    rw [represents.order]
    exact (Register.empty.after queries).distinct
  case mem_order_iff =>
    intro id
    rw [represents.order, Keyed.mem_keys_iff, represents.contains_iff]
  case recorded =>
    intro id
    rw [get?_after]
    exact Option.or_none
  case rows =>
    intro id rows held
    have known := represents.known id (by rw [Keyed.contains, held]; rfl)
    have same : (Ledger.empty.after queries).rowsOf id = rows := by rw [rowsOf, held]; rfl
    refine ⟨Keyed.mem_keys_iff.mpr ((represents.contains_iff id).mpr known), ?_⟩
    rw [← same]
    exact own_and_nodup_of_represents represents id

/-- A deployment has the sets that were last saved with it. -/
theorem mem_setsOf_after_iff {deployment : String} {set : VariableSet} :
    set ∈ (Ledger.empty.after queries).setsOf deployment ↔
      lastSaved? queries set.id = some set ∧ set.deployment = deployment := by
  have kept := kept_after queries
  simp only [setsOf, List.mem_filter, List.mem_filterMap, List.mem_reverse, decide_eq_true_eq,
    kept.recorded, kept.order]
  refine and_congr_left fun _ => ⟨?_, ?_⟩
  · rintro ⟨id, _, saved⟩
    obtain rfl := id_of_lastSaved? saved
    exact saved
  · intro saved
    exact ⟨set.id, mem_firstSaved_iff.mpr (by rw [saved]; rfl), saved⟩

/-- The sets of a deployment are listed as they were first saved, the newest first. -/
theorem setsOf_after_sublist (queries : List Query) (deployment : String) :
    (((Ledger.empty.after queries).setsOf deployment).map VariableSet.id).Sublist
      (firstSaved queries).reverse := by
  have represents := represents_after queries
  rw [← order_after, represents.order, represents.setsOf_eq, Register.ids, ← List.map_reverse,
    ← List.map_reverse, show Entry.id = VariableSet.id ∘ Entry.set from rfl, ← List.map_map]
  exact List.filter_sublist.map VariableSet.id

/-- Where the names of rows differ, the version of a name stands in its only row. -/
theorem idOf?_eq_some_iff {version : VariableId}
    (distinct : ((ledger.rowsOf id).map Association.name).Nodup) :
    ledger.idOf? id name = some version ↔
      ∃ row ∈ ledger.rowsOf id, row.name = name ∧ row.id = version ∧
        ∀ other ∈ ledger.rowsOf id, other.name = name → other = row := by
  have only {row other : Association} (member : row ∈ ledger.rowsOf id)
      (among : other ∈ ledger.rowsOf id) (same : other.name = row.name) : other = row :=
    List.inj_on_of_nodup_map distinct among member same
  rw [idOf?, Option.map_eq_some_iff]
  constructor
  · rintro ⟨row, found, rfl⟩
    have member := List.mem_of_find?_eq_some found
    have named : row.name = name := by simpa using List.find?_some found
    exact ⟨row, member, named, rfl,
      fun other among same => only member among (same.trans named.symm)⟩
  · rintro ⟨row, member, rfl, rfl, _⟩
    cases found : (ledger.rowsOf id).find? fun other => other.name = row.name with
    | none => exact absurd (List.find?_eq_none.mp found row member) (by simp)
    | some other =>
      have named : other.name = row.name := by simpa using List.find?_some found
      exact ⟨other, rfl, congrArg _ (only member (List.mem_of_find?_eq_some found) named)⟩

theorem serving_after (queries : List Query) : Serving queries (Ledger.empty.after queries) := by
  have kept := kept_after queries
  have represents := represents_after queries
  have recorded_iff {id : SetId} : id ∈ Keyed.keys (Ledger.empty.after queries).sets ↔
      Keyed.contains (Ledger.empty.after queries).sets id = true := Keyed.mem_keys_iff
  constructor
  case findSets =>
    intro deployment
    have listed := setsOf_after_sublist queries deployment
    have distinct := kept.order ▸ kept.order_nodup
    exact ⟨_, rfl, fun set => mem_setsOf_after_iff,
      listed.nodup (List.nodup_reverse.mpr distinct), listed⟩
  case findId =>
    intro id name
    exact ⟨_, rfl, fun version => idOf?_eq_some_iff (own_and_nodup_of_represents represents id).2⟩
  case insert_unknown =>
    intro row unknown
    have missing := Bool.eq_false_iff.mpr (mt recorded_iff.mpr unknown)
    rw [respond, insert_of_unknown missing]
  case insert_held =>
    intro row known held
    rw [respond, insert_of_held (recorded_iff.mp known) held]
  case insert_new =>
    intro row known new
    rw [respond, insert_of_new (recorded_iff.mp known) new]
    exact ⟨_, rfl, rfl, rfl, Keyed.get?_put_self _ _ _,
      fun id other => Keyed.get?_put_of_ne other _ _⟩
  case rows_stay => exact fun query id => rowsOf_prefix_respond query _ id

/-- Whatever was asked of an empty ledger, its tables stand for the register that was asked
the same, every query has the same answer from both, and the tables hold and serve what
the queries say. -/
theorem after_refines_register (queries : List Query) :
    Represents (Ledger.empty.after queries) (Register.empty.after queries) ∧
      (∀ query, (respond query (Ledger.empty.after queries)).1 =
        ((Register.empty.after queries).respond query).1) ∧
      Kept queries (Ledger.empty.after queries) ∧
      Serving queries (Ledger.empty.after queries) := by
  have represents := represents_after queries
  exact ⟨represents, fun query => (represents.respond query).1, kept_after queries,
    serving_after queries⟩

end ManifestVariables.Ledger
