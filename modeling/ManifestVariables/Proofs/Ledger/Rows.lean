import ManifestVariables.Ledger.Store

/-!
# Rows are for ever

A query may add one row to a ledger, and never changes or takes away another.
`Ledger.Later` relates a ledger to what any number of queries make of it, whoever
asks them and in whatever order; a run of a store operation is a case of it
(`Ledger.later_run`). So the version that a set uses for a name, once there is one,
stays the same (`Ledger.Later.idOf?_eq_some`).
-/

namespace ManifestVariables.Ledger

variable {ledger next later : Ledger} {row : Association} {id : SetId} {name : String}
  {version : VariableId}

/-- A row is added to a set that is recorded and has no row of that name. -/
theorem insert_eq_ok_iff :
    ledger.insert row = .ok next ↔
      Keyed.contains ledger.sets row.set = true ∧
        (∀ held ∈ ledger.rowsOf row.set, held.name ≠ row.name) ∧
        next = { ledger with
          rows := Keyed.put ledger.rows row.set (ledger.rowsOf row.set ++ [row]) } := by
  unfold insert
  constructor
  · intro inserted
    split at inserted
    · cases inserted
    next recorded =>
      split at inserted
      · cases inserted
      next new =>
        cases inserted
        simp only [List.any_eq_true, decide_eq_true_eq, not_exists, not_and] at new
        exact ⟨by simpa using recorded, new, rfl⟩
  · rintro ⟨recorded, new, rfl⟩
    have unheld : ((ledger.rowsOf row.set).any fun held => held.name = row.name) = false := by
      simpa using new
    simp [recorded, unheld]

theorem insert_of_unknown (unknown : Keyed.contains ledger.sets row.set = false) :
    ledger.insert row = .error (.notFound s!"variable set {row.set.text}") := by
  rw [insert, unknown]
  rfl

theorem insert_of_held (recorded : Keyed.contains ledger.sets row.set = true)
    (held : row.name ∈ (ledger.rowsOf row.set).map Association.name) :
    ledger.insert row =
      .error (.uniqueViolation
        s!"variable '{row.name}' already associated with set {row.set.text}") := by
  have among : ((ledger.rowsOf row.set).any fun other => other.name = row.name) = true := by
    simpa using held
  rw [insert, recorded, among]
  rfl

theorem insert_of_new (recorded : Keyed.contains ledger.sets row.set = true)
    (new : row.name ∉ (ledger.rowsOf row.set).map Association.name) :
    ledger.insert row =
      .ok { ledger with
        rows := Keyed.put ledger.rows row.set (ledger.rowsOf row.set ++ [row]) } :=
  insert_eq_ok_iff.mpr
    ⟨recorded, fun _ member same => new (same ▸ List.mem_map_of_mem member), rfl⟩

/-- An added row stands behind the other rows of its set. -/
theorem rowsOf_insert (inserted : ledger.insert row = .ok next) (id : SetId) :
    next.rowsOf id = if id = row.set then ledger.rowsOf id ++ [row] else ledger.rowsOf id := by
  obtain ⟨_, _, rfl⟩ := insert_eq_ok_iff.mp inserted
  by_cases same : id = row.set
  · subst same
    simp [rowsOf]
  · rw [if_neg same]
    simp only [rowsOf, Keyed.get?_put_of_ne same]

theorem sets_insert (inserted : ledger.insert row = .ok next) : next.sets = ledger.sets := by
  obtain ⟨_, _, rfl⟩ := insert_eq_ok_iff.mp inserted
  rfl

/-- An added row is the one that counts for its name. -/
theorem idOf?_insert (inserted : ledger.insert row = .ok next) :
    next.idOf? row.set row.name = some row.id := by
  obtain ⟨_, new, _⟩ := insert_eq_ok_iff.mp inserted
  have unheld : (ledger.rowsOf row.set).find? (fun held => held.name = row.name) = none := by
    simpa using new
  rw [idOf?, rowsOf_insert inserted, if_pos rfl, List.find?_append, unheld]
  simp

/-- A row is refused exactly where its name has a version. -/
theorem exists_insert_iff (recorded : Keyed.contains ledger.sets row.set = true) :
    (∃ next, ledger.insert row = .ok next) ↔ ledger.idOf? row.set row.name = none := by
  simp only [insert_eq_ok_iff, recorded, true_and, exists_and_left, exists_eq, and_true, idOf?,
    Option.map_eq_none_iff, List.find?_eq_none, decide_eq_true_eq, ne_eq]

/-- A recorded set takes a row for a name that it lacks, and refuses a second one. -/
theorem respond_insert_cases (recorded : Keyed.contains ledger.sets row.set = true) :
    (∃ next, ledger.insert row = .ok next ∧ ledger.idOf? row.set row.name = none ∧
        respond (.insert row) ledger = (.ok (), next)) ∨
      ∃ detail id, ledger.idOf? row.set row.name = some id ∧
        respond (.insert row) ledger = (.error (.uniqueViolation detail), ledger) := by
  cases held : ledger.idOf? row.set row.name with
  | none =>
    obtain ⟨next, inserted⟩ := (exists_insert_iff recorded).mpr held
    exact .inl ⟨next, inserted, rfl, by rw [respond, inserted]⟩
  | some id =>
    obtain ⟨found, first, -⟩ := Option.map_eq_some_iff.mp held
    have named : found.name = row.name := by simpa using List.find?_some first
    have among : row.name ∈ (ledger.rowsOf row.set).map Association.name :=
      named ▸ List.mem_map_of_mem (List.mem_of_find?_eq_some first)
    exact .inr ⟨_, id, rfl, by rw [respond, insert_of_held recorded among]⟩

/-- An added row makes no difference to other names. -/
theorem idOf?_insert_of_ne (inserted : ledger.insert row = .ok next) (different : name ≠ row.name)
    (id : SetId) : next.idOf? id name = ledger.idOf? id name := by
  rw [idOf?, idOf?, rowsOf_insert inserted]
  split
  · rw [List.find?_append]
    simp [Ne.symm different]
  · rfl

/-- Rows of one set are all found under it, and none under another. -/
theorem filter_owned {rows : List Association} {set : SetId} (owned : ∀ row ∈ rows, row.set = set)
    (id : SetId) : (rows.filter fun row => row.set = id) = if id = set then rows else [] := by
  split
  next same =>
    rw [List.filter_eq_self]
    intro row member
    rw [owned row member, same]
    exact decide_eq_true rfl
  next different =>
    rw [List.filter_eq_nil_iff]
    intro row member
    rw [owned row member]
    simpa using Ne.symm different

/-- A query keeps the rows of every set in their places. -/
theorem rowsOf_prefix_respond (query : Query) (ledger : Ledger) (id : SetId) :
    ledger.rowsOf id <+: (respond query ledger).2.rowsOf id := by
  cases query with
  | insert row =>
    rw [respond]
    split
    next next inserted =>
      rw [rowsOf_insert inserted]
      split
      · exact List.prefix_append _ _
      · exact List.prefix_refl _
    · exact List.prefix_refl _
  | saveSet set => exact List.prefix_refl _
  | findSet id => exact List.prefix_refl _
  | findSets deployment => exact List.prefix_refl _
  | findId set name => exact List.prefix_refl _
  | findRows set => exact List.prefix_refl _

/-- The ledgers that any number of queries can lead to. -/
inductive Later : Ledger → Ledger → Prop where
  | refl (ledger : Ledger) : Later ledger ledger
  | query {ledger later : Ledger} (query : Query) (tail : Later (respond query ledger).2 later) :
      Later ledger later

theorem Later.trans {final : Ledger} (first : Later ledger later) (second : Later later final) :
    Later ledger final := by
  induction first with
  | refl => exact second
  | query query _ ih => exact .query query (ih second)

/-- Whatever is run against a ledger leads to a later one. -/
theorem later_run {α : Type} (program : Program Access α) (ledger : Ledger) :
    Later ledger (program.run respond ledger).2 := by
  induction program generalizing ledger with
  | done => exact .refl ledger
  | ask question next ih => exact .query question (ih _ _)

/-- The rows of a set are only ever added to. -/
theorem Later.rowsOf_prefix (passed : Later ledger later) (id : SetId) :
    ledger.rowsOf id <+: later.rowsOf id := by
  induction passed with
  | refl => exact List.prefix_refl _
  | query query _ ih => exact (rowsOf_prefix_respond query _ id).trans ih

/-- The version that a set uses for a name stays the same. -/
theorem Later.idOf?_eq_some (passed : Later ledger later)
    (held : ledger.idOf? id name = some version) : later.idOf? id name = some version := by
  obtain ⟨added, rows⟩ := passed.rowsOf_prefix id
  simp only [idOf?, Option.map_eq_some_iff] at held ⊢
  obtain ⟨row, found, rfl⟩ := held
  exact ⟨row, by rw [← rows, List.find?_append, found, Option.some_or], rfl⟩

end ManifestVariables.Ledger
