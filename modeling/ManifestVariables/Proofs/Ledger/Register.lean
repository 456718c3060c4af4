import Mathlib.Data.List.Nodup
import ManifestVariables.Proofs.Ledger.Saves

/-!
# The ledger as a register

A ledger is kept in three tables: the sets, the order of their first saves, and the
rows. What it stands for is simpler. A `Register` is a list of entries, one for each
set in the order in which the sets were first saved, and an entry is the last record
of its set with the rows of this set, whose names differ. The types say all of this,
so no operation of a register can break it. `Represents.respond` says that a query
keeps the tables in step with the register and has the same answer from both.
-/

namespace ManifestVariables

open Ledger (Query)

/-- A set as it was saved last, with its rows. -/
structure Entry where
  set : VariableSet
  rows : List Association
  own : ∀ row ∈ rows, row.set = set.id
  distinct : (rows.map Association.name).Nodup

namespace Entry

/-- The identity of the set. -/
def id (entry : Entry) : SetId :=
  entry.set.id

/-- A set without rows. -/
def ofSet (set : VariableSet) : Entry :=
  ⟨set, [], fun _ member => (nomatch member), .nil⟩

/-- The names that have a row. -/
def names (entry : Entry) : List String :=
  entry.rows.map Association.name

/-- The row of a name. -/
def row? (entry : Entry) (name : String) : Option Association :=
  entry.rows.find? fun row => row.name = name

/-- The entry with another record of its set; a set of another identity has no place
in it. -/
def record (set : VariableSet) (entry : Entry) : Entry :=
  if same : set.id = entry.set.id then { entry with set, own := same ▸ entry.own } else entry

/-- The entry with a row behind its other rows, if the row is one of its set under a new
name. -/
def add (row : Association) (entry : Entry) : Entry :=
  if fits : row.set = entry.set.id ∧ row.name ∉ entry.names then
    { entry with
      rows := entry.rows ++ [row]
      own := by
        intro other member
        rcases List.mem_append.mp member with held | new
        · exact entry.own other held
        · exact List.mem_singleton.mp new ▸ fits.1
      distinct := by
        rw [List.map_append, List.map_singleton, ← List.concat_eq_append]
        exact .concat fits.2 entry.distinct }
  else entry

@[simp] theorem id_record (set : VariableSet) (entry : Entry) :
    (record set entry).id = entry.id := by
  unfold record
  split
  next same => exact same
  · rfl

@[simp] theorem id_add (row : Association) (entry : Entry) : (add row entry).id = entry.id := by
  unfold add
  split <;> rfl

theorem set_record {set : VariableSet} {entry : Entry} :
    (record set entry).set = if set.id = entry.id then set else entry.set := by
  unfold record
  split
  next same => exact (if_pos same).symm
  next different => exact (if_neg different).symm

theorem rows_record (set : VariableSet) (entry : Entry) : (record set entry).rows = entry.rows := by
  unfold record
  split <;> rfl

theorem set_add (row : Association) (entry : Entry) : (add row entry).set = entry.set := by
  unfold add
  split <;> rfl

theorem rows_add {row : Association} {entry : Entry} :
    (add row entry).rows =
      if row.set = entry.id ∧ row.name ∉ entry.names then entry.rows ++ [row] else entry.rows := by
  unfold add
  split
  next fits => exact (if_pos fits).symm
  next unfit => exact (if_neg unfit).symm

end Entry

/-- Sets in the order in which they were first saved, each once. -/
structure Register where
  entries : List Entry
  distinct : (entries.map Entry.id).Nodup

namespace Register

/-- A register without sets. -/
def empty : Register :=
  ⟨[], .nil⟩

/-- The identities of the sets. -/
def ids (register : Register) : List SetId :=
  register.entries.map Entry.id

/-- The entry of a set. -/
def lookup? (register : Register) (id : SetId) : Option Entry :=
  register.entries.find? fun entry => entry.id = id

/-- The register with its entries changed, none of which comes to be about another set. -/
def change (register : Register) (next : Entry → Entry)
    (keeps : ∀ entry, (next entry).id = entry.id) : Register where
  entries := register.entries.map next
  distinct := by
    rw [List.map_map, show Entry.id ∘ next = Entry.id from funext keeps]
    exact register.distinct

/-- The register with a set saved: in the place of its earlier record, or else behind all
others. -/
def save (register : Register) (set : VariableSet) : Register :=
  if known : set.id ∈ register.ids then register.change (Entry.record set) (Entry.id_record set)
  else
    { entries := register.entries ++ [.ofSet set]
      distinct := by
        rw [List.map_append, List.map_singleton, ← List.concat_eq_append]
        exact .concat known register.distinct }

/-- The register with a row added, or why it cannot be. -/
def insert (register : Register) (row : Association) : Except LedgerError Register :=
  match register.lookup? row.set with
  | none => .error (.notFound s!"variable set {row.set.text}")
  | some entry =>
    if row.name ∈ entry.names then
      .error (.uniqueViolation
        s!"variable '{row.name}' already associated with set {row.set.text}")
    else .ok (register.change (Entry.add row) (Entry.id_add row))

/-- Answers a query from the register. -/
def respond (query : Query) (register : Register) : Except LedgerError query.Result × Register :=
  match query with
  | .saveSet set => (.ok (), register.save set)
  | .findSet id => (.ok ((register.lookup? id).map Entry.set), register)
  | .findSets deployment =>
    (.ok ((register.entries.map Entry.set).reverse.filter fun set => set.deployment = deployment),
      register)
  | .insert row =>
    match register.insert row with
    | .ok next => (.ok (), next)
    | .error failure => (.error failure, register)
  | .findId id name =>
    (.ok (((register.lookup? id).bind fun entry => entry.row? name).map Association.id), register)
  | .findRows id => (.ok (((register.lookup? id).map Entry.rows).getD []), register)

/-- The register once some queries were asked. -/
def after (register : Register) (queries : List Query) : Register :=
  queries.foldl (fun register query => (respond query register).2) register

theorem after_concat (register : Register) (queries : List Query) (query : Query) :
    register.after (queries ++ [query]) = (respond query (register.after queries)).2 :=
  List.foldl_append

variable {register : Register} {set : VariableSet} {entry : Entry} {id : SetId}

theorem id_of_lookup? (found : register.lookup? id = some entry) : entry.id = id := by
  simpa using List.find?_some found

theorem mem_ids_iff : id ∈ register.ids ↔ (register.lookup? id).isSome = true := by
  simp [ids, lookup?, List.mem_map]

theorem lookup?_eq_none_iff : register.lookup? id = none ↔ id ∉ register.ids := by
  rw [mem_ids_iff, Option.isSome_iff_ne_none, not_not]

/-- An entry of the register is the one under its identity. -/
theorem lookup?_of_mem (member : entry ∈ register.entries) :
    register.lookup? entry.id = some entry := by
  obtain ⟨found, here⟩ := Option.isSome_iff_exists.mp
    (mem_ids_iff.mp (List.mem_map_of_mem (f := Entry.id) member))
  have same : found = entry :=
    List.inj_on_of_nodup_map register.distinct (List.mem_of_find?_eq_some here) member
      (id_of_lookup? here)
  rw [here, same]

@[simp] theorem ids_change (next : Entry → Entry) (keeps : ∀ entry, (next entry).id = entry.id) :
    (register.change next keeps).ids = register.ids := by
  rw [ids, change, List.map_map, show Entry.id ∘ next = Entry.id from funext keeps]
  rfl

theorem lookup?_change (next : Entry → Entry) (keeps : ∀ entry, (next entry).id = entry.id)
    (id : SetId) : (register.change next keeps).lookup? id = (register.lookup? id).map next := by
  simp only [lookup?, change, List.find?_map, Function.comp_def, keeps]

/-- A row that fits stands behind the rows of its set, and no other set has other rows. -/
theorem rows_lookup?_change_add {row : Association}
    (found : register.lookup? row.set = some entry) (new : row.name ∉ entry.names) (id : SetId) :
    (((register.change (Entry.add row) (Entry.id_add row)).lookup? id).map Entry.rows).getD [] =
      if id = row.set then entry.rows ++ [row]
      else ((register.lookup? id).map Entry.rows).getD [] := by
  rw [lookup?_change]
  by_cases same : id = row.set
  · subst same
    have fits : row.set = entry.id ∧ row.name ∉ entry.names := ⟨(id_of_lookup? found).symm, new⟩
    simp only [found, Option.map_some, Option.getD_some, Entry.rows_add, if_pos fits, if_true]
  · rw [if_neg same]
    cases other : register.lookup? id with
    | none => rfl
    | some entry =>
      have apart : ¬ (row.set = entry.id ∧ row.name ∉ entry.names) := fun fits =>
        same ((id_of_lookup? other).symm.trans fits.1.symm)
      simp only [Option.map_some, Option.getD_some, Entry.rows_add, if_neg apart]

theorem ids_save (register : Register) (set : VariableSet) :
    (register.save set).ids =
      if set.id ∈ register.ids then register.ids else register.ids ++ [set.id] := by
  unfold save
  split
  next known => rw [ids_change]
  next new =>
    rw [ids, List.map_append]
    rfl

/-- A saved set is recorded with the rows that it had. -/
theorem lookup?_save_self (register : Register) (set : VariableSet) :
    ∃ entry, (register.save set).lookup? set.id = some entry ∧ entry.set = set ∧
      entry.rows = ((register.lookup? set.id).map Entry.rows).getD [] := by
  unfold save
  split
  next known =>
    obtain ⟨entry, found⟩ := Option.isSome_iff_exists.mp (mem_ids_iff.mp known)
    refine ⟨entry.record set, by rw [lookup?_change, found, Option.map_some], ?_, ?_⟩
    · rw [Entry.set_record, if_pos (id_of_lookup? found).symm]
    · rw [Entry.rows_record, found]
      rfl
  next new =>
    refine ⟨.ofSet set, ?_, rfl, ?_⟩
    · rw [lookup?, List.find?_append, show register.entries.find? _ = none from
        lookup?_eq_none_iff.mpr new]
      simp [Entry.ofSet, Entry.id]
    · rw [lookup?_eq_none_iff.mpr new]
      rfl

/-- A saved set changes no other entry. -/
theorem lookup?_save_of_ne (different : id ≠ set.id) :
    (register.save set).lookup? id = register.lookup? id := by
  unfold save
  split
  next known =>
    rw [lookup?_change]
    cases found : register.lookup? id with
    | none => rfl
    | some entry =>
      have apart : set.id ≠ entry.set.id := fun same =>
        different ((id_of_lookup? found).symm.trans same.symm)
      rw [Option.map_some, Entry.record, dif_neg apart]
  next new =>
    rw [lookup?, List.find?_append]
    simp [Entry.ofSet, Entry.id, different.symm, lookup?]

end Register

/-- The tables of a ledger stand for a register. -/
structure Represents (ledger : Ledger) (register : Register) : Prop where
  order : ledger.order = register.ids
  sets : ∀ id, Keyed.get? ledger.sets id = (register.lookup? id).map Entry.set
  rows : ∀ id, ledger.rowsOf id = ((register.lookup? id).map Entry.rows).getD []
  known : ∀ id, Keyed.contains ledger.rows id = true → id ∈ register.ids

namespace Represents

variable {ledger : Ledger} {register : Register} {set : VariableSet} {row : Association}

theorem empty : Represents Ledger.empty Register.empty :=
  ⟨rfl, fun _ => rfl, fun _ => rfl, nofun⟩

theorem contains_iff (represents : Represents ledger register) (id : SetId) :
    Keyed.contains ledger.sets id = true ↔ id ∈ register.ids := by
  rw [Keyed.contains, represents.sets, Option.isSome_map, Register.mem_ids_iff]

theorem setsOf_eq (represents : Represents ledger register) (deployment : String) :
    ledger.setsOf deployment =
      (register.entries.map Entry.set).reverse.filter fun set => set.deployment = deployment := by
  have listed : register.entries.filterMap (fun entry => Keyed.get? ledger.sets entry.id) =
      register.entries.map Entry.set := by
    rw [← List.filterMap_eq_map]
    refine List.filterMap_congr fun entry member => ?_
    rw [represents.sets, Register.lookup?_of_mem member]
    rfl
  rw [Ledger.setsOf, represents.order, Register.ids, ← List.map_reverse, List.filterMap_map,
    List.filterMap_reverse]
  exact congrArg (fun sets => List.filter _ (List.reverse sets)) listed

theorem save (represents : Represents ledger register) (set : VariableSet) :
    Represents (ledger.save set) (register.save set) := by
  obtain ⟨entry, here, recorded, rows⟩ := Register.lookup?_save_self register set
  refine ⟨?_, ?_, ?_, ?_⟩
  · rw [Register.ids_save, ← represents.order]
    simp only [Ledger.save, represents.contains_iff, represents.order]
  · intro id
    rw [Ledger.get?_save]
    by_cases same : id = set.id
    · subst same
      rw [if_pos rfl, here, Option.map_some, recorded]
    · rw [if_neg same, Register.lookup?_save_of_ne same, represents.sets]
  · intro id
    refine (represents.rows id).trans ?_
    by_cases same : id = set.id
    · subst same
      rw [here, Option.map_some, Option.getD_some, rows]
    · rw [Register.lookup?_save_of_ne same]
  · intro id held
    rw [Register.ids_save]
    split
    · exact represents.known id held
    · exact List.mem_append_left _ (represents.known id held)

/-- A row that the ledger takes is one more row of the register. -/
theorem add {entry : Entry} {next : Ledger} (represents : Represents ledger register)
    (found : register.lookup? row.set = some entry) (new : row.name ∉ entry.names)
    (inserted : ledger.insert row = .ok next) :
    Represents next (register.change (Entry.add row) (Entry.id_add row)) := by
  have rows (id : SetId) := (Ledger.rowsOf_insert inserted id).trans
    (congrArg (fun rows => if id = row.set then rows ++ [row] else rows) (represents.rows id))
  obtain ⟨_, _, rfl⟩ := Ledger.insert_eq_ok_iff.mp inserted
  refine ⟨?_, ?_, ?_, ?_⟩
  · rw [Register.ids_change]
    exact represents.order
  · intro id
    rw [Register.lookup?_change, Option.map_map,
      show Entry.set ∘ Entry.add row = Entry.set from funext (Entry.set_add row)]
    exact represents.sets id
  · intro id
    rw [rows, Register.rows_lookup?_change_add found new]
    split
    next same =>
      rw [same, found]
      rfl
    · rfl
  · intro id known
    rw [Register.ids_change]
    by_cases same : id = row.set
    · subst same
      exact Register.mem_ids_iff.mpr (by rw [found]; rfl)
    · rw [Keyed.contains, Keyed.get?_put_of_ne same] at known
      exact represents.known id known

/-- Adding a row fails in the register for the same reason, or is one more row there. -/
theorem insert (represents : Represents ledger register) (row : Association) :
    (∃ failure, ledger.insert row = .error failure ∧ register.insert row = .error failure) ∨
      ∃ next following, ledger.insert row = .ok next ∧ register.insert row = .ok following ∧
        Represents next following := by
  cases found : register.lookup? row.set with
  | none =>
    have unknown : Keyed.contains ledger.sets row.set = false := by
      rw [← Bool.not_eq_true, represents.contains_iff]
      exact Register.lookup?_eq_none_iff.mp found
    exact .inl ⟨_, Ledger.insert_of_unknown unknown, by rw [Register.insert, found]⟩
  | some entry =>
    have recorded : Keyed.contains ledger.sets row.set = true :=
      (represents.contains_iff row.set).mpr (Register.mem_ids_iff.mpr (by rw [found]; rfl))
    have rows : ledger.rowsOf row.set = entry.rows := by
      rw [represents.rows, found]
      rfl
    by_cases held : row.name ∈ entry.names
    · exact .inl ⟨_, Ledger.insert_of_held recorded (rows ▸ held),
        by simp only [Register.insert, found, held, if_true]⟩
    · have inserted := Ledger.insert_of_new recorded (rows ▸ held)
      exact .inr ⟨_, _, inserted, by simp only [Register.insert, found, held, if_false],
        represents.add found held inserted⟩

/-- A query has the same answer from the tables and from the register that they stand for,
and keeps them in step. -/
theorem respond (represents : Represents ledger register) (query : Query) :
    (Ledger.respond query ledger).1 = (register.respond query).1 ∧
      Represents (Ledger.respond query ledger).2 (register.respond query).2 := by
  cases query with
  | saveSet set => exact ⟨rfl, represents.save set⟩
  | findSet id => exact ⟨congrArg Except.ok (represents.sets id), represents⟩
  | findSets deployment => exact ⟨congrArg Except.ok (represents.setsOf_eq deployment), represents⟩
  | insert row =>
    rcases represents.insert row with
      ⟨failure, refused, alike⟩ | ⟨next, following, added, alike, kept⟩
    · simp only [Ledger.respond, Register.respond, refused, alike]
      exact ⟨trivial, represents⟩
    · simp only [Ledger.respond, Register.respond, added, alike]
      exact ⟨trivial, kept⟩
  | findId id name =>
    refine ⟨congrArg Except.ok ?_, represents⟩
    rw [Ledger.idOf?, represents.rows]
    cases register.lookup? id <;> rfl
  | findRows id => exact ⟨congrArg Except.ok (represents.rows id), represents⟩

end Represents

end ManifestVariables
