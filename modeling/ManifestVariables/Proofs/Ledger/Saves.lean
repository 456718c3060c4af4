import Mathlib.Data.List.Induction
import ManifestVariables.Proofs.Keyed
import ManifestVariables.Proofs.Ledger.Rows

/-!
# What was saved last

The sets of a ledger are told by what was asked of it: under each identity stands the
set that was saved last (`Ledger.get?_after`), and the identities are listed in the
order in which they were first saved (`Ledger.order_after`). Queries that save nothing
make no difference to either.
-/

namespace ManifestVariables

namespace Ledger

variable {ledger : Ledger} {query : Query} {queries : List Query} {set : VariableSet}
  {id : SetId}

theorem get?_save (ledger : Ledger) (set : VariableSet) (id : SetId) :
    Keyed.get? (ledger.save set).sets id =
      if id = set.id then some set else Keyed.get? ledger.sets id := by
  by_cases same : id = set.id
  · subst same
    simp [save]
  · rw [if_neg same]
    exact Keyed.get?_put_of_ne same _ _

/-- The set that a query saves. -/
def Query.saved? : Query → Option VariableSet
  | saveSet set => some set
  | _ => none

theorem Query.saved?_eq_some_iff : query.saved? = some set ↔ query = .saveSet set := by
  cases query <;> simp [saved?]

/-- A query that saves nothing leaves all sets in their places. -/
theorem respond_of_saved?_eq_none (unsaved : query.saved? = none) (ledger : Ledger) :
    (respond query ledger).2.sets = ledger.sets ∧
      (respond query ledger).2.order = ledger.order := by
  cases query with
  | saveSet set => cases unsaved
  | insert row =>
    rw [respond]
    split
    next next inserted =>
      obtain ⟨_, _, rfl⟩ := insert_eq_ok_iff.mp inserted
      exact ⟨rfl, rfl⟩
    · exact ⟨rfl, rfl⟩
  | findSet id => exact ⟨rfl, rfl⟩
  | findSets deployment => exact ⟨rfl, rfl⟩
  | findId set name => exact ⟨rfl, rfl⟩
  | findRows set => exact ⟨rfl, rfl⟩

/-- The ledger once some queries were asked. -/
def after (ledger : Ledger) (queries : List Query) : Ledger :=
  queries.foldl (fun ledger query => (respond query ledger).2) ledger

theorem after_append (ledger : Ledger) (first second : List Query) :
    ledger.after (first ++ second) = (ledger.after first).after second :=
  List.foldl_append

theorem after_concat (ledger : Ledger) (queries : List Query) (query : Query) :
    ledger.after (queries ++ [query]) = (respond query (ledger.after queries)).2 :=
  after_append ledger queries [query]

/-- The sets that some queries save, in order. -/
def saves (queries : List Query) : List VariableSet :=
  queries.filterMap Query.saved?

/-- What some queries save last under an identity. -/
def lastSaved? (queries : List Query) (id : SetId) : Option VariableSet :=
  (saves queries).reverse.find? fun set => set.id = id

/-- The identities under which some queries save a set, in the order of their first
saves. -/
def firstSaved (queries : List Query) : List SetId :=
  ((saves queries).map VariableSet.id).eraseDups

theorem saves_concat (queries : List Query) (query : Query) :
    saves (queries ++ [query]) = saves queries ++ query.saved?.toList := by
  rw [saves, List.filterMap_append]
  cases found : query.saved? <;> simp [saves, found]

theorem lastSaved?_concat_saveSet (queries : List Query) (set : VariableSet) (id : SetId) :
    lastSaved? (queries ++ [.saveSet set]) id =
      if id = set.id then some set else lastSaved? queries id := by
  rw [lastSaved?, saves_concat, List.reverse_append, List.find?_append]
  by_cases same : id = set.id
  · simp [Query.saved?, same]
  · simp [Query.saved?, same, Ne.symm same, lastSaved?]

theorem lastSaved?_concat_of_unsaved (unsaved : query.saved? = none) (queries : List Query)
    (id : SetId) : lastSaved? (queries ++ [query]) id = lastSaved? queries id := by
  rw [lastSaved?, saves_concat, unsaved, Option.toList_none, List.append_nil]
  rfl

theorem lastSaved?_append (first second : List Query) (id : SetId) :
    lastSaved? (first ++ second) id = (lastSaved? second id).or (lastSaved? first id) := by
  rw [lastSaved?, saves, List.filterMap_append, List.reverse_append, List.find?_append]
  rfl

theorem id_of_lastSaved? (saved : lastSaved? queries id = some set) : set.id = id := by
  simpa using List.find?_some saved

theorem mem_of_lastSaved? (saved : lastSaved? queries id = some set) :
    .saveSet set ∈ queries := by
  have listed : set ∈ saves queries := by simpa using List.mem_of_find?_eq_some saved
  obtain ⟨query, member, same⟩ := List.mem_filterMap.mp listed
  rwa [Query.saved?_eq_some_iff.mp same] at member

/-- A set that is saved is saved last, or another is saved after it. -/
theorem exists_lastSaved?_of_mem (member : .saveSet set ∈ queries) :
    ∃ last, lastSaved? queries set.id = some last := by
  have listed : set ∈ (saves queries).reverse :=
    List.mem_reverse.mpr (List.mem_filterMap.mpr ⟨_, member, rfl⟩)
  exact Option.isSome_iff_exists.mp (List.find?_isSome.mpr ⟨set, listed, by simp⟩)

/-- Under each identity stands what was saved last, or what stood there before. -/
theorem get?_after (ledger : Ledger) (queries : List Query) (id : SetId) :
    Keyed.get? (ledger.after queries).sets id =
      (lastSaved? queries id).or (Keyed.get? ledger.sets id) := by
  induction queries using List.reverseRecOn with
  | nil => rfl
  | append_singleton queries query ih =>
    rw [after_concat]
    cases saved : query.saved? with
    | none => rw [(respond_of_saved?_eq_none saved _).1, lastSaved?_concat_of_unsaved saved, ih]
    | some set =>
      obtain rfl := Query.saved?_eq_some_iff.mp saved
      rw [respond, get?_save, lastSaved?_concat_saveSet, ih]
      split <;> rfl

theorem mem_firstSaved_iff :
    id ∈ firstSaved queries ↔ (lastSaved? queries id).isSome = true := by
  simp [firstSaved, lastSaved?, List.mem_eraseDups]

theorem firstSaved_concat_saveSet (queries : List Query) (set : VariableSet) :
    firstSaved (queries ++ [.saveSet set]) =
      if set.id ∈ firstSaved queries then firstSaved queries
      else firstSaved queries ++ [set.id] := by
  simp only [firstSaved, saves_concat, List.map_append, List.eraseDups_append, List.mem_eraseDups]
  generalize (saves queries).map VariableSet.id = ids
  by_cases known : set.id ∈ ids <;>
    simp [Query.saved?, List.removeAll, known, List.eraseDups_cons]

theorem firstSaved_concat_of_unsaved (unsaved : query.saved? = none) (queries : List Query) :
    firstSaved (queries ++ [query]) = firstSaved queries := by
  rw [firstSaved, saves_concat, unsaved, Option.toList_none, List.append_nil]
  rfl

/-- The sets of a ledger that was empty are listed in the order of their first saves. -/
theorem order_after (queries : List Query) : (empty.after queries).order = firstSaved queries := by
  induction queries using List.reverseRecOn with
  | nil => rfl
  | append_singleton queries query ih =>
    rw [after_concat]
    cases saved : query.saved? with
    | none => rw [(respond_of_saved?_eq_none saved _).2, firstSaved_concat_of_unsaved saved, ih]
    | some set =>
      obtain rfl := Query.saved?_eq_some_iff.mp saved
      have known : Keyed.contains (empty.after queries).sets set.id = true ↔
          set.id ∈ firstSaved queries := by
        rw [Keyed.contains, get?_after, mem_firstSaved_iff]
        simp [empty, Keyed.get?]
      rw [respond, save, firstSaved_concat_saveSet, ih]
      simp only [known]

end Ledger

end ManifestVariables
