import ManifestVariables.Ledger.Store
import ManifestVariables.Proofs.Program.Questions

/-!
# What store operations ask

An operation of the store asks allowed queries only if those are allowed that its parts ask.
Which queries these are is read off the operation here, once for every bound.
-/

namespace ManifestVariables.Store

open Program
open Ledger (Query)

variable {α : Type} {allowed : Query → Prop}

theorem asks_query {query : Query} {next : query.Result → Operation α} (here : allowed query)
    (later : ∀ result, (next result).Asks allowed) : (Store.query query next).Asks allowed := by
  refine ⟨here, fun reply => ?_⟩
  match reply with
  | .ok result => exact later result
  | .error _ => trivial

/-- To add a row, it is asked to be inserted, and perhaps for the version in its place. -/
theorem asks_insert (handle : VariableSet) {row : Association} (inserts : allowed (.insert row))
    (finds : allowed (.findId row.set row.name)) : (Store.insert handle row).Asks allowed := by
  unfold Store.insert
  split
  · trivial
  · refine ⟨inserts, fun reply => ?_⟩
    match reply with
    | .ok _ => trivial
    | .error (.notFound _) => trivial
    | .error (.database _) => trivial
    | .error (.uniqueViolation _) =>
      refine asks_query finds fun found => ?_
      match found with
      | some _ => trivial
      | none => trivial

theorem asks_firstHeld {name : String} (finds : ∀ set, allowed (.findId set name))
    (sets : List VariableSet) : (firstHeld name sets).Asks allowed := by
  induction sets with
  | nil => trivial
  | cons set rest ih =>
    refine asks_query (finds set.id) fun found => ?_
    match found with
    | none => exact ih
    | some _ => trivial

theorem asks_previousId {name : String} {set : VariableSet}
    (lists : allowed (.findSets set.deployment)) (finds : ∀ set, allowed (.findId set name)) :
    (previousId name set).Asks allowed :=
  asks_query lists fun _ => asks_firstHeld finds _

end ManifestVariables.Store
