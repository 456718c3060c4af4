import ManifestVariables.Ledger.Basic

/-!
# Generations of a deployment

The store gives the ledger its rules: a new deploy attempt freezes the attempts
before it, rows are only added through a set that is held as writable, and where
two writers add the same name both go on with the version that was stored first.
Each operation is a program of ledger queries. A set is passed as it was read, so
an operation may be given one that has changed in the ledger since.
-/

namespace ManifestVariables

/-- Why the store did not do what it was asked. -/
inductive StoreError where
  /-- A row was to be added through a frozen set. -/
  | frozenSet (set : SetId) (deployment name : String)
  | notFound (set : SetId)
  | ledger (error : LedgerError)
deriving DecidableEq, Repr

/-- The text shown for a store error. -/
def StoreError.message : StoreError → String
  | frozenSet set deployment name =>
    s!"Variable set '{set.text}' of deployment '{deployment}' is frozen, cannot add variable '{name}'"
  | notFound set => s!"Variable set '{set.text}' not found"
  | ledger error => error.message

namespace Store

open Ledger

/-- An operation of the store. -/
abbrev Operation (α : Type) := Program Access (Except StoreError α)

/-- Asks one query and goes on with its answer if it succeeds. -/
def query {α : Type} (query : Query) (next : query.Result → Operation α) : Operation α :=
  .ask query fun reply : Except LedgerError query.Result =>
    match reply with
    | .ok result => next result
    | .error failure => .done (.error (.ledger failure))

/-- The version of a name that a set uses. -/
def find (name : String) (set : VariableSet) : Operation (Option VariableId) :=
  query (.findId set.id name) fun found => .done (.ok found)

/-- The version that another writer stored for the name of a row. -/
def winner (row : Association) : Operation VariableId :=
  query (.findId row.set row.name) fun found : Option VariableId =>
    match found with
    | some id => .done (.ok id)
    | none =>
      .done (.error (.ledger (.notFound s!"variable '{row.name}' in set {row.set.text}")))

/-- Adds a row, answering the version that ends up stored for its name. -/
def insert (set : VariableSet) (row : Association) : Operation VariableId :=
  if !set.writable then .done (.error (.frozenSet set.id set.deployment row.name))
  else .ask (.insert row : Query) fun reply : Except LedgerError Unit =>
    match reply with
    | .ok _ => .done (.ok row.id)
    | .error (.uniqueViolation _) => winner row
    | .error failure => .done (.error (.ledger failure))

/-- Records the version of a name that the deployment of a set owns. -/
def add (name : String) (id : VariableId) (set : VariableSet) : Operation VariableId :=
  insert set ⟨set.id, name, id, none⟩

/-- Records the version of a name that another deployment provides. -/
def addLink (name : String) (id : VariableId) (provider : String) (set : VariableSet) :
    Operation VariableId :=
  insert set ⟨set.id, name, id, some provider⟩

/-- Freezes the writable ones among some sets, as not deployed successfully, and
goes on. -/
def freezeWritable {α : Type} (next : Operation α) : List VariableSet → Operation α
  | [] => next
  | set :: rest =>
    if set.writable then
      query (.saveSet (set.frozen false)) fun _ => freezeWritable next rest
    else freezeWritable next rest

/-- Starts a deploy attempt under a fresh identity. -/
def createWritable (id : SetId) (deployment : String) : Operation VariableSet :=
  let set := VariableSet.fresh id deployment
  query (.findSets deployment) fun sets : List VariableSet =>
    freezeWritable (query (.saveSet set) fun _ => .done (.ok set)) sets

/-- Records a set as it is. -/
def save (set : VariableSet) : Operation Unit :=
  query (.saveSet set) fun _ => .done (.ok ())

/-- The sets of a deployment, the newest first. -/
def history (deployment : String) : Operation (List VariableSet) :=
  query (.findSets deployment) fun sets : List VariableSet => .done (.ok sets)

/-- The newest set of a deployment. -/
def current (deployment : String) : Operation (Option VariableSet) :=
  query (.findSets deployment) fun sets : List VariableSet => .done (.ok sets.head?)

/-- A set as it is recorded. -/
def get (id : SetId) : Operation VariableSet :=
  query (.findSet id) fun found : Option VariableSet =>
    match found with
    | some set => .done (.ok set)
    | none => .done (.error (.notFound id))

/-- Records that the deploy attempt of a set is over, and how. -/
def freeze (set : VariableSet) (deployedSuccessfully : Bool) : Operation VariableSet :=
  let frozen := set.frozen deployedSuccessfully
  query (.saveSet frozen) fun _ => .done (.ok frozen)

/-- The first version of a name that is held by one of some sets. -/
def firstHeld (name : String) : List VariableSet → Operation (Option VariableId)
  | [] => .done (.ok none)
  | set :: rest =>
    query (.findId set.id name) fun found : Option VariableId =>
      match found with
      | some id => .done (.ok (some id))
      | none => firstHeld name rest

/-- The successfully deployed sets among those that stand behind a set in a list
that has the newest first. -/
def successfulBefore (set : VariableSet) (history : List VariableSet) : List VariableSet :=
  ((history.dropWhile fun candidate => candidate.id ≠ set.id).drop 1).filter
    VariableSet.deployedSuccessfully

/-- The version of a name that was used by the latest successful deploy attempt
before that of a set. -/
def previousId (name : String) (set : VariableSet) : Operation (Option VariableId) :=
  query (.findSets set.deployment) fun history : List VariableSet =>
    firstHeld name (successfulBefore set history)

/-- The rows of a set. -/
def associations (set : VariableSet) : Operation (List Association) :=
  query (.findRows set.id) fun rows : List Association => .done (.ok rows)

end Store

end ManifestVariables
