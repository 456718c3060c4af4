import ManifestVariables.Keyed
import ManifestVariables.Program
import ManifestVariables.Variable.Basic

/-!
# The ledger

The ledger records which version of each variable a deployment uses. Every deploy
attempt of a deployment has a variable set of its own, and a set has one row per
name. A row is never changed or taken away. `Ledger.Query` lists what can be asked
of a ledger and `Ledger.respond` is the ledger in memory.
-/

namespace ManifestVariables

/-- The identity of a variable set. -/
structure SetId where
  text : String
deriving DecidableEq, Repr, Inhabited

/-- The variables of one deploy attempt. -/
structure VariableSet where
  id : SetId
  deployment : String
  writable : Bool
  deployedSuccessfully : Bool
deriving DecidableEq, Repr

namespace VariableSet

/-- A set for a new deploy attempt. -/
def fresh (id : SetId) (deployment : String) : VariableSet :=
  { id, deployment, writable := true, deployedSuccessfully := false }

/-- The set once its deploy attempt is over. -/
def frozen (set : VariableSet) (deployedSuccessfully : Bool) : VariableSet :=
  { set with writable := false, deployedSuccessfully }

end VariableSet

/-- A row of the ledger: the version of a name that a set uses. -/
structure Association where
  set : SetId
  name : String
  id : VariableId
  /-- The deployment that the value belongs to, where that is another one. -/
  provider : Option String
deriving DecidableEq, Repr

/-- Whether the value belongs to the deployment of the set itself. -/
def Association.isLocal (row : Association) : Bool :=
  row.provider.isNone

/-- Why a ledger did not do what it was asked. -/
inductive LedgerError where
  | notFound (detail : String)
  | uniqueViolation (detail : String)
  | database (detail : String)
deriving DecidableEq, Repr

/-- The text shown for a ledger error. -/
def LedgerError.message : LedgerError → String
  | notFound detail => s!"Entity not found: {detail}"
  | uniqueViolation detail => s!"Unique constraint violated: {detail}"
  | database detail => s!"Database error: {detail}"

/-- The sets and rows of all deployments. -/
structure Ledger where
  sets : Keyed SetId VariableSet
  /-- The identities of the sets in the order in which they were first saved. -/
  order : List SetId
  rows : Keyed SetId (List Association)
deriving DecidableEq, Repr, Inhabited

namespace Ledger

/-- What can be asked of a ledger. -/
inductive Query where
  /-- Records a set, or its new state. -/
  | saveSet (set : VariableSet)
  | findSet (id : SetId)
  /-- All sets of a deployment, the newest first. -/
  | findSets (deployment : String)
  /-- Adds a row for a name that the set does not hold yet. -/
  | insert (row : Association)
  /-- The version of a name that a set uses. -/
  | findId (set : SetId) (name : String)
  /-- The rows of a set. -/
  | findRows (set : SetId)

/-- What a query is answered with when it succeeds. -/
def Query.Result : Query → Type
  | saveSet _ => Unit
  | findSet _ => Option VariableSet
  | findSets _ => List VariableSet
  | insert _ => Unit
  | findId _ _ => Option VariableId
  | findRows _ => List Association

/-- The interface of a ledger, any of whose queries may fail. -/
def Access : Interface := ⟨Query, fun query => Except LedgerError query.Result⟩

/-- A ledger without sets. -/
def empty : Ledger := ⟨[], [], []⟩

/-- The rows of a set. -/
def rowsOf (ledger : Ledger) (set : SetId) : List Association :=
  (Keyed.get? ledger.rows set).getD []

/-- The version of a name that a set uses. -/
def idOf? (ledger : Ledger) (set : SetId) (name : String) : Option VariableId :=
  ((ledger.rowsOf set).find? fun row => row.name = name).map Association.id

/-- The sets of a deployment, the newest first. -/
def setsOf (ledger : Ledger) (deployment : String) : List VariableSet :=
  (ledger.order.reverse.filterMap (Keyed.get? ledger.sets)).filter
    fun set => set.deployment = deployment

/-- The ledger with a set recorded. A set that is recorded again keeps its place. -/
def save (ledger : Ledger) (set : VariableSet) : Ledger :=
  { ledger with
    sets := Keyed.put ledger.sets set.id set
    order := if Keyed.contains ledger.sets set.id then ledger.order
      else ledger.order ++ [set.id] }

/-- The ledger with a row added, or why it cannot be. -/
def insert (ledger : Ledger) (row : Association) : Except LedgerError Ledger :=
  if !Keyed.contains ledger.sets row.set then
    .error (.notFound s!"variable set {row.set.text}")
  else if (ledger.rowsOf row.set).any fun held => held.name = row.name then
    .error (.uniqueViolation
      s!"variable '{row.name}' already associated with set {row.set.text}")
  else
    .ok { ledger with rows := Keyed.put ledger.rows row.set (ledger.rowsOf row.set ++ [row]) }

/-- Answers a query from the ledger in memory. -/
def respond (query : Query) (ledger : Ledger) : Except LedgerError query.Result × Ledger :=
  match query with
  | .saveSet set => (.ok (), ledger.save set)
  | .findSet id => (.ok (Keyed.get? ledger.sets id), ledger)
  | .findSets deployment => (.ok (ledger.setsOf deployment), ledger)
  | .insert row =>
    match ledger.insert row with
    | .ok next => (.ok (), next)
    | .error failure => (.error failure, ledger)
  | .findId set name => (.ok (ledger.idOf? set name), ledger)
  | .findRows set => (.ok (ledger.rowsOf set), ledger)

end Ledger

end ManifestVariables
