import ManifestVariables.ConfigServer.Versions
import ManifestVariables.Engine
import ManifestVariables.Event.Bus
import ManifestVariables.Generation.LinkAddress

/-!
# Surroundings in memory

A world holds all that resolving and generating ask for: a config server, a ledger,
an event bus that serves as the audit log, and addresses of links. Parts of it can
be made to fail: calls that are answered otherwise, ledger queries that fail,
writers that come first, an audit log that refuses every event, and links without
address. `World.answer` answers one question, so that `Program.run World.answer`
runs a whole operation.
-/

namespace ManifestVariables

/-- The kinds of ledger queries. -/
inductive Ledger.QueryKind where
  | saveSet
  | findSet
  | findSets
  | insert
  | findId
  | findRows
deriving DecidableEq, Repr

/-- The kind of a query. -/
def Ledger.Query.kind : Ledger.Query → Ledger.QueryKind
  | saveSet _ => .saveSet
  | findSet _ => .findSet
  | findSets _ => .findSets
  | insert _ => .insert
  | findId _ _ => .findId
  | findRows _ => .findRows

/-- The kinds of calls. -/
inductive CallKind where
  | get
  | getById
  | post
deriving DecidableEq, Repr

/-- The kind of a call. -/
def Call.kind : Call → CallKind
  | get _ => .get
  | getById _ => .getById
  | post _ => .post

/-- The name or id that a call is about. -/
def Call.key : Call → String
  | get name => name
  | getById id => id
  | post body => Versions.textField body "name"

/-- An outcome that is given in place of the config server's. -/
structure CannedOutcome where
  kind : CallKind
  /-- The only name or id that it is for, if there is one. -/
  key : Option String
  /-- Whether it stays once it has been given. -/
  sticky : Bool
  outcome : Outcome

/-- Whether the outcome is for a call. -/
def CannedOutcome.isFor (canned : CannedOutcome) (call : Call) : Bool :=
  canned.kind = call.kind && (canned.key.isNone || canned.key = some call.key)

/-- A writer that adds a row for a name just before another one does. -/
structure Rival where
  name : String
  id : VariableId
deriving DecidableEq, Repr

/-- Surroundings in memory. -/
structure World where
  versions : Versions
  canned : List CannedOutcome
  /-- The calls that were made, in order. -/
  calls : List Call
  ledger : Ledger
  /-- The queries that are to fail, each once. -/
  faults : List (Ledger.QueryKind × LedgerError)
  rivals : List Rival
  bus : Bus
  refusesEvents : Bool
  links : LinkTable
  /-- Why links have no address. -/
  brokenLinks : Keyed String String

namespace World

/-- Takes the first element that fits out of a list. -/
def take? {α : Type} (fits : α → Bool) : List α → Option (α × List α)
  | [] => none
  | a :: rest =>
    if fits a then some (a, rest)
    else (take? fits rest).map fun taken => (taken.1, a :: taken.2)

/-- Answers a call, with the oldest outcome that is canned for it or else from the
config server. -/
def answerCall (call : Call) (world : World) : Outcome × World :=
  let world := { world with calls := world.calls ++ [call] }
  match take? (fun canned => canned.isFor call) world.canned with
  | some (canned, others) =>
    (canned.outcome, if canned.sticky then world else { world with canned := others })
  | none =>
    let answered := Versions.respond call world.versions
    (.ok answered.1, { world with versions := answered.2 })

/-- Lets the rival for a row add its own row first. -/
def yieldToRival (row : Association) (world : World) : World :=
  match take? (fun rival => rival.name = row.name) world.rivals with
  | some (rival, others) =>
    { world with
      rivals := others
      ledger := (Ledger.respond (.insert { row with id := rival.id }) world.ledger).2 }
  | none => world

/-- Answers a query from the ledger, once rivals had their turn. -/
def answerFromLedger (query : Ledger.Query) (world : World) :
    Except LedgerError query.Result × World :=
  let world := match query with
    | .insert row => world.yieldToRival row
    | _ => world
  let answered := Ledger.respond query world.ledger
  (answered.1, { world with ledger := answered.2 })

/-- Answers a query, by a failure if one is due. -/
def answerQuery (query : Ledger.Query) (world : World) :
    Except LedgerError query.Result × World :=
  match take? (fun fault => fault.1 = query.kind) world.faults with
  | some (fault, others) => (.error fault.2, { world with faults := others })
  | none => world.answerFromLedger query

/-- Takes an event to be published, unless events are refused. -/
def answerEvent (event : Event) (world : World) : Bool × World :=
  if world.refusesEvents then (false, world)
  else (true, { world with bus := world.bus.publish event })

/-- Answers any question. -/
def answer (need : Engine.Need) (world : World) : need.Reply × World :=
  match need with
  | .call call => world.answerCall call
  | .ledger query => world.answerQuery query
  | .record event => world.answerEvent event

/-- The addresses of links, broken ones having none. -/
def addresses (world : World) : LinkAddresses := fun variableName deployment link useAlias =>
  match Keyed.get? world.brokenLinks link.source with
  | some reason => .error (.resolution link.source reason)
  | none => world.links.addresses variableName deployment link useAlias

end World

end ManifestVariables
