import ManifestVariables.ConfigServer.Client
import ManifestVariables.Event.Basic
import ManifestVariables.Ledger.Store

/-!
# What resolving and generating ask for

Manifests are resolved and variables generated against three things: the config
server, the ledger, and the audit log, which may refuse an event. Programs of the
store and of the client are carried over to this common interface.
-/

namespace ManifestVariables.Engine

/-- A question to the surroundings. -/
inductive Need where
  | call (call : Call)
  | ledger (query : Ledger.Query)
  /-- To keep an event; the answer says whether it was kept. -/
  | record (event : Event)

/-- What each question is answered with. -/
def Need.Reply : Need → Type
  | call _ => Outcome
  | ledger query => Except LedgerError query.Result
  | record _ => Bool

/-- The interface of resolving and generating. -/
def Needs : Interface := ⟨Need, Need.Reply⟩

/-- A program with a cause of failure. -/
abbrev Action (ε α : Type) := ExceptT ε (Program Needs) α

/-- A client program whose calls are asked for. -/
def ofClient {α : Type} (program : Program Client.Calls α) : Program Needs α :=
  program.translate fun call : Call => .ask (.call call : Need) .done

/-- A store operation whose queries are asked for. -/
def ofStore {α : Type} (operation : Store.Operation α) : Program Needs (Except StoreError α) :=
  Program.translate (fun query : Ledger.Query => .ask (.ledger query : Need) .done) operation

/-- A program with its failure given another cause. -/
def Action.ofProgram {δ ε α : Type} (cause : δ → ε) (program : Program Needs (Except δ α)) :
    Action ε α :=
  ExceptT.mk (program.andThen fun result => .done (result.mapError cause))

/-- Asks for an event to be kept. Whether it was makes no difference. -/
def record {ε : Type} (event : Event) : Action ε Unit :=
  ExceptT.mk (.ask (.record event : Need) fun _ => .done (.ok ()))

end ManifestVariables.Engine
