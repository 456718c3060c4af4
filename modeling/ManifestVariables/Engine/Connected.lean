import ManifestVariables.Engine
import ManifestVariables.Transport.Connection

/-!
# Surroundings behind a connection

Resolving can be run against the config server of a connection and a ledger in
memory that lives as long as the run. Events are not kept.
-/

namespace ManifestVariables.Connection

/-- A run that has a ledger. -/
abbrev LedgerRun := StateT Ledger Run

/-- Answers what resolving asks for. -/
def answerEngine (connection : Connection) (need : Engine.Need) : LedgerRun need.Reply :=
  match need with
  | .call call => StateT.lift (connection.call call)
  | .ledger query => fun ledger => pure (Ledger.respond query ledger)
  | .record _ => pure true

/-- Runs a program of the client, starting without a token. -/
def runClient {α : Type} (connection : Connection) (program : Program Client.Calls α) :
    Machine.Action (Except Crash α) :=
  ((program.interpret connection.call).run' ⟨none⟩).run

/-- Runs a program of resolving, starting without a token and with an empty ledger. -/
def runEngine {α : Type} (connection : Connection) (program : Program Engine.Needs α) :
    Machine.Action (Except Crash α) :=
  (((program.interpret connection.answerEngine).run' .empty).run' ⟨none⟩).run

end ManifestVariables.Connection
