import ManifestVariables.Transport.Layer

/-!
# A transport that follows a script

A script says in advance how the calls of the innermost transport end and which
tokens are given. It keeps a log of what it was asked for and counts the
milliseconds that were waited.
-/

namespace ManifestVariables

/-- A source of tokens. -/
inductive ScriptedTokens where
  /-- The same token every time. -/
  | fixed (token : String)
  /-- The next of the given tokens, for the two ways of asking for one. -/
  | queued (tokens refreshes : List (Except TransportError String))

/-- Something that a script was asked for. -/
inductive LogEntry where
  | token
  | refresh
  | sent (call : Call) (bearer : Option String)

/-- What is to come, and what has been asked for. -/
structure Script where
  outcomes : List Outcome
  /-- The sources of tokens, each layer's by its number. -/
  tokens : List ScriptedTokens
  log : List LogEntry
  waited : Nat

/-- The token when no more are given. -/
def ScriptedTokens.noToken : Except TransportError String := .ok "none"

/-- The script with one more entry in its log. -/
def Script.note (script : Script) (entry : LogEntry) : Script :=
  { script with log := script.log ++ [entry] }

/-- The next token of a source, and what is left of it. -/
def ScriptedTokens.token : ScriptedTokens → Except TransportError String × ScriptedTokens
  | .fixed token => (.ok token, .fixed token)
  | .queued [] refreshes => (noToken, .queued [] refreshes)
  | .queued (token :: rest) refreshes => (token, .queued rest refreshes)

/-- The next new token of a source, and what is left of it; a fixed one stays the
same. -/
def ScriptedTokens.refresh : ScriptedTokens → Except TransportError String × ScriptedTokens
  | .fixed token => (.ok token, .fixed token)
  | .queued tokens [] => (noToken, .queued tokens [])
  | .queued tokens (token :: rest) => (token, .queued tokens rest)

namespace Script

/-- Gives a token of a source. A fixed token is at hand and leaves no entry. -/
def give (source : Nat) (entry : LogEntry)
    (next : ScriptedTokens → Except TransportError String × ScriptedTokens) (script : Script) :
    Except TransportError String × Script :=
  match script.tokens[source]? with
  | none => (ScriptedTokens.noToken, script.note entry)
  | some (.fixed token) => (.ok token, script)
  | some tokens =>
    ((next tokens).1, { script.note entry with tokens := script.tokens.set source (next tokens).2 })

/-- Answers what a stack of layers asks for. A call for which there is no outcome
left is answered by an empty object. -/
def answer (need : Transport.Need) (script : Script) : need.Reply × Script :=
  match need with
  | .send call bearer =>
    let script := script.note (.sent call bearer)
    match script.outcomes with
    | [] => (.ok ⟨200, "\x7b\x7d"⟩, script)
    | outcome :: rest => (outcome, { script with outcomes := rest })
  | .token source => script.give source .token ScriptedTokens.token
  | .refresh source => script.give source .refresh ScriptedTokens.refresh
  | .sleep milliseconds => ((), { script with waited := script.waited + milliseconds })

end Script

end ManifestVariables
