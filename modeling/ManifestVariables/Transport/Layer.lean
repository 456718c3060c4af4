import ManifestVariables.ConfigServer.Basic
import ManifestVariables.Program

/-!
# Layers around the transport

A layer changes how one call is made: `Layer.retry` makes it again when the
connection failed, `Layer.auth` makes it with a token and once more with a new
one when the first is refused. Layers may be stacked in any order; what a stack
asks for are the calls of the innermost transport, tokens, and time to wait.
-/

namespace ManifestVariables

namespace Transport

/-- What a stack of layers asks for. -/
inductive Need where
  /-- A call of the innermost transport, with the token it carries. -/
  | send (call : Call) (bearer : Option String)
  /-- The current token of a source. -/
  | token (source : Nat)
  /-- A new token of a source in place of the current one. -/
  | refresh (source : Nat)
  /-- To wait for some milliseconds. -/
  | sleep (milliseconds : Nat)

/-- What a stack is given for each need. -/
def Need.Reply : Need → Type
  | send _ _ => Outcome
  | token _ => Except TransportError String
  | refresh _ => Except TransportError String
  | sleep _ => Unit

/-- The interface of a stack of layers. -/
def Needs : Interface := ⟨Need, Need.Reply⟩

/-- One call of the innermost transport. -/
def send (call : Call) (bearer : Option String) : Program Needs Outcome :=
  .ask (.send call bearer : Need) .done

end Transport

/-- How long to wait between two attempts. -/
inductive Backoff where
  | none
  /-- The base in milliseconds, doubled after each attempt. -/
  | exponential (base : Nat)
deriving DecidableEq, Repr

namespace Backoff

/-- The factor of the wait cannot grow beyond this. -/
def maxFactor : Nat := Nat.pow 2 32 - 1

/-- The milliseconds to wait after the given attempt, the first being one. -/
def delay : Backoff → Nat → Nat
  | none, _ => 0
  | exponential base, attempt => base * min (Nat.pow 2 (attempt - 1)) maxFactor

/-- The waits that are used where none are chosen. -/
def standard : Backoff := exponential 1000

end Backoff

/-- A layer around a transport. -/
inductive Layer where
  | retry (maxAttempts : Nat) (backoff : Backoff)
  /-- The layer has a source of tokens; layers may share one. -/
  | auth (source : Nat)
deriving DecidableEq, Repr

namespace Layer

open Transport

/-- Makes an attempt, and up to `remaining` more while the connection fails. -/
def attempts (backoff : Backoff) (attempt : Program Needs Outcome) :
    (remaining number : Nat) → Program Needs Outcome
  | 0, _ => attempt
  | remaining + 1, number =>
    attempt.andThen fun outcome =>
      match outcome with
      | .ok response => .done (.ok response)
      | .error failure =>
        if failure.isRetryable then
          .ask (.sleep (backoff.delay number) : Need) fun _ =>
            attempts backoff attempt remaining (number + 1)
        else .done (.error failure)

/-- Makes a call with the current token of a source, and once more with a new one if
that is refused. -/
def withToken (source : Nat) (call : String → Program Needs Outcome) : Program Needs Outcome :=
  .ask (.token source : Need) fun current : Except TransportError String =>
    match current with
    | .error failure => .done (.error failure)
    | .ok token =>
      (call token).andThen fun first =>
        match first with
        | .error failure => .done (.error failure)
        | .ok response =>
          if !response.isUnauthorized then .done (.ok response)
          else .ask (.refresh source : Need) fun renewed : Except TransportError String =>
            match renewed with
            | .error failure => .done (.error failure)
            | .ok token =>
              (call token).andThen fun second =>
                match second with
                | .error failure => .done (.error failure)
                | .ok response =>
                  if response.isUnauthorized then .done (.error (.unauthorized response.body))
                  else .done (.ok response)

/-- A call through a layer. At least one attempt is made whatever their number; a
layer that brings its own token drops the caller's. -/
def apply (layer : Layer) (inner : Call → Option String → Program Needs Outcome)
    (call : Call) (bearer : Option String) : Program Needs Outcome :=
  match layer with
  | retry maxAttempts backoff => attempts backoff (inner call bearer) (max maxAttempts 1 - 1) 1
  | auth source => withToken source fun token => inner call (some token)

/-- A call through a stack of layers, the outermost first. -/
def stack : List Layer → Call → Option String → Program Needs Outcome
  | [] => send
  | layer :: rest => layer.apply (stack rest)

end Layer

end ManifestVariables
