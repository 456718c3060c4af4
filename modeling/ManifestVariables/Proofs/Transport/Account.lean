import ManifestVariables.Proofs.Program.Transcript
import ManifestVariables.Transport.Layer

/-!
# Calls through one layer

`Layer.Attempting` and `Layer.UsingToken` list the ways in which a call through a layer
ends, each with its exchanges: attempts that are made until one does not fail for the
connection or none is left, and a call with a token, made again with a new one where the
first is refused.
-/

namespace ManifestVariables.Layer

open Program Transport

variable {transcript : List (Exchange Needs)} {outcome : Outcome}

/-- A call of the innermost transport and its outcome. -/
abbrev sent (call : Call) (bearer : Option String) (outcome : Outcome) : Exchange Needs :=
  ⟨(.send call bearer : Need), outcome⟩

/-- The current token of a source. -/
abbrev gave (source : Nat) (reply : Except TransportError String) : Exchange Needs :=
  ⟨(.token source : Need), reply⟩

/-- A new token of a source. -/
abbrev renewed (source : Nat) (reply : Except TransportError String) : Exchange Needs :=
  ⟨(.refresh source : Need), reply⟩

abbrev waited (milliseconds : Nat) : Exchange Needs :=
  ⟨(.sleep milliseconds : Need), ()⟩

/-- The connection failed or was too slow. -/
def Passing (outcome : Outcome) : Prop :=
  ∃ detail, outcome = .error (.connection detail) ∨ outcome = .error (.timeout detail)

theorem passing_error_iff {failure : TransportError} :
    Passing (.error failure) ↔ failure.isRetryable = true := by
  cases failure <;> simp [Passing, TransportError.isRetryable]

theorem not_passing_ok (response : Response) : ¬ Passing (.ok response) := by
  simp [Passing]

/-- Making an attempt and up to `remaining` more. -/
inductive Attempting (backoff : Backoff) (attempt : Program Needs Outcome) :
    (remaining number : Nat) → List (Exchange Needs) → Outcome → Prop where
  | last {remaining number : Nat} {transcript : List (Exchange Needs)} {outcome : Outcome}
      (ended : Ends attempt transcript outcome) (final : Passing outcome → remaining = 0) :
      Attempting backoff attempt remaining number transcript outcome
  | again {remaining number : Nat} {first second : List (Exchange Needs)}
      {failed outcome : Outcome} (ended : Ends attempt first failed) (passing : Passing failed)
      (tail : Attempting backoff attempt remaining (number + 1) second outcome) :
      Attempting backoff attempt (remaining + 1) number
        (first ++ waited (backoff.delay number) :: second) outcome

theorem attempting_of_ends {backoff : Backoff} {attempt : Program Needs Outcome}
    {remaining number : Nat}
    (ended : Ends (attempts backoff attempt remaining number) transcript outcome) :
    Attempting backoff attempt remaining number transcript outcome := by
  induction remaining generalizing number transcript with
  | zero => exact .last ended fun _ => rfl
  | succ remaining ih =>
    obtain ⟨first, between, second, rfl, attempted, followed⟩ := ends_andThen_iff.mp ended
    cases between with
    | ok response =>
      obtain ⟨rfl, rfl⟩ := ends_done_iff.mp followed
      rw [List.append_nil]
      exact .last attempted fun passing => absurd passing (not_passing_ok response)
    | error failure =>
      dsimp only at followed
      split at followed
      next retryable =>
        obtain ⟨_, rest, rfl, tail⟩ := (ends_ask_iff (I := Needs)).mp followed
        exact .again attempted (passing_error_iff.mpr retryable) (ih tail)
      next final =>
        obtain ⟨rfl, rfl⟩ := ends_done_iff.mp followed
        rw [List.append_nil]
        exact .last attempted fun passing => absurd (passing_error_iff.mp passing) final

/-- A refusal of the new token is final. -/
def afterRenewal : Outcome → Outcome
  | .error failure => .error failure
  | .ok response =>
    if response.isUnauthorized then .error (.unauthorized response.body) else .ok response

/-- Making a call with a token. -/
inductive UsingToken (source : Nat) (call : String → Program Needs Outcome) :
    List (Exchange Needs) → Outcome → Prop where
  | unavailable {failure : TransportError} :
      UsingToken source call [gave source (.error failure)] (.error failure)
  | failed {token : String} {calling : List (Exchange Needs)} {failure : TransportError}
      (ended : Ends (call token) calling (.error failure)) :
      UsingToken source call (gave source (.ok token) :: calling) (.error failure)
  | accepted {token : String} {calling : List (Exchange Needs)} {response : Response}
      (ended : Ends (call token) calling (.ok response))
      (authorized : response.isUnauthorized = false) :
      UsingToken source call (gave source (.ok token) :: calling) (.ok response)
  | unrenewed {token : String} {calling : List (Exchange Needs)} {response : Response}
      {failure : TransportError} (ended : Ends (call token) calling (.ok response))
      (refused : response.isUnauthorized = true) :
      UsingToken source call
        (gave source (.ok token) :: (calling ++ [renewed source (.error failure)]))
        (.error failure)
  | again {token other : String} {calling recalling : List (Exchange Needs)} {response : Response}
      {outcome : Outcome} (ended : Ends (call token) calling (.ok response))
      (refused : response.isUnauthorized = true) (recalled : Ends (call other) recalling outcome) :
      UsingToken source call
        (gave source (.ok token) :: (calling ++ renewed source (.ok other) :: recalling))
        (afterRenewal outcome)

theorem usingToken_of_ends {source : Nat} {call : String → Program Needs Outcome}
    (ended : Ends (withToken source call) transcript outcome) :
    UsingToken source call transcript outcome := by
  obtain ⟨current, rest, rfl, followed⟩ := (ends_ask_iff (I := Needs)).mp ended
  cases current with
  | error failure =>
    obtain ⟨rfl, rfl⟩ := ends_done_iff.mp followed
    exact .unavailable
  | ok token =>
    obtain ⟨calling, first, after, rfl, called, tail⟩ := ends_andThen_iff.mp followed
    cases first with
    | error failure =>
      obtain ⟨rfl, rfl⟩ := ends_done_iff.mp tail
      rw [List.append_nil]
      exact .failed called
    | ok response =>
      dsimp only at tail
      split at tail
      next accepted =>
        obtain ⟨rfl, rfl⟩ := ends_done_iff.mp tail
        rw [List.append_nil]
        exact .accepted called (by simpa using accepted)
      next refused =>
        have refused : response.isUnauthorized = true := by simpa using refused
        obtain ⟨fresh, later, rfl, renewal⟩ := (ends_ask_iff (I := Needs)).mp tail
        cases fresh with
        | error failure =>
          obtain ⟨rfl, rfl⟩ := ends_done_iff.mp renewal
          exact .unrenewed called refused
        | ok other =>
          obtain ⟨recalling, second, closing, rfl, recalled, last⟩ := ends_andThen_iff.mp renewal
          have same : Ends (.done (afterRenewal second) : Program Needs Outcome) closing
              outcome := by
            cases second with
            | error failure => exact last
            | ok response =>
              simp only [afterRenewal]
              split <;> simp_all
          obtain ⟨rfl, rfl⟩ := ends_done_iff.mp same
          rw [List.append_nil]
          exact .again called refused recalled

end ManifestVariables.Layer
