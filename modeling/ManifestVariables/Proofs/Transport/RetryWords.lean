import Mathlib.Data.UInt
import ManifestVariables.Transport.Layer

/-!
# Attempts that are counted in words

`Layer.attempts` counts attempts and waits without bound. Where a counter is a word of 32
bits, and a wait is kept as seconds of 64 bits with nanoseconds, either may overflow.
`Words.retry` makes the same attempts with such a counter and such waits, and says where one
overflowed. Neither does where the base of the waits is below `2 ^ 32` seconds: then it is the
retry layer (`Words.retry_eq`). The waits of a `Backoff` are in the unit of its base, which is
the nanosecond here.
-/

namespace ManifestVariables.Words

open Program Transport

/-- A length of time in seconds and nanoseconds. -/
structure Span where
  seconds : Nat
  nanoseconds : Nat
  fits : seconds < 2 ^ 64
  proper : nanoseconds < 10 ^ 9

namespace Span

/-- The length in nanoseconds. -/
def total (span : Span) : Nat :=
  span.seconds * 10 ^ 9 + span.nanoseconds

/-- A whole number of seconds. -/
def ofSeconds (seconds : UInt32) : Span where
  seconds := seconds.toNat
  nanoseconds := 0
  fits := Nat.lt_trans seconds.toNat_lt (by decide)
  proper := by decide

/-- A span that is multiplied, if the seconds of the product fit in their word. -/
def times? (span : Span) (factor : UInt32) : Option Span :=
  if fits : span.seconds * factor.toNat + span.nanoseconds * factor.toNat / 10 ^ 9 < 2 ^ 64 then
    some ⟨_, span.nanoseconds * factor.toNat % 10 ^ 9, fits, Nat.mod_lt _ (by decide)⟩
  else none

variable {span product : Span} {factor : UInt32}

/-- A product that fits is exact. -/
theorem total_of_times? (multiplied : span.times? factor = some product) :
    product.total = span.total * factor.toNat := by
  unfold times? at multiplied
  split at multiplied
  · cases multiplied
    have parts := Nat.div_add_mod (span.nanoseconds * factor.toNat) (10 ^ 9)
    simp only [total, Nat.add_mul, Nat.mul_right_comm _ (10 ^ 9)]
    omega
  · cases multiplied

/-- The carried nanoseconds come to less than a second for each multiple. -/
theorem carried_le (span : Span) (factor : UInt32) :
    span.nanoseconds * factor.toNat / 10 ^ 9 ≤ factor.toNat := by
  refine Nat.div_le_of_le_mul ?_
  exact Nat.mul_le_mul_right _ (Nat.le_of_lt span.proper)

/-- Every multiple fits of a span that is below `2 ^ 32` seconds. -/
theorem exists_times? (short : span.seconds < 2 ^ 32) (factor : UInt32) :
    ∃ product, span.times? factor = some product ∧
      product.total = span.total * factor.toNat := by
  have fits : span.seconds * factor.toNat + span.nanoseconds * factor.toNat / 10 ^ 9 < 2 ^ 64 := by
    calc span.seconds * factor.toNat + span.nanoseconds * factor.toNat / 10 ^ 9
        ≤ span.seconds * factor.toNat + factor.toNat :=
          Nat.add_le_add_left (span.carried_le factor) _
      _ = (span.seconds + 1) * factor.toNat := (Nat.succ_mul _ _).symm
      _ ≤ 2 ^ 32 * factor.toNat := Nat.mul_le_mul_right _ short
      _ < 2 ^ 32 * 2 ^ 32 := Nat.mul_lt_mul_of_pos_left factor.toNat_lt (by decide)
      _ = 2 ^ 64 := by decide
  have multiplied : span.times? factor = some _ := dif_pos fits
  exact ⟨_, multiplied, total_of_times? multiplied⟩

end Span

/-- How long to wait between two attempts. -/
inductive Backoff where
  | none
  | exponential (base : Span)

/-- A power of two, or the greatest word where it is greater. -/
def powerOfTwo (exponent : Nat) : UInt32 :=
  .ofNatLT (min (2 ^ exponent) (2 ^ 32 - 1))
    (Nat.lt_of_le_of_lt (Nat.min_le_right _ _) (by decide))

theorem toNat_powerOfTwo (exponent : Nat) :
    (powerOfTwo exponent).toNat = min (2 ^ exponent) (2 ^ 32 - 1) :=
  UInt32.toNat_ofNatLT

namespace Backoff

/-- The wait after the given attempt, if it fits. -/
def delay? : Backoff → UInt32 → Option Span
  | none, _ => some (.ofSeconds 0)
  | exponential base, attempt => base.times? (powerOfTwo (attempt.toNat - 1))

/-- The same waits as numbers of nanoseconds. -/
def counted : Backoff → ManifestVariables.Backoff
  | none => .none
  | exponential base => .exponential base.total

/-- The base of the waits is below some seconds. -/
def Below (seconds : Nat) : Backoff → Prop
  | none => True
  | exponential base => base.seconds < seconds

theorem exists_delay? {backoff : Backoff} (short : backoff.Below (2 ^ 32)) (attempt : UInt32) :
    ∃ wait, backoff.delay? attempt = some wait ∧
      wait.total = backoff.counted.delay attempt.toNat := by
  cases backoff with
  | none => exact ⟨.ofSeconds 0, rfl, rfl⟩
  | exponential base =>
    obtain ⟨wait, same, total⟩ := base.exists_times? short (powerOfTwo (attempt.toNat - 1))
    rw [toNat_powerOfTwo] at total
    exact ⟨wait, same, total⟩

end Backoff

/-- Makes attempts while the connection fails and this one is not the last; none where the
wait or the number of the next attempt does not fit. -/
def attempts (backoff : Backoff) (most : UInt32) (attempt : Program Needs Outcome)
    (number : UInt32) : Program Needs (Option Outcome) :=
  attempt.andThen fun outcome =>
    match outcome with
    | .ok response => .done (some (.ok response))
    | .error failure =>
      if _more : failure.isRetryable = true ∧ number < most then
        match backoff.delay? number with
        | none => .done none
        | some wait =>
          .ask (.sleep wait.total : Need) fun _ =>
            if fits : number.toNat + 1 < 2 ^ 32 then attempts backoff most attempt (number + 1)
            else .done none
      else .done (some (.error failure))
termination_by most.toNat - number.toNat
decreasing_by
  have less := UInt32.lt_iff_toNat_lt.mp _more.2
  rw [UInt32.toNat_add, UInt32.toNat_one, Nat.mod_eq_of_lt fits]
  omega

/-- A call through a layer that makes it again. -/
def retry (maxAttempts : UInt32) (backoff : Backoff)
    (inner : Call → Option String → Program Needs Outcome) (call : Call) (bearer : Option String) :
    Program Needs (Option Outcome) :=
  attempts backoff (max maxAttempts 1) (inner call bearer) 1

/-- As many attempts as are left can be counted. -/
theorem attempts_eq {backoff : Backoff} (short : backoff.Below (2 ^ 32))
    (attempt : Program Needs Outcome) (remaining : Nat) (most number : UInt32)
    (left : number.toNat + remaining = most.toNat) :
    attempts backoff most attempt number =
      (Layer.attempts backoff.counted attempt remaining number.toNat).andThen fun outcome =>
        .done (some outcome) := by
  induction remaining generalizing number with
  | zero =>
    have last : ¬ number < most := by
      rw [UInt32.lt_iff_toNat_lt]
      omega
    rw [attempts, Layer.attempts]
    refine congrArg attempt.andThen (funext fun outcome => ?_)
    cases outcome with
    | ok response => rfl
    | error failure => exact dif_neg fun more => last more.2
  | succ remaining ih =>
    have again : number < most := by
      rw [UInt32.lt_iff_toNat_lt]
      omega
    have fits : number.toNat + 1 < 2 ^ 32 := by
      have bound := most.toNat_lt
      omega
    have next : (number + 1).toNat = number.toNat + 1 := by
      rw [UInt32.toNat_add, UInt32.toNat_one, Nat.mod_eq_of_lt fits]
    obtain ⟨wait, fitting, same⟩ := backoff.exists_delay? short number
    rw [attempts, Layer.attempts, andThen_assoc]
    refine congrArg attempt.andThen (funext fun outcome => ?_)
    cases outcome with
    | ok response => rfl
    | error failure =>
      cases retryable : failure.isRetryable with
      | false =>
        have final : ¬ (failure.isRetryable = true ∧ number < most) := by simp [retryable]
        refine (dif_neg final).trans ?_
        simp only [retryable, Bool.false_eq_true, if_false, Program.andThen]
      | true =>
        refine (dif_pos ⟨retryable, again⟩).trans ?_
        simp only [fitting, fits, retryable, dite_true, if_true, Program.andThen]
        generalize backoff.counted.delay number.toNat = counted at same
        subst same
        refine congrArg _ (funext fun _ => ?_)
        rw [ih (number + 1) (by omega), next]

theorem retry_eq {backoff : Backoff} (short : backoff.Below (2 ^ 32)) (maxAttempts : UInt32)
    (inner : Call → Option String → Program Needs Outcome) (call : Call) (bearer : Option String) :
    retry maxAttempts backoff inner call bearer =
      ((Layer.retry maxAttempts.toNat backoff.counted).apply inner call bearer).andThen
        fun outcome => .done (some outcome) := by
  refine attempts_eq short _ _ _ 1 ?_
  rw [UInt32.toNat_max, UInt32.toNat_one]
  omega

end ManifestVariables.Words
