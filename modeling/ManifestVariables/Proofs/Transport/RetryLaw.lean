import ManifestVariables.Proofs.Transport.Account
import ManifestVariables.Proofs.Transport.RetryWords

/-!
# How often a call is made again

The retry layer makes a call until an outcome is final or no attempt is left, and waits
between two attempts for as long as the number of the first one says. `Layer.exists_runs`
tells a run of it by the outcomes that the attempts have, which are given as a sequence
without end. `Words.retry_law` is the same for a counter and for waits that are kept in
words, where neither overflows.
-/

namespace ManifestVariables

namespace Layer

open Program Transport

variable {outcomes : Nat → Outcome} {most made position : Nat}

/-- Answers the calls of the innermost transport by some outcomes in turn, and counts them.
There are no tokens to be had. -/
def follow (outcomes : Nat → Outcome) (need : Need) (made : Nat) : need.Reply × Nat :=
  match need with
  | .send _ _ => (outcomes made, made + 1)
  | .token _ => (.error (.tokenRequest "no source"), made)
  | .refresh _ => (.error (.tokenRequest "no source"), made)
  | .sleep _ => ((), made)

/-- The exchanges of attempts behind the first, each with the wait before it. -/
def repeated (call : Call) (bearer : Option String) (outcomes : Nat → Outcome) (backoff : Backoff)
    (number count : Nat) : List (Exchange Needs) :=
  (List.range' number count).flatMap fun number =>
    [waited (backoff.delay number), sent call bearer (outcomes number)]

theorem repeated_succ (call : Call) (bearer : Option String) (outcomes : Nat → Outcome)
    (backoff : Backoff) (number count : Nat) :
    repeated call bearer outcomes backoff number (count + 1) =
      waited (backoff.delay number) :: sent call bearer (outcomes number) ::
        repeated call bearer outcomes backoff (number + 1) count := by
  rw [repeated, List.range'_succ, List.flatMap_cons]
  rfl

/-- Of the attempts that may be made, so many are: all before the last failed for the
connection, and so did the last only if there were no more. -/
structure Tried (outcomes : Nat → Outcome) (most made : Nat) : Prop where
  positive : 0 < made
  bounded : made ≤ most
  passing : ∀ number, number + 1 < made → Passing (outcomes number)
  final : made < most → ¬ Passing (outcomes (made - 1))

/-- The first outcome that does not pass is the last one, if it is reached. -/
theorem Tried.eq_min (tried : Tried outcomes most made) (final : ¬ Passing (outcomes position))
    (first : ∀ number, number < position → Passing (outcomes number)) :
    made = min most (position + 1) := by
  have positive := tried.positive
  have bounded := tried.bounded
  have upTo : made ≤ position + 1 := by
    by_contra beyond
    exact final (tried.passing position (by omega))
  by_cases all : made = most
  · omega
  · have last := tried.final (by omega)
    have reached : ¬ made - 1 < position := fun before => last (first _ before)
    omega

/-- Where no outcome is final, all attempts are made. -/
theorem Tried.eq_most (tried : Tried outcomes most made)
    (passing : ∀ number, number < most → Passing (outcomes number)) : made = most := by
  have positive := tried.positive
  have bounded := tried.bounded
  by_contra fewer
  exact tried.final (by omega) (passing _ (by omega))

section Run

variable (outcomes) (backoff : Backoff) (call : Call) (bearer : Option String)

/-- A run of attempts behind others: its exchanges, its outcome and the calls made by then. -/
def Runs (remaining made : Nat) (transcript : List (Exchange Needs)) (outcome : Outcome)
    (after : Nat) : Prop :=
  Program.transcript (I := Needs) (follow outcomes)
      (attempts backoff (send call bearer) remaining (made + 1)) made = transcript ∧
    Program.run (I := Needs) (follow outcomes)
      (attempts backoff (send call bearer) remaining (made + 1)) made = (outcome, after)

variable {outcomes backoff call bearer} {remaining after : Nat}
  {transcript : List (Exchange Needs)} {outcome : Outcome}

/-- An attempt that is final is the only one. -/
theorem runs_of_final (final : ¬ Passing (outcomes made)) :
    Runs outcomes backoff call bearer remaining made [sent call bearer (outcomes made)]
      (outcomes made) (made + 1) := by
  cases remaining with
  | zero => exact ⟨rfl, rfl⟩
  | succ remaining =>
    cases same : outcomes made with
    | ok response =>
      simp only [Runs, attempts, send, Program.andThen, Program.transcript, Program.run, follow, same]
      trivial
    | error failure =>
      have unrepeated : failure.isRetryable = false := by
        rw [same, passing_error_iff] at final
        exact Bool.eq_false_iff.mpr final
      simp only [Runs, attempts, send, Program.andThen, Program.transcript, Program.run, follow, same,
        unrepeated]
      trivial

/-- An attempt that fails for the connection is followed by the others, after a wait. -/
theorem runs_of_passing (passing : Passing (outcomes made))
    (rest : Runs outcomes backoff call bearer remaining (made + 1) transcript outcome after) :
    Runs outcomes backoff call bearer (remaining + 1) made
      (sent call bearer (outcomes made) :: waited (backoff.delay (made + 1)) :: transcript)
      outcome after := by
  obtain ⟨rfl, ran⟩ := rest
  cases same : outcomes made with
  | ok response => exact absurd (same ▸ passing) (not_passing_ok response)
  | error failure =>
    have repeats : failure.isRetryable = true := by
      rwa [same, passing_error_iff] at passing
    rw [Runs, ← ran]
    constructor
    · simp only [attempts, send, Program.andThen, Program.transcript, follow, same, repeats]
      rfl
    · simp only [attempts, send, Program.andThen, Program.run, follow, same, repeats]
      rfl

end Run

/-- What attempts come to that start behind others. -/
theorem exists_runs (outcomes : Nat → Outcome) (backoff : Backoff) (call : Call)
    (bearer : Option String) (remaining made : Nat) :
    ∃ retries, retries ≤ remaining ∧
      (∀ number, number < retries → Passing (outcomes (made + number))) ∧
      (retries < remaining → ¬ Passing (outcomes (made + retries))) ∧
      Runs outcomes backoff call bearer remaining made
        (sent call bearer (outcomes made) ::
          repeated call bearer outcomes backoff (made + 1) retries)
        (outcomes (made + retries)) (made + retries + 1) := by
  induction remaining generalizing made with
  | zero => exact ⟨0, Nat.le_refl 0, nofun, nofun, rfl, rfl⟩
  | succ remaining ih =>
    by_cases passing : Passing (outcomes made)
    · obtain ⟨retries, bounded, failed, final, ran⟩ := ih (made + 1)
      have behind (number : Nat) : made + 1 + number = made + (number + 1) := by omega
      simp only [behind] at failed final ran
      refine ⟨retries + 1, Nat.succ_le_succ bounded, ?_, ?_, ?_⟩
      · rintro (_ | number) less
        · exact passing
        · exact failed number (Nat.lt_of_succ_lt_succ less)
      · exact fun less => final (Nat.lt_of_succ_lt_succ less)
      · rw [repeated_succ]
        exact runs_of_passing passing ran
    · exact ⟨0, Nat.zero_le _, nofun, fun _ => passing, runs_of_final passing⟩

end Layer

/-- Later waits are not shorter. -/
theorem Backoff.delay_mono (backoff : Backoff) {first second : Nat} (upTo : first ≤ second) :
    backoff.delay first ≤ backoff.delay second := by
  cases backoff with
  | none => exact Nat.le_refl 0
  | exponential base =>
    refine Nat.mul_le_mul_left base (min_le_min_right maxFactor ?_)
    exact Nat.pow_le_pow_right Nat.two_pos (Nat.sub_le_sub_right upTo 1)

namespace Words

open Program Transport Layer

/-- Whatever outcomes attempts would have, a call that is made again with a counter and waits
in words makes as many attempts as come up to the first final outcome, or as are allowed,
which is one at least. It ends with the outcome of the last one as it is, and waits between
two attempts for the base times a power of two that stays below `2 ^ 32`. Nothing overflows
where the base is below `2 ^ 32` seconds, and later waits are not shorter. -/
theorem retry_law {backoff : Backoff} (short : backoff.Below (2 ^ 32)) (maxAttempts : UInt32)
    (outcomes : Nat → Outcome) (call : Call) (bearer : Option String) :
    let most := max 1 maxAttempts.toNat
    let program := retry maxAttempts backoff send call bearer
    program = (stack [.retry maxAttempts.toNat backoff.counted] call bearer).andThen
        (fun outcome => .done (some outcome)) ∧
      (∃ made, Tried outcomes most made ∧
        (∀ position, ¬ Passing (outcomes position) →
          (∀ number, number < position → Passing (outcomes number)) →
            made = min most (position + 1)) ∧
        ((∀ number, number < most → Passing (outcomes number)) → made = most) ∧
        program.run (I := Needs) (follow outcomes) 0 = (some (outcomes (made - 1)), made) ∧
        program.transcript (I := Needs) (follow outcomes) 0 =
          sent call bearer (outcomes 0) ::
            repeated call bearer outcomes backoff.counted 1 (made - 1)) ∧
      (∀ number, backoff.counted.delay number =
        match backoff with
        | .none => 0
        | .exponential base => base.total * min (2 ^ (number - 1)) (2 ^ 32 - 1)) ∧
      ∀ first second, first ≤ second →
        backoff.counted.delay first ≤ backoff.counted.delay second := by
  intro most program
  have same : program = (stack [.retry maxAttempts.toNat backoff.counted] call bearer).andThen
      (fun outcome => .done (some outcome)) := retry_eq short maxAttempts send call bearer
  refine ⟨same, ?_, ?_, fun _ _ => backoff.counted.delay_mono⟩
  · obtain ⟨retries, bounded, passing, final, asked, ran⟩ :=
      exists_runs outcomes backoff.counted call bearer (most - 1) 0
    simp only [Nat.zero_add] at passing final ran
    have left : most - 1 + 1 = most := Nat.sub_add_cancel (Nat.le_max_left 1 _)
    have tried : Tried outcomes most (retries + 1) := by
      refine ⟨Nat.succ_pos _, by omega, fun number less => passing number (by omega), ?_⟩
      exact fun fewer => final (by omega)
    have attempted : program =
        (Layer.attempts backoff.counted (send call bearer) (most - 1) 1).andThen
          (fun outcome => .done (some outcome)) := by
      rw [same, show most = max maxAttempts.toNat 1 from Nat.max_comm _ _]
      rfl
    refine ⟨retries + 1, tried, fun _ => tried.eq_min, tried.eq_most, ?_, ?_⟩
    · rw [attempted]
      refine (run_andThen (I := Needs) (follow outcomes) _ _ 0).trans ?_
      rw [ran]
      rfl
    · rw [attempted]
      refine (transcript_andThen (I := Needs) (follow outcomes) _ _ 0).trans ?_
      rw [asked]
      exact List.append_nil _
  · intro number
    cases backoff with
    | none => rfl
    | exponential base => rfl

/-- The connection fails twice, and then there is an answer, whatever its status. -/
def failingTwice (number : Nat) : Outcome :=
  if number < 2 then .error (.connection "refused") else .ok ⟨500, "boom"⟩

/-- A second, doubled after each attempt. -/
def doubled : Backoff :=
  .exponential (.ofSeconds 1)

theorem retry_law_failingTwice :
    doubled.Below (2 ^ 32) ∧
      (retry 5 doubled send (.getById "7") none).run (I := Needs) (follow failingTwice) 0 =
        (some (.ok ⟨500, "boom"⟩), 3) ∧
      (retry 5 doubled send (.getById "7") none).transcript (I := Needs) (follow failingTwice) 0 =
        [sent (.getById "7") none (.error (.connection "refused")), waited (10 ^ 9),
          sent (.getById "7") none (.error (.connection "refused")), waited (2 * 10 ^ 9),
          sent (.getById "7") none (.ok ⟨500, "boom"⟩)] := by
  have short : doubled.Below (2 ^ 32) := by
    change 1 < 2 ^ 32
    decide
  obtain ⟨_, ⟨made, _, reached, _, ran, asked⟩, _⟩ :=
    retry_law short 5 failingTwice (.getById "7") none
  have three : made = 3 := reached 2 (not_passing_ok _) fun number less =>
    ⟨"refused", .inl (if_pos less)⟩
  subst three
  exact ⟨short, ran, asked⟩

end Words

end ManifestVariables
