import Mathlib.Algebra.BigOperators.Group.List.Basic
import ManifestVariables.Proofs.Program.Questions
import ManifestVariables.Proofs.Transport.Account
import ManifestVariables.Transport.Script

/-!
# Calls through a stack of layers

However layers are stacked, a call through them ends after a bounded number of calls of the
innermost transport, all of which repeat it. Where a layer brings a token, each of them
carries the token that was given last, and no refused token is left for the caller to deal
with (`Layer.stack_bounded`). Each fact goes from the rest of the stack to one more layer by
the account of that layer.
-/

namespace ManifestVariables.Layer

open Program Transport

variable {transcript first second : List (Exchange Needs)} {outcome : Outcome}

/-- The most calls of what it is around that a layer makes. -/
def fanOut : Layer → Nat
  | retry maxAttempts _ => max 1 maxAttempts
  | auth _ => 2

/-- Some layer brings a token. -/
def Authenticated (layers : List Layer) : Prop :=
  ∃ source, auth source ∈ layers

/-- The call that is made, and the token that it carries. -/
def send? : Need → Option (Call × Option String)
  | .send call bearer => some (call, bearer)
  | _ => none

/-- The token that is given, and its source. -/
def given? : Exchange Needs → Option (Nat × String)
  | ⟨.token source, (reply : Except TransportError String)⟩
  | ⟨.refresh source, (reply : Except TransportError String)⟩ =>
    reply.toOption.map (source, ·)
  | _ => none

/-- The calls of the innermost transport, each with the token that it carries. -/
def sends (transcript : List (Exchange Needs)) : List (Call × Option String) :=
  transcript.filterMap fun exchange => send? exchange.question

/-- The tokens that are given, each with its source. -/
def given (transcript : List (Exchange Needs)) : List (Nat × String) :=
  transcript.filterMap given?

/-- Whether a source is asked for its current token. -/
def asksToken (source : Nat) (exchange : Exchange Needs) : Bool :=
  match (exchange.question : Need) with
  | .token asked => asked = source
  | _ => false

/-- Whether a source is asked for a new token. -/
def asksRefresh (source : Nat) (exchange : Exchange Needs) : Bool :=
  match (exchange.question : Need) with
  | .refresh asked => asked = source
  | _ => false

@[simp] theorem sends_append : sends (first ++ second) = sends first ++ sends second :=
  List.filterMap_append

@[simp] theorem given_append : given (first ++ second) = given first ++ given second :=
  List.filterMap_append

@[simp] theorem sends_gave_cons (source : Nat) (reply : Except TransportError String) :
    sends (gave source reply :: transcript) = sends transcript := rfl

@[simp] theorem sends_renewed_cons (source : Nat) (reply : Except TransportError String) :
    sends (renewed source reply :: transcript) = sends transcript := rfl

@[simp] theorem sends_waited_cons (milliseconds : Nat) :
    sends (waited milliseconds :: transcript) = sends transcript := rfl

theorem mem_sends {call : Call} {bearer : Option String}
    (member : sent call bearer outcome ∈ transcript) : (call, bearer) ∈ sends transcript :=
  List.mem_filterMap.mpr ⟨_, member, rfl⟩

/-! ## What a stack asks for -/

/-- A stack needs a call of the innermost transport, tokens of its layers and time. -/
def Needed (layers : List Layer) (call : Call) (bearer : Option String) : Need → Prop
  | .send made carried => made = call ∧ (¬ Authenticated layers → carried = bearer)
  | .token source | .refresh source => auth source ∈ layers
  | .sleep _ => True

theorem asks_attempts {allowed : Need → Prop} {backoff : Backoff} {attempt : Program Needs Outcome}
    (asks : attempt.Asks allowed) (waits : ∀ milliseconds, allowed (.sleep milliseconds))
    (remaining number : Nat) : (attempts backoff attempt remaining number).Asks allowed := by
  induction remaining generalizing number with
  | zero => exact asks
  | succ remaining ih =>
    refine asks.andThen fun outcome => ?_
    cases outcome with
    | ok response => trivial
    | error failure =>
      dsimp only
      split
      · exact ⟨waits _, fun _ => ih _⟩
      · trivial

theorem asks_withToken {allowed : Need → Prop} {source : Nat}
    {call : String → Program Needs Outcome} (asks : ∀ token, (call token).Asks allowed)
    (tokens : allowed (.token source)) (renewals : allowed (.refresh source)) :
    (withToken source call).Asks allowed := by
  refine ⟨tokens, fun current => ?_⟩
  cases (current : Except TransportError String) with
  | error failure => trivial
  | ok token =>
    refine (asks token).andThen fun outcome => ?_
    cases outcome with
    | error failure => trivial
    | ok response =>
      dsimp only
      split
      · trivial
      · refine ⟨renewals, fun fresh => ?_⟩
        cases (fresh : Except TransportError String) with
        | error failure => trivial
        | ok token =>
          refine (asks token).andThen fun outcome => ?_
          cases outcome with
          | error failure => trivial
          | ok response =>
            dsimp only
            split <;> trivial

/-- One more layer around a stack needs what the stack does, where the caller's token comes
through to it unless a layer brings one. -/
theorem Needed.cons {layer : Layer} {rest : List Layer} {call : Call}
    {inner bearer : Option String} {need : Need} (needed : Needed rest call inner need)
    (through : ¬ Authenticated (layer :: rest) → inner = bearer) :
    Needed (layer :: rest) call bearer need := by
  cases need with
  | send made carried =>
    refine ⟨needed.1, fun without => (needed.2 ?_).trans (through without)⟩
    rintro ⟨source, member⟩
    exact without ⟨source, List.mem_cons_of_mem _ member⟩
  | token source => exact List.mem_cons_of_mem _ needed
  | refresh source => exact List.mem_cons_of_mem _ needed
  | sleep => trivial

theorem asks_stack (layers : List Layer) (call : Call) (bearer : Option String) :
    (stack layers call bearer).Asks (Needed layers call bearer) := by
  induction layers generalizing bearer with
  | nil => exact ⟨⟨rfl, fun _ => rfl⟩, fun _ => trivial⟩
  | cons layer rest ih =>
    cases layer with
    | retry maxAttempts backoff =>
      exact asks_attempts ((ih bearer).mono fun _ needed => needed.cons fun _ => rfl)
        (fun _ => trivial) _ _
    | auth source =>
      refine asks_withToken (fun token => (ih (some token)).mono fun _ needed => ?_)
        List.mem_cons_self List.mem_cons_self
      exact needed.cons fun without => (without ⟨source, List.mem_cons_self⟩).elim

section Stack

variable {layers : List Layer} {call : Call} {bearer : Option String}
  (ended : Ends (stack layers call bearer) transcript outcome)

include ended

theorem eq_call_of_ends_stack {made : Call} {carried : Option String}
    (member : (made, carried) ∈ sends transcript) : made = call := by
  obtain ⟨⟨need, reply⟩, among, found⟩ := List.mem_filterMap.mp member
  have needed := (asks_stack layers call bearer).of_reaches ended _ among
  cases need with
  | send => cases found; exact needed.1
  | _ => cases found

theorem auth_mem_of_ends_stack {source : Nat} {token : String}
    (member : (source, token) ∈ given transcript) : auth source ∈ layers := by
  obtain ⟨⟨need, reply⟩, among, found⟩ := List.mem_filterMap.mp member
  have needed := (asks_stack layers call bearer).of_reaches ended _ among
  cases need with
  | token =>
    obtain ⟨_, _, same⟩ := Option.map_eq_some_iff.mp found
    cases same
    exact needed
  | refresh =>
    obtain ⟨_, _, same⟩ := Option.map_eq_some_iff.mp found
    cases same
    exact needed
  | _ => cases found

/-- Layers that bring no token ask for none and leave the caller's in its place. -/
theorem of_not_authenticated (without : ¬ Authenticated layers) :
    given transcript = [] ∧ ∀ made carried reply, sent made carried reply ∈ transcript →
      carried = bearer := by
  refine ⟨List.eq_nil_iff_forall_not_mem.mpr fun ⟨source, token⟩ member =>
    without ⟨source, auth_mem_of_ends_stack ended member⟩, ?_⟩
  intro made carried reply member
  exact ((asks_stack layers call bearer).of_reaches ended _ member).2 without

theorem countP_asks_eq_zero {source : Nat} (foreign : auth source ∉ layers) :
    transcript.countP (asksToken source) = 0 ∧ transcript.countP (asksRefresh source) = 0 := by
  have needed := (asks_stack layers call bearer).of_reaches ended
  constructor
  all_goals
    refine List.countP_eq_zero.mpr fun ⟨need, reply⟩ member asked => ?_
    have here := needed _ member
    cases need <;> simp_all [asksToken, asksRefresh, Needed]

end Stack

/-! ## The number of calls -/

theorem Attempting.length_sends_le {backoff : Backoff} {attempt : Program Needs Outcome}
    {remaining number bound : Nat}
    (attempting : Attempting backoff attempt remaining number transcript outcome)
    (each : ∀ transcript outcome, Ends attempt transcript outcome →
      (sends transcript).length ≤ bound) :
    (sends transcript).length ≤ (remaining + 1) * bound := by
  induction attempting with
  | last ended _ =>
    exact Nat.le_trans (each _ _ ended) (Nat.le_mul_of_pos_left _ (Nat.succ_pos _))
  | again ended _ _ ih =>
    have here := each _ _ ended
    rw [sends_append, sends_waited_cons, List.length_append, Nat.succ_mul]
    omega

theorem UsingToken.length_sends_le {source bound : Nat} {call : String → Program Needs Outcome}
    (used : UsingToken source call transcript outcome)
    (each : ∀ token transcript outcome, Ends (call token) transcript outcome →
      (sends transcript).length ≤ bound) :
    (sends transcript).length ≤ 2 * bound := by
  cases used with
  | unavailable => exact Nat.zero_le _
  | failed ended =>
    rw [sends_gave_cons]
    exact Nat.le_trans (each _ _ _ ended) (Nat.le_mul_of_pos_left _ (by decide))
  | accepted ended =>
    rw [sends_gave_cons]
    exact Nat.le_trans (each _ _ _ ended) (Nat.le_mul_of_pos_left _ (by decide))
  | unrenewed ended =>
    have here := each _ _ _ ended
    rw [sends_gave_cons, sends_append, List.length_append, sends_renewed_cons]
    exact Nat.le_trans here (Nat.le_mul_of_pos_left _ (by decide))
  | again ended _ recalled =>
    have here := each _ _ _ ended
    have there := each _ _ _ recalled
    rw [sends_gave_cons, sends_append, List.length_append, sends_renewed_cons]
    omega

/-- A call through a stack makes at most as many calls of the innermost transport as the
layers make together. -/
theorem length_sends_le {layers : List Layer} {call : Call} {bearer : Option String}
    (ended : Ends (stack layers call bearer) transcript outcome) :
    (sends transcript).length ≤ (layers.map fanOut).prod := by
  induction layers generalizing bearer transcript outcome with
  | nil =>
    obtain ⟨_, _, rfl, tail⟩ := (ends_ask_iff (I := Needs)).mp ended
    obtain ⟨rfl, _⟩ := ends_done_iff.mp tail
    exact Nat.le_refl 1
  | cons layer rest ih =>
    rw [List.map_cons, List.prod_cons]
    cases layer with
    | retry maxAttempts backoff =>
      have most : max maxAttempts 1 - 1 + 1 = fanOut (.retry maxAttempts backoff) := by
        simp only [fanOut]
        omega
      rw [← most]
      exact (attempting_of_ends ended).length_sends_le fun _ _ => ih
    | auth source => exact (usingToken_of_ends ended).length_sends_le fun _ _ _ => ih

/-! ## Tokens -/

/-- Each call carries the token that was given last; `before` came first. -/
def Bearing (before transcript : List (Exchange Needs)) : Prop :=
  ∀ first call bearer reply second, transcript = first ++ sent call bearer reply :: second →
    ∃ source token, (given (before ++ first)).getLast? = some (source, token) ∧
      bearer = some token

theorem Bearing.append {before : List (Exchange Needs)} (bearing : Bearing before first)
    (followed : Bearing (before ++ first) second) : Bearing before (first ++ second) := by
  intro left call bearer reply right same
  rcases List.append_eq_append_iff.mp same with ⟨between, rfl, later⟩ | ⟨between, rfl, earlier⟩
  · rw [← List.append_assoc]
    exact followed between call bearer reply right later
  · cases between with
    | nil =>
      have found := followed [] call bearer reply right earlier.symm
      simpa only [List.append_nil] using found
    | cons exchange between =>
      obtain ⟨rfl, -⟩ := List.cons.inj earlier
      exact bearing left call bearer reply between rfl

theorem Bearing.of_sends_eq_nil {before : List (Exchange Needs)} (none : sends transcript = []) :
    Bearing before transcript := by
  rintro first call bearer reply second rfl
  have made : (call, bearer) ∈ sends (first ++ sent call bearer reply :: second) :=
    mem_sends (List.mem_append_right _ List.mem_cons_self)
  rw [none] at made
  cases made

theorem Bearing.of_given {before : List (Exchange Needs)} {source : Nat} {token : String}
    (last : (given before).getLast? = some (source, token)) (none : given transcript = [])
    (carried : ∀ call bearer reply, sent call bearer reply ∈ transcript → bearer = some token) :
    Bearing before transcript := by
  rintro first call bearer reply second rfl
  refine ⟨source, token, ?_, carried call bearer reply (List.mem_append_right _ List.mem_cons_self)⟩
  rw [given_append] at none ⊢
  rw [(List.append_eq_nil_iff.mp none).1, List.append_nil]
  exact last

theorem Attempting.bearing {backoff : Backoff} {attempt : Program Needs Outcome}
    {remaining number : Nat} {before : List (Exchange Needs)}
    (attempting : Attempting backoff attempt remaining number transcript outcome)
    (each : ∀ before transcript outcome, Ends attempt transcript outcome →
      Bearing before transcript) : Bearing before transcript := by
  induction attempting generalizing before with
  | last ended _ => exact each _ _ _ ended
  | @again remaining number first second failed outcome ended _ _ ih =>
    have wait : Bearing (before ++ first) [waited (backoff.delay number)] := .of_sends_eq_nil rfl
    exact (each _ _ _ ended).append (wait.append ih)

theorem UsingToken.bearing {source : Nat} {call : String → Program Needs Outcome}
    {before : List (Exchange Needs)} (used : UsingToken source call transcript outcome)
    (each : ∀ token before transcript outcome, (given before).getLast? = some (source, token) →
      Ends (call token) transcript outcome → Bearing before transcript) :
    Bearing before transcript := by
  have onward {token : String} {calling : List (Exchange Needs)} {outcome : Outcome}
      (ended : Ends (call token) calling outcome) :
      Bearing before (gave source (.ok token) :: calling) := by
    have giving : Bearing before [gave source (.ok token)] := .of_sends_eq_nil rfl
    refine giving.append (each token _ _ _ ?_ ended)
    rw [given_append]
    exact List.getLast?_concat
  cases used with
  | unavailable => exact .of_sends_eq_nil rfl
  | failed ended => exact onward ended
  | accepted ended => exact onward ended
  | unrenewed ended => exact (onward ended).append (.of_sends_eq_nil rfl)
  | @again token other calling recalling response outcome ended _ recalled =>
    have renewing : Bearing (before ++ (gave source (.ok token) :: calling))
        [renewed source (.ok other)] := .of_sends_eq_nil rfl
    refine (onward ended).append (renewing.append (each other _ _ _ ?_ recalled))
    rw [given_append]
    exact List.getLast?_concat

/-- Where a layer brings a token, each call carries the token that was given last. -/
theorem bearing_stack {layers : List Layer} {call : Call} {bearer : Option String}
    {before : List (Exchange Needs)} (authenticated : Authenticated layers)
    (ended : Ends (stack layers call bearer) transcript outcome) : Bearing before transcript := by
  induction layers generalizing bearer before transcript outcome with
  | nil =>
    obtain ⟨_, member⟩ := authenticated
    cases member
  | cons layer rest ih =>
    cases layer with
    | retry maxAttempts backoff =>
      obtain ⟨source, member⟩ := authenticated
      have within : Authenticated rest := ⟨source, by simpa using member⟩
      exact (attempting_of_ends ended).bearing fun _ _ _ => ih within
    | auth source =>
      refine (usingToken_of_ends ended).bearing fun token before transcript outcome last ended => ?_
      by_cases within : Authenticated rest
      · exact ih within ended
      · obtain ⟨none, carried⟩ := of_not_authenticated ended within
        exact .of_given last none carried

theorem afterRenewal_ne_refused {response : Response} (refused : response.isUnauthorized = true) :
    afterRenewal outcome ≠ .ok response := by
  intro same
  cases outcome with
  | error failure => cases same
  | ok other =>
    simp only [afterRenewal] at same
    split at same
    · cases same
    next accepted =>
      cases same
      exact accepted refused

theorem UsingToken.ne_refused {source : Nat} {call : String → Program Needs Outcome}
    (used : UsingToken source call transcript outcome) {response : Response}
    (refused : response.isUnauthorized = true) : outcome ≠ .ok response := by
  intro same
  cases used with
  | unavailable => cases same
  | failed => cases same
  | accepted _ authorized =>
    cases same
    rw [refused] at authorized
    cases authorized
  | unrenewed => cases same
  | again => exact afterRenewal_ne_refused refused same

theorem Attempting.exists_ends {backoff : Backoff} {attempt : Program Needs Outcome}
    {remaining number : Nat}
    (attempting : Attempting backoff attempt remaining number transcript outcome) :
    ∃ transcript, Ends attempt transcript outcome := by
  induction attempting with
  | last ended _ => exact ⟨_, ended⟩
  | again _ _ _ ih => exact ih

/-- Where a layer brings a token, no answer that refuses one comes out. -/
theorem ne_refused_of_ends_stack {layers : List Layer} {call : Call} {bearer : Option String}
    (authenticated : Authenticated layers)
    (ended : Ends (stack layers call bearer) transcript outcome) {response : Response}
    (refused : response.isUnauthorized = true) : outcome ≠ .ok response := by
  induction layers generalizing bearer transcript outcome with
  | nil =>
    obtain ⟨_, member⟩ := authenticated
    cases member
  | cons layer rest ih =>
    cases layer with
    | retry maxAttempts backoff =>
      obtain ⟨source, member⟩ := authenticated
      obtain ⟨_, attempted⟩ := (attempting_of_ends ended).exists_ends
      exact ih ⟨source, by simpa using member⟩ attempted
    | auth source => exact (usingToken_of_ends ended).ne_refused refused

/-- Where a layer brings a token, the caller's does not matter. -/
theorem stack_eq_of_authenticated {layers : List Layer} (authenticated : Authenticated layers)
    (call : Call) (bearer other : Option String) :
    stack layers call bearer = stack layers call other := by
  induction layers with
  | nil =>
    obtain ⟨_, member⟩ := authenticated
    cases member
  | cons layer rest ih =>
    cases layer with
    | retry maxAttempts backoff =>
      obtain ⟨source, member⟩ := authenticated
      simp only [stack, apply]
      rw [ih ⟨source, by simpa using member⟩]
    | auth source => rfl

/-! ## Attempts with a token -/

/-- One attempt of a call. -/
structure Attempt where
  transcript : List (Exchange Needs)
  outcome : Outcome

/-- The exchanges of attempts that failed and of the last one, with the waits between them. -/
def joined (backoff : Backoff) (last : Attempt) :
    (number : Nat) → List Attempt → List (Exchange Needs)
  | _, [] => last.transcript
  | number, attempt :: later =>
    attempt.transcript ++ waited (backoff.delay number) :: joined backoff last (number + 1) later

/-- All attempts but the last failed for the connection, and so did the last only if there
were as many as allowed. -/
theorem Attempting.exists_attempts {backoff : Backoff} {attempt : Program Needs Outcome}
    {remaining number : Nat}
    (attempting : Attempting backoff attempt remaining number transcript outcome) :
    ∃ earlier last, transcript = joined backoff last number earlier ∧ last.outcome = outcome ∧
      earlier.length ≤ remaining ∧ (Passing outcome → earlier.length = remaining) ∧
      (∀ made ∈ earlier, Passing made.outcome) ∧
      ∀ made ∈ earlier ++ [last], Ends attempt made.transcript made.outcome := by
  induction attempting with
  | @last remaining number transcript outcome ended final =>
    refine ⟨[], ⟨transcript, outcome⟩, rfl, rfl, Nat.zero_le _, fun passing => (final passing).symm,
      nofun, ?_⟩
    rintro made member
    rw [List.mem_singleton.mp member]
    exact ended
  | @again remaining number first second failed outcome ended passing tail ih =>
    obtain ⟨earlier, last, rfl, same, bounded, exhausted, failing, each⟩ := ih
    refine ⟨⟨first, failed⟩ :: earlier, last, rfl, same, Nat.succ_le_succ bounded,
      fun passing => congrArg _ (exhausted passing), ?_, ?_⟩
    · exact List.forall_mem_cons.mpr ⟨passing, failing⟩
    · exact List.forall_mem_cons.mpr ⟨ended, each⟩

theorem UsingToken.countP_asks {source : Nat} {call : String → Program Needs Outcome}
    (used : UsingToken source call transcript outcome)
    (foreign : ∀ token transcript outcome, Ends (call token) transcript outcome →
      transcript.countP (asksToken source) = 0 ∧ transcript.countP (asksRefresh source) = 0) :
    transcript.countP (asksToken source) = 1 ∧ transcript.countP (asksRefresh source) ≤ 1 := by
  cases used with
  | unavailable => simp [asksToken, asksRefresh]
  | failed ended =>
    obtain ⟨tokens, renewals⟩ := foreign _ _ _ ended
    simp [tokens, renewals, asksToken, asksRefresh]
  | accepted ended =>
    obtain ⟨tokens, renewals⟩ := foreign _ _ _ ended
    simp [tokens, renewals, asksToken, asksRefresh]
  | unrenewed ended =>
    obtain ⟨tokens, renewals⟩ := foreign _ _ _ ended
    simp [tokens, renewals, asksToken, asksRefresh]
  | again ended _ recalled =>
    obtain ⟨tokens, renewals⟩ := foreign _ _ _ ended
    obtain ⟨moreTokens, moreRenewals⟩ := foreign _ _ _ recalled
    simp [tokens, renewals, moreTokens, moreRenewals, asksToken, asksRefresh]

/-- A call through a stack of layers ends after at most as many calls of the innermost
transport as its layers make together, and each of them is this call. Where a layer brings a
token, no answer that refuses one comes out, each call carries the token that a source of a
layer gave last, and the caller's token does not matter. Where attempts are made with a token,
they are at most as many as allowed; each asks for the token once and for a new one at most
once, and only after a failure of the connection is there another. -/
theorem stack_bounded {σ : Type} (answer : (need : Need) → σ → need.Reply × σ) (state : σ)
    (layers : List Layer) (call : Call) (bearer : Option String) :
    let exchanges := Program.transcript (I := Needs) answer (stack layers call bearer) state
    let outcome := (run (I := Needs) answer (stack layers call bearer) state).1
    (sends exchanges).length ≤ (layers.map fanOut).prod ∧
    (∀ made carried, (made, carried) ∈ sends exchanges → made = call) ∧
    (Authenticated layers →
      (∀ response, outcome = .ok response → response.status ≠ 401) ∧
      (∀ first carried reply second, exchanges = first ++ sent call carried reply :: second →
        ∃ source token, auth source ∈ layers ∧ (given first).getLast? = some (source, token) ∧
          carried = some token) ∧
      ∀ other, stack layers call other = stack layers call bearer) ∧
    ∀ maxAttempts backoff source rest, layers = retry maxAttempts backoff :: auth source :: rest →
      ∃ earlier last, exchanges = joined backoff last 1 earlier ∧ last.outcome = outcome ∧
        earlier.length + 1 ≤ max 1 maxAttempts ∧
        (Passing outcome → earlier.length + 1 = max 1 maxAttempts) ∧
        (∀ attempt ∈ earlier, Passing attempt.outcome) ∧
        ∀ attempt ∈ earlier ++ [last],
          UsingToken source (fun token => stack rest call (some token)) attempt.transcript
            attempt.outcome ∧
          (auth source ∉ rest → attempt.transcript.countP (asksToken source) = 1 ∧
            attempt.transcript.countP (asksRefresh source) ≤ 1) := by
  intro exchanges outcome
  have ended : Ends (stack layers call bearer) exchanges outcome :=
    ends_transcript (I := Needs) answer _ state
  refine ⟨length_sends_le ended, fun _ _ => eq_call_of_ends_stack ended, ?_, ?_⟩
  · intro authenticated
    refine ⟨?_, ?_, fun other => stack_eq_of_authenticated authenticated call other bearer⟩
    · intro response same refused
      exact ne_refused_of_ends_stack authenticated ended
        (by simpa [Response.isUnauthorized] using refused) same
    · intro first carried reply second split
      have bearing : Bearing [] exchanges := bearing_stack authenticated ended
      obtain ⟨source, token, last, same⟩ := bearing first call carried reply second split
      have among : (source, token) ∈ given exchanges := by
        rw [split, given_append]
        exact List.mem_append_left _ (List.mem_of_getLast? last)
      exact ⟨source, token, auth_mem_of_ends_stack ended among, last, same⟩
  · rintro maxAttempts backoff source rest rfl
    obtain ⟨earlier, last, joining, same, bounded, exhausted, failing, each⟩ :=
      (attempting_of_ends ended).exists_attempts
    refine ⟨earlier, last, joining, same, by omega,
      fun passing => by have := exhausted passing; omega, failing, ?_⟩
    intro attempt member
    have attempted := usingToken_of_ends (each attempt member)
    exact ⟨attempted, fun foreign => attempted.countP_asks fun _ _ _ within =>
      countP_asks_eq_zero within foreign⟩

/-- The connection fails once, and then the first token is refused. -/
def sampleScript : Script where
  outcomes := [.error (.connection "reset"), .ok ⟨401, "expired"⟩, .ok ⟨200, "value"⟩]
  tokens := [.queued [.ok "first", .ok "second"] [.ok "third"]]
  log := []
  waited := 0

theorem stack_bounded_sample :
    let layers := [retry 2 .standard, auth 0]
    let exchanges :=
      Program.transcript (I := Needs) Script.answer (stack layers (.getById "7") none) sampleScript
    (sends exchanges).map Prod.snd = [some "first", some "second", some "third"] ∧
      Authenticated layers ∧ (sends exchanges).length ≤ 4 ∧
      (∀ made carried, (made, carried) ∈ sends exchanges → made = .getById "7") ∧
      (∀ bearer response, (run (I := Needs) Script.answer (stack layers (.getById "7") bearer)
        sampleScript).1 = .ok response → response.status ≠ 401) ∧
      ∃ earlier last, exchanges = joined .standard last 1 earlier ∧ earlier.length + 1 ≤ 2 ∧
        ∀ attempt ∈ earlier ++ [last], attempt.transcript.countP (asksToken 0) = 1 := by
  have authenticated : Authenticated [retry 2 .standard, auth 0] := ⟨0, by simp⟩
  obtain ⟨bounded, same, _, attempted⟩ :=
    stack_bounded Script.answer sampleScript [retry 2 .standard, auth 0] (.getById "7") none
  refine ⟨rfl, authenticated, bounded, same, fun bearer => ?_, ?_⟩
  · exact ((stack_bounded Script.answer sampleScript [retry 2 .standard, auth 0] (.getById "7")
      bearer).2.2.1 authenticated).1
  · obtain ⟨earlier, last, joining, _, most, _, _, each⟩ := attempted 2 .standard 0 [] rfl
    exact ⟨earlier, last, joining, most,
      fun attempt member => ((each attempt member).2 List.not_mem_nil).1⟩

end ManifestVariables.Layer
