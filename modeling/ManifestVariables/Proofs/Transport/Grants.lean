import ManifestVariables.Proofs.Program.Transcript
import ManifestVariables.Transport.Token

/-!
# Calls for a token

`TokenCache.Grants` says when an answer of the endpoint grants a token.
`TokenCache.Calling` lists the ways in which a call for a token ends, each with its exchanges:
a grant that is kept and fresh is used again, and otherwise the endpoint is asked, once.
-/

namespace ManifestVariables.TokenCache

open Program

deriving instance DecidableEq for GrantRecord

/-- An answer of the endpoint with the reason phrase of its status. -/
abbrev Reply :=
  Except TransportError (Response × String)

/-- A look at the clock. -/
abbrev clock (instant : Nat) : Exchange Needs :=
  ⟨(.now : Need), instant⟩

/-- A request to the endpoint and its answer. -/
abbrev requested (reply : Reply) : Exchange Needs :=
  ⟨(.grant : Need), reply⟩

/-- An answer that came at an instant grants a token: its status is one of success, its body has
a token, and the type of the token is that of a bearer, in letters of any case, or not given. -/
inductive Grants (instant : Nat) : Reply → Grant → Prop where
  | intro {response : Response} {reason : String} {record : GrantRecord}
      (success : 200 ≤ response.status ∧ response.status < 300)
      (read : readRecord? response.body = some record)
      (bearer : ∀ type, record.type = some type → type.toLower = "bearer") :
      Grants instant (.ok (response, reason))
        ⟨record.token, record.expiresIn.map fun seconds => instant + seconds * second⟩

/-- The clock can hold the instant at which a grant ends. -/
def Representable (grant : Grant) : Prop :=
  ∀ ending, grant.expiresAt = some ending → ending < clockEnd

/-- A grant lasts for more than a minute from an instant on. -/
def Fresh (instant : Nat) (grant : Grant) : Prop :=
  ∀ ending, grant.expiresAt = some ending → instant + 60 * second < ending

variable {instant : Nat} {reply : Reply} {grant other : Grant} {response : Response}
  {reason type : String} {record : GrantRecord}

theorem isFresh_iff : isFresh instant grant = true ↔ Fresh instant grant := by
  unfold isFresh Fresh
  cases grant.expiresAt with
  | none => simp
  | some ending =>
    simp only [Option.some.injEq, forall_eq']
    exact decide_eq_true_iff

theorem unusable?_eq_none_iff {type : Option String} :
    unusable? type = none ↔ ∀ name, type = some name → name.toLower = "bearer" := by
  simp [unusable?, Option.filter_eq_none_iff]

/-- An answer grants one token. -/
theorem Grants.eq (granted : Grants instant reply grant) (again : Grants instant reply other) :
    grant = other := by
  obtain ⟨_, read, _⟩ := granted
  cases again with
  | intro _ same _ =>
    cases read.symm.trans same
    rfl

theorem readGrant_of_grants (granted : Grants instant reply grant) :
    Representable grant ∧ readGrant instant reply = .ok (.ok grant) ∨
      ¬ Representable grant ∧ readGrant instant reply = .error .clockOverflow := by
  obtain ⟨success, read, bearer⟩ := granted
  simp only [readGrant, Response.isSuccess_iff.mpr success, read, unusable?_eq_none_iff.mpr bearer,
    Representable]
  rename_i record
  cases record.expiresIn with
  | none => simp
  | some seconds =>
    by_cases held : instant + seconds * second < clockEnd <;> simp [held]

/-- What is wrong with an answer that grants no token is told. -/
theorem readGrant_of_not_grants (refused : ∀ grant, ¬ Grants instant reply grant) :
    ∃ failure, readGrant instant reply = .ok (.error failure) := by
  unfold readGrant
  split
  next failure => exact ⟨failure, rfl⟩
  next response reason =>
    split
    · exact ⟨_, rfl⟩
    next success =>
      split
      · exact ⟨_, rfl⟩
      next record read =>
        split
        · exact ⟨_, rfl⟩
        next usable =>
          have success : response.isSuccess = true := by simpa using success
          exact absurd (.intro (Response.isSuccess_iff.mp success) read (unusable?_eq_none_iff.mp usable))
            (refused _)

/-- A token of another type than that of a bearer is a failure that names the type. -/
theorem readGrant_of_foreign (success : 200 ≤ response.status ∧ response.status < 300)
    (read : readRecord? response.body = some record) (typed : record.type = some type)
    (foreign : type.toLower ≠ "bearer") :
    readGrant instant (.ok (response, reason)) =
      .ok (.error (.tokenRequest s!"Unsupported token type '{type}'")) := by
  have unusable : unusable? record.type = some type := by simp [unusable?, typed, foreign]
  simp [readGrant, Response.isSuccess_iff.mpr success, read, unusable]

/-- Asking the endpoint for a grant, with something to keep if it gives none. -/
inductive Requesting (kept : TokenCache) : List (Exchange Needs) → Answer → Prop where
  | granted {instant : Nat} {reply : Reply} {grant : Grant}
      (grants : Grants instant reply grant) (representable : Representable grant) :
      Requesting kept [requested reply, clock instant] (.ok (.ok grant.token, ⟨some grant⟩))
  | beyond {instant : Nat} {reply : Reply} {grant : Grant}
      (grants : Grants instant reply grant) (beyond : ¬ Representable grant) :
      Requesting kept [requested reply, clock instant] (.error .clockOverflow)
  | refused {instant : Nat} {reply : Reply} {failure : TransportError}
      (refused : ∀ grant, ¬ Grants instant reply grant)
      (told : readGrant instant reply = .ok (.error failure)) :
      Requesting kept [requested reply, clock instant] (.ok (.error failure, kept))

variable {kept cache : TokenCache} {exchanges : List (Exchange Needs)} {answer : Answer}

/-- What the endpoint grants is given and kept. -/
theorem ends_request_of_grants (grants : Grants instant reply grant)
    (representable : Representable grant) :
    Ends (request kept) [requested reply, clock instant]
      (.ok (.ok grant.token, ⟨some grant⟩)) := by
  have read : readGrant instant reply = .ok (.ok grant) := by
    rcases readGrant_of_grants grants with ⟨-, read⟩ | ⟨beyond, -⟩
    · exact read
    · exact absurd representable beyond
  refine .ask (.ask ?_)
  rw [read]
  exact .refl _

theorem requesting_of_ends (ended : Ends (request kept) exchanges answer) :
    Requesting kept exchanges answer := by
  obtain ⟨reply, _, rfl, followed⟩ := (ends_ask_iff (I := Needs)).mp ended
  obtain ⟨instant, _, rfl, last⟩ := (ends_ask_iff (I := Needs)).mp followed
  obtain ⟨rfl, rfl⟩ := ends_done_iff.mp last
  change Reply at reply
  change Nat at instant
  by_cases grants : ∃ grant, Grants instant reply grant
  · obtain ⟨grant, grants⟩ := grants
    rcases readGrant_of_grants grants with ⟨representable, read⟩ | ⟨beyond, read⟩
    · rw [read]
      exact .granted grants representable
    · rw [read]
      exact .beyond grants beyond
  · have refused : ∀ grant, ¬ Grants instant reply grant := not_exists.mp grants
    obtain ⟨failure, told⟩ := readGrant_of_not_grants refused
    rw [told]
    exact .refused refused told

/-- The two calls for a token. -/
inductive Operation where
  /-- Asks for a token. -/
  | token
  /-- Asks for another token than the last one. -/
  | refresh
deriving DecidableEq, Repr

def Operation.program : Operation → TokenCache → Program Needs Answer
  | token => TokenCache.token
  | refresh => TokenCache.refresh

/-- A call that looks at the clock, or not, and is going to ask the endpoint; if that grants
nothing, it leaves `kept`. -/
inductive Asking (cache : TokenCache) :
    Operation → (looked : List (Exchange Needs)) → (kept : TokenCache) → Prop where
  | unheld (empty : cache.grant = none) : Asking cache .token [] cache
  | stale {grant : Grant} {instant : Nat} (held : cache.grant = some grant)
      (stale : ¬ Fresh instant grant) : Asking cache .token [clock instant] cache
  | refresh : Asking cache .refresh [] ⟨none⟩

/-- Calling for a token. -/
inductive Calling (cache : TokenCache) : Operation → List (Exchange Needs) → Answer → Prop where
  | quiet {grant : Grant} {instant : Nat} (held : cache.grant = some grant)
      (fresh : Fresh instant grant) :
      Calling cache .token [clock instant] (.ok (.ok grant.token, cache))
  | asks {operation : Operation} {looked exchanges : List (Exchange Needs)} {kept : TokenCache}
      {answer : Answer} (asking : Asking cache operation looked kept)
      (requesting : Requesting kept exchanges answer) :
      Calling cache operation (looked ++ exchanges) answer

theorem calling_of_ends {operation : Operation}
    (ended : Ends (operation.program cache) exchanges answer) :
    Calling cache operation exchanges answer := by
  cases operation with
  | refresh => exact .asks .refresh (requesting_of_ends ended)
  | token =>
    rw [Operation.program, token] at ended
    cases held : cache.grant with
    | none =>
      rw [held] at ended
      exact .asks (.unheld held) (requesting_of_ends ended)
    | some grant =>
      rw [held] at ended
      obtain ⟨instant, rest, rfl, followed⟩ := (ends_ask_iff (I := Needs)).mp ended
      change Nat at instant
      by_cases fresh : isFresh instant grant = true
      · rw [if_pos fresh] at followed
        obtain ⟨rfl, rfl⟩ := ends_done_iff.mp followed
        exact .quiet held (isFresh_iff.mp fresh)
      · rw [if_neg fresh] at followed
        exact .asks (.stale held (mt isFresh_iff.mpr fresh)) (requesting_of_ends followed)

end ManifestVariables.TokenCache
