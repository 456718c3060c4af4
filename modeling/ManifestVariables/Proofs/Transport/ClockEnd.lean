import ManifestVariables.Proofs.Transport.TokenProtocol

/-!
# Grants that the clock cannot hold

An answer of the endpoint says for how many seconds its token is good, and the end of that time is
an instant of the clock. A call for a token crashes exactly if this instant is beyond the last one
that there is (`TokenCache.Overruns`). Nothing else that an endpoint can answer keeps a call from
coming to a token or a failure, and no call is spoiled by what earlier ones have left
(`TokenCache.answers_iff`).
-/

namespace ManifestVariables.TokenCache

open Program

/-- An answer that came at an instant grants a token for longer than the clock goes on. -/
structure Overruns (instant : Nat) (response : Response) : Prop where
  success : 200 ≤ response.status ∧ response.status < 300
  grants : ∃ record seconds, readRecord? response.body = some record ∧
    (∀ type, record.type = some type → type.toLower = "bearer") ∧
    record.expiresIn = some seconds ∧ clockEnd ≤ instant + seconds * second

/-- Some exchanges end with a request that grants a token for too long. -/
def Overrun (exchanges : List (Exchange Needs)) : Prop :=
  ∃ looked response reason instant,
    exchanges = looked ++ [requested (.ok (response, reason)), clock instant] ∧
      Overruns instant response

variable {instant : Nat} {response : Response} {cache : TokenCache} {operation : Operation}
  {exchanges : List (Exchange Needs)} {answer : Answer}

/-- A grant that the clock cannot hold is one that ends too late. -/
theorem overruns_iff (reason : String) :
    Overruns instant response ↔
      ∃ grant, Grants instant (.ok (response, reason)) grant ∧ ¬ Representable grant := by
  constructor
  · rintro ⟨success, record, seconds, read, bearer, lasts, late⟩
    refine ⟨_, .intro success read bearer, fun representable => ?_⟩
    have held := representable (instant + seconds * second) (by rw [lasts]; rfl)
    exact absurd held (Nat.not_lt.mpr late)
  · rintro ⟨grant, grants, beyond⟩
    cases grants with
    | @intro _ _ record success read bearer =>
      cases lasts : record.expiresIn with
      | none =>
        refine absurd (fun ending same => ?_) beyond
        rw [lasts] at same
        cases same
      | some seconds =>
        refine ⟨success, record, seconds, read, bearer, lasts, Nat.not_lt.mp fun held => ?_⟩
        refine beyond fun ending same => ?_
        rw [lasts] at same
        cases same
        exact held

theorem overrun_iff :
    Overrun exchanges ↔ ∃ grant, Granted exchanges grant ∧ ¬ Representable grant := by
  constructor
  · rintro ⟨looked, response, reason, instant, rfl, overruns⟩
    obtain ⟨grant, grants, beyond⟩ := (overruns_iff reason).mp overruns
    exact ⟨grant, ⟨looked, .ok (response, reason), instant, rfl, grants⟩, beyond⟩
  · rintro ⟨grant, ⟨looked, reply, instant, rfl, grants⟩, beyond⟩
    obtain ⟨response, reason, rfl⟩ : ∃ response reason, reply = .ok (response, reason) := by
      cases grants with
      | intro => exact ⟨_, _, rfl⟩
    exact ⟨looked, response, reason, instant, rfl, (overruns_iff reason).mpr ⟨grant, grants, beyond⟩⟩

/-- A call crashes where its token is granted for too long. -/
theorem Calling.crash_of_overrun (calling : Calling cache operation exchanges answer)
    (overrun : Overrun exchanges) : answer = .error .clockOverflow := by
  obtain ⟨grant, granted, beyond⟩ := overrun_iff.mp overrun
  cases calling with
  | quiet => exact absurd granted not_granted_clock
  | asks asking requesting =>
    cases requesting with
    | granted grants representable =>
      obtain rfl := grants.eq (granted_requested_iff.mp granted)
      exact absurd representable beyond
    | beyond => rfl
    | refused refused => exact absurd (granted_requested_iff.mp granted) (refused grant)

/-- A call gives a token where it needs none from the endpoint, or is granted one that the clock
can hold. -/
theorem Calling.exists_token (calling : Calling cache operation exchanges answer)
    (granting : requests exchanges = 0 ∨
      ∃ grant, Granted exchanges grant ∧ Representable grant) :
    ∃ token next, answer = .ok (.ok token, next) := by
  have representable : ∀ grant, Granted exchanges grant → Representable grant := by
    intro grant granted
    rcases granting with none | ⟨other, grantedToo, representable⟩
    · rcases calling.requests_eq with once | ⟨-, -, _, _, -, -, rfl⟩
      · omega
      · exact absurd granted not_granted_clock
    · obtain ⟨looked, reply, instant, rfl, grants⟩ := granted
      obtain rfl := grants.eq (granted_requested_iff.mp grantedToo)
      exact representable
  obtain ⟨result, next, rfl⟩ := calling.exists_ok representable
  obtain ⟨token, rfl⟩ := calling.ok_iff.mpr (granting.imp id fun ⟨grant, granted, _⟩ =>
    ⟨grant, granted⟩)
  exact ⟨token, next, rfl⟩

/-- An answer that grants a token for too long makes a call for one crash. -/
theorem ends_request_of_overruns {kept : TokenCache} (reason : String)
    (overruns : Overruns instant response) :
    Ends (request kept) [requested (.ok (response, reason)), clock instant]
      (.error .clockOverflow) := by
  obtain ⟨grant, grants, beyond⟩ := (overruns_iff reason).mp overruns
  have read : readGrant instant (.ok (response, reason)) = .error .clockOverflow := by
    rcases readGrant_of_grants grants with ⟨representable, -⟩ | ⟨-, read⟩
    · exact absurd representable beyond
    · exact read
  refine .ask (.ask ?_)
  rw [read]
  exact .refl _

/-- Whatever the endpoint answers, a call for a token comes to a token or a failure, unless it is
granted a token for longer than the clock goes on: then it crashes. Whatever earlier calls have
left, the next one gives a token where the endpoint grants one that the clock can hold. -/
theorem answers_iff (ended : Ends (operation.program cache) exchanges answer) :
    ((∃ result next, answer = .ok (result, next)) ↔ ¬ Overrun exchanges) ∧
      (answer = .error .clockOverflow ↔ Overrun exchanges) ∧
      ∀ kept (following : Operation) later found, Ends (following.program kept) later found →
        (requests later = 0 ∨ ∃ grant, Granted later grant ∧ Representable grant) →
        ∃ token next, found = .ok (.ok token, next) := by
  have calling := calling_of_ends ended
  have usable : ∀ kept (following : Operation) later found,
      Ends (following.program kept) later found →
      (requests later = 0 ∨ ∃ grant, Granted later grant ∧ Representable grant) →
      ∃ token next, found = .ok (.ok token, next) := by
    intro kept following later found ended granting
    exact (calling_of_ends ended).exists_token granting
  by_cases overrun : Overrun exchanges
  · obtain rfl := calling.crash_of_overrun overrun
    exact ⟨by simp [overrun], by simp [overrun], usable⟩
  · have representable : ∀ grant, Granted exchanges grant → Representable grant := by
      intro grant granted
      exact Classical.byContradiction fun beyond => overrun (overrun_iff.mpr ⟨grant, granted, beyond⟩)
    obtain ⟨result, next, rfl⟩ := calling.exists_ok representable
    exact ⟨by simp [overrun], by simp [overrun], usable⟩

/-- An answer with a token that is good up to the second at which a clock ends that shows ten. -/
def lastSecond : Response :=
  ⟨200, "\x7b\"access_token\":\"t1\",\"expires_in\":9223372036854775798\x7d"⟩

theorem overruns_lastSecond : Overruns (10 * second) lastSecond :=
  ⟨by decide, ⟨"t1", some 9223372036854775798, none⟩, 9223372036854775798, by decide +kernel,
    nofun, rfl, by decide⟩

theorem answers_iff_lastSecond :
    Ends (Operation.token.program ⟨none⟩)
        [requested (.ok (lastSecond, "OK")), clock (10 * second)] (.error .clockOverflow) ∧
      (((∃ result next, (.error .clockOverflow : Answer) = .ok (result, next)) ↔
          ¬ Overrun [requested (.ok (lastSecond, "OK")), clock (10 * second)]) ∧
        ((.error .clockOverflow : Answer) = .error .clockOverflow ↔
          Overrun [requested (.ok (lastSecond, "OK")), clock (10 * second)]) ∧
        ∀ kept (following : Operation) later found, Ends (following.program kept) later found →
          (requests later = 0 ∨ ∃ grant, Granted later grant ∧ Representable grant) →
          ∃ token next, found = .ok (.ok token, next)) := by
  have ended : Ends (Operation.token.program ⟨none⟩)
      [requested (.ok (lastSecond, "OK")), clock (10 * second)] (.error .clockOverflow) :=
    ends_request_of_overruns "OK" overruns_lastSecond
  exact ⟨ended, answers_iff ended⟩

/-- An answer with a token that is good for as many seconds as 64 bits can count. -/
def longest : Response :=
  ⟨200, "\x7b\"access_token\":\"t1\",\"expires_in\":18446744073709551615,\"token_type\":\"bearer\"\x7d"⟩

theorem readRecord?_longest :
    readRecord? longest.body = some ⟨"t1", some 18446744073709551615, some "bearer"⟩ := by
  decide +kernel

theorem overruns_longest : Overruns (10 * second) longest := by
  refine ⟨by decide, _, 18446744073709551615, readRecord?_longest, fun type same => ?_, rfl,
    by decide⟩
  cases same
  decide +kernel

/-- Neither call survives such an answer. -/
theorem crashes_longest :
    readRecord? longest.body = some ⟨"t1", some 18446744073709551615, some "bearer"⟩ ∧
      Ends (token ⟨none⟩) [requested (.ok (longest, "OK")), clock (10 * second)]
        (.error .clockOverflow) ∧
      Ends (refresh ⟨none⟩) [requested (.ok (longest, "OK")), clock (10 * second)]
        (.error .clockOverflow) :=
  ⟨readRecord?_longest, ends_request_of_overruns "OK" overruns_longest,
    ends_request_of_overruns "OK" overruns_longest⟩

end ManifestVariables.TokenCache
