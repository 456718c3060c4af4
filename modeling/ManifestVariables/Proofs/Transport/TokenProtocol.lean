import ManifestVariables.Proofs.Transport.Grants

/-!
# What is kept between calls for a token

Calls for a token come one after the other, each with what is kept of those before it. What is
kept is the latest grant unless a refresh was started after it
(`TokenCache.Runs.grant_eq_some_iff`), which is all that a call depends on beside the clock and
the endpoint. `TokenCache.protocol_kept` says what this means for each call: when it asks the
endpoint, which token it gives, and what it leaves to the next one.
-/

namespace ManifestVariables.TokenCache

open Program

variable {exchanges looked : List (Exchange Needs)} {grant other : Grant} {instant : Nat}
  {reply : Reply}

/-- Some exchanges end with a request that grants a token. -/
def Granted (exchanges : List (Exchange Needs)) (grant : Grant) : Prop :=
  ∃ looked reply instant, exchanges = looked ++ [requested reply, clock instant] ∧
    Grants instant reply grant

/-- How often the endpoint is asked. -/
def requests (exchanges : List (Exchange Needs)) : Nat :=
  exchanges.countP fun exchange =>
    match (exchange.question : Need) with
    | .grant => true
    | .now => false

theorem not_granted_clock : ¬ Granted [clock instant] grant := by
  rintro ⟨looked, _, _, same, -⟩
  have long := congrArg List.length same
  simp at long

theorem granted_requested_iff :
    Granted (looked ++ [requested reply, clock instant]) grant ↔ Grants instant reply grant := by
  constructor
  · rintro ⟨_, _, _, same, grants⟩
    obtain ⟨-, same⟩ := List.append_inj' same rfl
    cases same
    exact grants
  · intro grants
    exact ⟨looked, reply, instant, rfl, grants⟩

/-- A call for a token that came to an end. -/
structure Use where
  operation : Operation
  exchanges : List (Exchange Needs)
  result : Except TransportError String

/-- Calls one after the other, the first of which finds nothing kept. -/
inductive Runs : List Use → TokenCache → Prop where
  | start : Runs [] ⟨none⟩
  | call {uses : List Use} {cache next : TokenCache} {use : Use} (run : Runs uses cache)
      (ended : Ends (use.operation.program cache) use.exchanges (.ok (use.result, next))) :
      Runs (uses ++ [use]) next

/-- The latest grant, after which no refresh was started. -/
def Holds (uses : List Use) (grant : Grant) : Prop :=
  ∃ earlier granting later, uses = earlier ++ granting :: later ∧
    Granted granting.exchanges grant ∧
    ∀ use ∈ later, use.operation = .token ∧ ∀ other, ¬ Granted use.exchanges other

theorem not_holds_nil : ¬ Holds [] grant := by
  rintro ⟨earlier, granting, later, same, -⟩
  simp at same

theorem holds_concat_iff {uses : List Use} {use : Use} :
    Holds (uses ++ [use]) grant ↔ Granted use.exchanges grant ∨
      use.operation = .token ∧ (∀ other, ¬ Granted use.exchanges other) ∧ Holds uses grant := by
  constructor
  · rintro ⟨earlier, granting, later, same, granted, unchanged⟩
    -- Either the last call got the grant, or it is one of those that came after it.
    rcases List.eq_nil_or_concat later with rfl | ⟨before, last, rfl⟩
    · obtain ⟨-, same⟩ := List.append_inj' same rfl
      cases same
      exact .inl granted
    · have same : uses ++ [use] = earlier ++ granting :: before ++ [last] := by simpa using same
      obtain ⟨rfl, only⟩ := List.append_inj' same rfl
      obtain rfl := List.singleton_inj.mp only
      simp only [List.concat_eq_append, List.forall_mem_append, List.forall_mem_singleton]
        at unchanged
      exact .inr ⟨unchanged.2.1, unchanged.2.2, earlier, granting, before, rfl, granted,
        unchanged.1⟩
  · rintro (granted | ⟨called, ungranted, earlier, granting, later, rfl, granted, unchanged⟩)
    · exact ⟨uses, use, [], rfl, granted, nofun⟩
    · refine ⟨earlier, granting, later ++ [use], by simp, granted, ?_⟩
      rw [List.forall_mem_append, List.forall_mem_singleton]
      exact ⟨unchanged, called, ungranted⟩

/-- What is held was granted by a refresh itself or by a call after it. -/
theorem Holds.exists_since {first later : List Use} {refreshing : Use}
    (held : Holds (first ++ refreshing :: later) grant)
    (refreshed : refreshing.operation = .refresh) :
    ∃ use ∈ refreshing :: later, Granted use.exchanges grant := by
  obtain ⟨earlier, granting, since, same, granted, unchanged⟩ := held
  rcases List.append_eq_append_iff.mp same with ⟨between, rfl, split⟩ | ⟨between, rfl, split⟩
  · refine ⟨granting, ?_, granted⟩
    rw [split]
    exact List.mem_append_right _ List.mem_cons_self
  · cases between with
    | nil =>
      cases split
      exact ⟨_, List.mem_cons_self, granted⟩
    | cons use between =>
      -- A refresh would be among the calls after the grant, and none of them is one.
      obtain ⟨rfl, rfl⟩ := List.cons.inj split
      have called := (unchanged refreshing (by simp)).1
      cases refreshed.symm.trans called

variable {cache next : TokenCache} {operation : Operation} {result : Except TransportError String}

/-- After a call, a grant is kept if the call got it, or if the call was none to refresh, got
no other one and found it kept. -/
theorem Calling.grant_eq_some_iff
    (calling : Calling cache operation exchanges (.ok (result, next))) :
    next.grant = some grant ↔ Granted exchanges grant ∨
      operation = .token ∧ (∀ other, ¬ Granted exchanges other) ∧ cache.grant = some grant := by
  cases calling with
  | quiet held fresh => simp [not_granted_clock]
  | asks asking requesting =>
    cases requesting with
    | granted grants representable =>
      simp only [granted_requested_iff, Option.some.injEq]
      constructor
      · rintro rfl
        exact .inl grants
      · rintro (again | ⟨-, none, -⟩)
        · exact grants.eq again
        · exact absurd grants (none _)
    | refused refused told =>
      simp only [granted_requested_iff, refused, not_false_eq_true, implies_true, true_and,
        false_or]
      cases asking with
      | unheld empty => simp
      | stale held stale => simp
      | refresh => simp

/-- What is kept is the latest grant unless a refresh was started after it. -/
theorem Runs.grant_eq_some_iff {uses : List Use} (run : Runs uses cache) :
    cache.grant = some grant ↔ Holds uses grant := by
  induction run with
  | start => simp [not_holds_nil]
  | call _ ended ih => rw [(calling_of_ends ended).grant_eq_some_iff, holds_concat_iff, ih]

/-! ### One call -/

theorem Asking.requests_eq {kept : TokenCache} (asking : Asking cache operation looked kept)
    (instant : Nat) (reply : Reply) :
    requests (looked ++ [requested reply, clock instant]) = 1 := by
  cases asking <;> rfl

theorem Calling.requests_eq {answer : Answer} (calling : Calling cache operation exchanges answer) :
    requests exchanges = 1 ∨
      requests exchanges = 0 ∧ operation = .token ∧ ∃ grant instant,
        cache.grant = some grant ∧ Fresh instant grant ∧ exchanges = [clock instant] := by
  cases calling with
  | quiet held fresh => exact .inr ⟨rfl, rfl, _, _, held, fresh, rfl⟩
  | asks asking requesting =>
    cases requesting with
    | granted => exact .inl (asking.requests_eq _ _)
    | beyond => exact .inl (asking.requests_eq _ _)
    | refused => exact .inl (asking.requests_eq _ _)

/-- A call for a token looks at the clock if something is kept, and asks the endpoint unless that
is fresh. -/
theorem Calling.quiet_iff {answer : Answer} (calling : Calling cache .token exchanges answer) :
    ∃ instant, ((∃ grant, cache.grant = some grant) → exchanges.head? = some (clock instant)) ∧
      (requests exchanges = 0 ↔ ∃ grant, cache.grant = some grant ∧ Fresh instant grant) := by
  rcases calling.requests_eq with once | ⟨none, -, grant, instant, held, fresh, rfl⟩
  · rw [once]
    cases calling with
    | quiet => cases once
    | asks asking requesting =>
      cases asking with
      | unheld empty => exact ⟨0, by simp [empty]⟩
      | @stale grant instant held stale => exact ⟨instant, by simp [held, stale]⟩
  · exact ⟨instant, fun _ => rfl, by simp [none, held, fresh]⟩

/-- A call gives a token if it did not have to ask for one, or was granted one. -/
theorem Calling.ok_iff (calling : Calling cache operation exchanges (.ok (result, next))) :
    (∃ token, result = .ok token) ↔ requests exchanges = 0 ∨ ∃ grant, Granted exchanges grant := by
  cases calling with
  | quiet held fresh => simp [requests]
  | asks asking requesting =>
    cases requesting with
    | granted grants => 
      simp only [granted_requested_iff]
      exact ⟨fun _ => .inr ⟨_, grants⟩, fun _ => ⟨_, rfl⟩⟩
    | refused refused told => simp [granted_requested_iff, asking.requests_eq, refused]

/-- A token that is given is that of the grant that is kept then. -/
theorem Calling.exists_grant {token : String}
    (calling : Calling cache operation exchanges (.ok (.ok token, next))) :
    ∃ grant, next.grant = some grant ∧ grant.token = token := by
  cases calling with
  | quiet held fresh => exact ⟨_, held, rfl⟩
  | asks asking requesting =>
    cases requesting with
    | granted => exact ⟨_, rfl, rfl⟩

/-- A call that fails leaves what was kept, or nothing if it was to refresh it. -/
theorem Calling.failed {failure : TransportError}
    (calling : Calling cache operation exchanges (.ok (.error failure, next))) :
    next = if operation = .token then cache else ⟨none⟩ := by
  cases calling with
  | asks asking requesting =>
    cases requesting with
    | refused => cases asking <;> rfl

/-- Only an instant that the clock cannot hold ends a call in another way. -/
theorem Calling.exists_ok {answer : Answer} (calling : Calling cache operation exchanges answer)
    (representable : ∀ grant, Granted exchanges grant → Representable grant) :
    ∃ result next, answer = .ok (result, next) := by
  cases calling with
  | quiet => exact ⟨_, _, rfl⟩
  | asks asking requesting =>
    cases requesting with
    | granted => exact ⟨_, _, rfl⟩
    | beyond grants beyond =>
      exact absurd (representable _ (granted_requested_iff.mpr grants)) beyond
    | refused => exact ⟨_, _, rfl⟩

theorem Asking.eq_of_mem {kept : TokenCache} {answered : Reply}
    (asking : Asking cache operation looked kept)
    (member : requested answered ∈ looked ++ [requested reply, clock instant]) :
    answered = reply := by
  rcases List.mem_append.mp member with among | last
  · cases asking with
    | unheld => cases among
    | stale => cases List.mem_singleton.mp among
    | refresh => cases among
  · rcases List.mem_cons.mp last with same | behind
    · cases same
      rfl
    · cases List.mem_singleton.mp behind

/-- An answer with a token of another type makes a call fail. -/
theorem Calling.foreign {response : Response} {reason type : String} {record : GrantRecord}
    (calling : Calling cache operation exchanges (.ok (result, next)))
    (answered : requested (.ok (response, reason)) ∈ exchanges)
    (success : 200 ≤ response.status ∧ response.status < 300)
    (read : readRecord? response.body = some record) (typed : record.type = some type)
    (foreign : type.toLower ≠ "bearer") :
    result = .error (.tokenRequest s!"Unsupported token type '{type}'") := by
  cases calling with
  | quiet => cases List.mem_singleton.mp answered
  | asks asking requesting =>
    cases requesting with
    | @granted instant reply grant grants =>
      obtain rfl := asking.eq_of_mem answered
      cases grants with
      | intro _ same bearer =>
        cases read.symm.trans same
        exact absurd (bearer type typed) foreign
    | refused refused told =>
      obtain rfl := asking.eq_of_mem answered
      rw [readGrant_of_foreign success read typed foreign] at told
      cases told
      rfl

/-! ### Calls one after the other -/

/-- What a call keeps to, given the calls before it: `cache` is what was kept of them, and `next`
is what is kept then. -/
structure Keeps (before : List Use) (cache : TokenCache) (use : Use) (next : TokenCache) :
    Prop where
  /-- A token is given without a request exactly if there is a grant after which no refresh was
  started and which does not end within a minute of the instant that the clock shows. -/
  quiet_iff : use.operation = .token → ∃ instant,
    ((∃ grant, Holds before grant) → use.exchanges.head? = some (clock instant)) ∧
      (requests use.exchanges = 0 ↔ ∃ grant, Holds before grant ∧ Fresh instant grant)
  /-- Otherwise there is one request. -/
  requests_le : requests use.exchanges ≤ 1
  requests_of_refresh : use.operation = .refresh → requests use.exchanges = 1
  /-- A call succeeds if it has no need of a request, or its request is granted. -/
  ok_iff : (∃ token, use.result = .ok token) ↔
    requests use.exchanges = 0 ∨ ∃ grant, Granted use.exchanges grant
  /-- The token that is given is that of the latest grant. -/
  latest : ∀ token, use.result = .ok token →
    ∃ grant, Holds (before ++ [use]) grant ∧ grant.token = token
  /-- The token that is given was granted by the latest refresh or after it. -/
  since_refresh : ∀ token first refreshing later, use.result = .ok token →
    before ++ [use] = first ++ refreshing :: later → refreshing.operation = .refresh →
    ∃ granting ∈ refreshing :: later, ∃ grant, Granted granting.exchanges grant ∧
      grant.token = token
  /-- A call for a token that fails leaves what was kept, and a failed refresh leaves nothing. -/
  failed : ∀ failure, use.result = .error failure →
    next = if use.operation = .token then cache else ⟨none⟩
  /-- What is kept is the latest grant, unless it was given up since. -/
  kept_iff : ∀ grant, next.grant = some grant ↔ Holds (before ++ [use]) grant
  /-- A token of a type other than that of a bearer is a failure. -/
  foreign : ∀ response reason record type, requested (.ok (response, reason)) ∈ use.exchanges →
    200 ≤ response.status ∧ response.status < 300 →
    readRecord? response.body = some record → record.type = some type → type.toLower ≠ "bearer" →
    use.result = .error (.tokenRequest s!"Unsupported token type '{type}'")

/-- Whatever calls came before it, and whatever the clock and the endpoint say, a call for a
token comes to an end and keeps to the protocol, if the clock can hold the end of what is
granted. -/
theorem protocol_kept {before : List Use} {answer : Answer} (run : Runs before cache)
    (ended : Ends (operation.program cache) exchanges answer)
    (representable : ∀ grant, Granted exchanges grant → Representable grant) :
    ∃ result next, answer = .ok (result, next) ∧
      Keeps before cache ⟨operation, exchanges, result⟩ next := by
  have calling := calling_of_ends ended
  obtain ⟨result, next, rfl⟩ := calling.exists_ok representable
  have finished : Runs (before ++ [⟨operation, exchanges, result⟩]) next := .call run ended
  have latest (token : String) (given : result = .ok token) :
      ∃ grant, Holds (before ++ [⟨operation, exchanges, result⟩]) grant ∧ grant.token = token := by
    subst given
    obtain ⟨grant, held, same⟩ := calling.exists_grant
    exact ⟨grant, finished.grant_eq_some_iff.mp held, same⟩
  refine ⟨result, next, rfl, ?_⟩
  constructor
  case quiet_iff =>
    rintro rfl
    simpa only [run.grant_eq_some_iff] using calling.quiet_iff
  case requests_le =>
    rcases calling.requests_eq with once | ⟨none, -⟩
    · exact Nat.le_of_eq once
    · exact none ▸ Nat.zero_le 1
  case requests_of_refresh =>
    rintro rfl
    rcases calling.requests_eq with once | ⟨-, token, -⟩
    · exact once
    · cases token
  case ok_iff => exact calling.ok_iff
  case latest => exact latest
  case since_refresh =>
    intro token first refreshing later given split refreshed
    obtain ⟨grant, held, same⟩ := latest token given
    rw [split] at held
    obtain ⟨granting, member, granted⟩ := held.exists_since refreshed
    exact ⟨granting, member, grant, granted, same⟩
  case failed =>
    rintro failure rfl
    exact calling.failed
  case kept_iff => exact fun grant => finished.grant_eq_some_iff
  case foreign =>
    intro response reason record type answered success read typed foreign
    exact calling.foreign answered success read typed foreign

/-- An answer with a token for two minutes. -/
def shortLived : Response :=
  ⟨200, "\x7b\"access_token\":\"t1\",\"expires_in\":120,\"token_type\":\"Bearer\"\x7d"⟩

/-- An answer with another token, which has no end. -/
def endless : Response :=
  ⟨200, "\x7b\"access_token\":\"t2\"\x7d"⟩

theorem readRecord?_shortLived :
    readRecord? shortLived.body = some ⟨"t1", some 120, some "Bearer"⟩ := by
  decide +kernel

theorem readRecord?_endless : readRecord? endless.body = some ⟨"t2", none, none⟩ := by
  decide +kernel

theorem grants_shortLived :
    Grants (10 * second) (.ok (shortLived, "OK")) ⟨"t1", some (130 * second)⟩ := by
  refine .intro (by decide) readRecord?_shortLived fun type same => ?_
  cases same
  decide +kernel

theorem grants_endless : Grants (71 * second) (.ok (endless, "OK")) ⟨"t2", none⟩ :=
  .intro (by decide) readRecord?_endless nofun

theorem representable_shortLived : Representable ⟨"t1", some (130 * second)⟩ := by
  intro ending same
  cases same
  decide

/-- A token is granted. -/
def grantedUse : Use :=
  ⟨.token, [requested (.ok (shortLived, "OK")), clock (10 * second)], .ok "t1"⟩

/-- It is given again at the last instant at which it is fresh. -/
def quietUse : Use :=
  ⟨.token, [clock (70 * second - 1)], .ok "t1"⟩

/-- It is given up, and the endpoint grants no other one. -/
def failedUse : Use :=
  ⟨.refresh, [requested (.ok (⟨503, "down"⟩, "Service Unavailable")), clock (70 * second)],
    .error (.tokenRequest "HTTP 503 Service Unavailable: down")⟩

theorem runs_failedUse : Runs [grantedUse, quietUse, failedUse] ⟨none⟩ := by
  have granted : Runs [grantedUse] ⟨some ⟨"t1", some (130 * second)⟩⟩ := by
    refine .call .start ?_
    exact ends_request_of_grants grants_shortLived representable_shortLived
  have quiet : Runs [grantedUse, quietUse] ⟨some ⟨"t1", some (130 * second)⟩⟩ := by
    exact .call granted (.ask (.refl _))
  exact .call quiet (.ask (.ask (.refl _)))

theorem protocol_kept_sample :
    Runs [grantedUse, quietUse, failedUse] ⟨none⟩ ∧ ∃ result next,
      (.ok (.ok "t2", ⟨some ⟨"t2", none⟩⟩) : Answer) = .ok (result, next) ∧
        Keeps [grantedUse, quietUse, failedUse] ⟨none⟩
          ⟨.token, [requested (.ok (endless, "OK")), clock (71 * second)], result⟩
          next := by
  refine ⟨runs_failedUse, protocol_kept runs_failedUse ?_ ?_⟩
  · exact ends_request_of_grants grants_endless nofun
  · intro grant granted
    have grants : Grants (71 * second) (.ok (endless, "OK")) grant :=
      (@granted_requested_iff []).mp granted
    obtain rfl := grants_endless.eq grants
    exact nofun

end ManifestVariables.TokenCache
