import ManifestVariables.ConfigServer.Basic
import ManifestVariables.Json.Parser
import ManifestVariables.Program

/-!
# Tokens granted to a client

A client that has a name and a secret is granted tokens by an endpoint. The last
grant is kept and used again until shortly before it ends; `TokenCache.refresh`
gives it up first and asks for another. Instants are counted in nanoseconds, and
an instant that the clock cannot hold is a crash, not an answer.
-/

namespace ManifestVariables

/-- A failure that ends the program instead of the call. -/
inductive Crash where
  /-- An instant lies beyond the end of the clock. -/
  | clockOverflow
deriving DecidableEq, Repr

/-- The text shown for a crash. -/
def Crash.message : Crash → String
  | clockOverflow => "overflow when adding duration to instant"

/-- A token and the instant at which it ends, if it does. -/
structure Grant where
  token : String
  expiresAt : Option Nat
deriving DecidableEq, Repr

/-- The grant that is kept, if there is one. -/
structure TokenCache where
  grant : Option Grant
deriving DecidableEq, Repr, Inhabited

namespace TokenCache

/-- A second in the unit of instants. -/
def second : Nat := 1000000000

/-- A grant is renewed this long before it ends. -/
def margin : Nat := 60 * second

/-- The first instant that the clock cannot hold. -/
def clockEnd : Nat := Nat.pow 2 63 * second

/-- What keeping tokens asks for. -/
inductive Need where
  /-- The present instant. -/
  | now
  /-- An answer of the endpoint to a request for a grant. -/
  | grant

/-- The instant, or the answer of the endpoint with the reason phrase of its
status. -/
def Need.Reply : Need → Type
  | now => Nat
  | grant => Except TransportError (Response × String)

/-- The interface of keeping tokens. -/
def Needs : Interface := ⟨Need, Need.Reply⟩

/-- Whether a grant may still be used at an instant. -/
def isFresh (now : Nat) (grant : Grant) : Bool :=
  match grant.expiresAt with
  | some ending => now + margin < ending
  | none => true

/-- The fields of an answer that grants a token. -/
structure GrantRecord where
  token : String
  expiresIn : Option Nat
  type : Option String

/-- Reads the body of an answer that grants a token. -/
def readRecord? (body : String) : Option GrantRecord := do
  let record ← Json.parseRecord? ["access_token", "expires_in", "token_type"] body
  return {
    token := ← record.required 0 "access_token" Json.text?
    expiresIn := ← record.optional Json.format 1 "expires_in" Json.natural?
    type := ← record.optional Json.format 2 "token_type" Json.text? }

/-- The type of a token that cannot be used; a token without type can. -/
def unusable? (type : Option String) : Option String :=
  type.filter fun name => name.toLower ≠ "bearer"

/-- The grant in an answer of the endpoint that came at an instant. -/
def readGrant (now : Nat) (reply : Except TransportError (Response × String)) :
    Except Crash (Except TransportError Grant) :=
  match reply with
  | .error failure => .ok (.error failure)
  | .ok (response, reason) =>
    if !response.isSuccess then
      .ok (.error (.tokenRequest s!"HTTP {response.status} {reason}: {response.body}"))
    else match readRecord? response.body with
      | none =>
        .ok (.error (.tokenRequest
          "Failed to parse token response: error decoding response body"))
      | some record =>
        match unusable? record.type with
        | some type => .ok (.error (.tokenRequest s!"Unsupported token type '{type}'"))
        | none =>
          match record.expiresIn with
          | none => .ok (.ok ⟨record.token, none⟩)
          | some seconds =>
            let ending := now + seconds * second
            if ending < clockEnd then .ok (.ok ⟨record.token, some ending⟩)
            else .error .clockOverflow

/-- A token or a failure, and what is kept afterwards. -/
abbrev Answer := Except Crash (Except TransportError String × TokenCache)

/-- Asks the endpoint for a grant; a failure leaves `kept` in the cache. -/
def request (kept : TokenCache) : Program Needs Answer :=
  .ask (.grant : Need) fun reply =>
    .ask (.now : Need) fun now : Nat =>
      .done (match readGrant now reply with
        | .error crash => .error crash
        | .ok (.error failure) => .ok (.error failure, kept)
        | .ok (.ok grant) => .ok (.ok grant.token, ⟨some grant⟩))

/-- The token of the kept grant while that is fresh, and of a new one otherwise. -/
def token (cache : TokenCache) : Program Needs Answer :=
  match cache.grant with
  | none => request cache
  | some grant =>
    .ask (.now : Need) fun now : Nat =>
      if isFresh now grant then .done (.ok (.ok grant.token, cache)) else request cache

/-- The token of a new grant; the kept one is given up whatever comes of it. -/
def refresh (_cache : TokenCache) : Program Needs Answer :=
  request ⟨none⟩

end TokenCache

end ManifestVariables
