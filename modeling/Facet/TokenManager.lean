import Facet.RenewableStore

/-!
# The JWT token manager

`generate_pair`, `renew`, `revoke_token` and `validate_token` of `JwtTokenManager`
over the in-memory store. What a call reads from outside (the clock, fresh random
values, the answers of the signer and of the verifiers) is its `CallEnv`.
-/
namespace Facet.Renewable

def minSecretLength : ℕ := 32

/-- A server secret can only be built when it is long enough. -/
structure ValidatedServerSecret where
  bytes : List UInt8
  length_ok : minSecretLength ≤ bytes.length

def ValidatedServerSecret.tryFrom (bytes : List UInt8) : Except TokenError ValidatedServerSecret :=
  if h : minSecretLength ≤ bytes.length then .ok ⟨bytes, h⟩
  else .error (.generalError
    s!"Server secret must be at least {minSecretLength} bytes, got {bytes.length}")

/-- `hmacSha256` is the keyed hash, hex-encoded. Durations are in seconds. -/
structure JwtTokenManager where
  issuer : String
  issuerId : Option String
  refreshEndpoint : String
  serverSecret : ValidatedServerSecret
  tokenDuration : ℤ := 3600
  renewalTokenDuration : ℤ := 172800
  hmacSha256 : List UInt8 → String → String

/-- The environment of one call: its two clock readings (`now` dates the entry, `claimsNow` the
claims), the random jti and refresh token it would draw, and the signer and verifiers as they
answer during the call. -/
structure CallEnv where
  now : ℤ
  claimsNow : ℤ := now
  jti : String
  refreshToken : String
  generateToken : ParticipantContext → TokenClaims → Except JwtGenerationError String
  clientVerifier : String → String → Except JwtVerificationError TokenClaims
  providerVerifier : String → String → Except JwtVerificationError TokenClaims

structure RenewableTokenPair where
  token : String
  refreshToken : String
  expiresAt : ℤ
  refreshEndpoint : String
  deriving DecidableEq, Repr

def reservedClaims : List String := ["iss", "sub", "aud", "exp", "iat", "nbf", "jti"]

def validateCustomClaims (claims : HashMap String Value) : Except TokenError Unit :=
  match reservedClaims.find? claims.containsKey with
  | some reserved =>
    .error (.generalError ("Custom claims cannot contain reserved claim: " ++ reserved))
  | none => .ok ()

/-- Instants exist from the start of year -262143 to the end of year 262142. -/
def fromTimestamp (seconds : ℤ) : Option ℤ :=
  if -8334601228800 ≤ seconds ∧ seconds ≤ 8210266876799 then some seconds else none

namespace JwtTokenManager

def hash (m : JwtTokenManager) (token : String) : String := m.hmacSha256 m.serverSecret.bytes token

/-- Sums of timestamps are 64-bit and wrap. -/
def createClaims (m : JwtTokenManager) (now : ℤ) (aud jti subject : String)
    (claims : HashMap String Value) : TokenClaims where
  iss := m.issuer
  sub := subject
  aud := aud
  exp := Int.bmod (now + m.tokenDuration) (2 ^ 64)
  custom := claims.insert "jti" (.string jti)

def issuerContext (m : JwtTokenManager) : ParticipantContext where
  id := m.issuerId.getD m.issuer
  identifier := m.issuer

def renewalExpiration (m : JwtTokenManager) (now : ℤ) : Except TokenError ℤ :=
  match fromTimestamp (Int.bmod (now + m.renewalTokenDuration) (2 ^ 64)) with
  | some expiresAt => .ok expiresAt
  | none => .error (.generalError
      "Failed to calculate token expiration time - timestamp is out of valid range")

/-- `generate_pair` up to the save: the entry to be stored and the pair to be returned. -/
def preparePair (m : JwtTokenManager) (env : CallEnv) (pc : ParticipantContext) (subject : String)
    (claims : HashMap String Value) (flowId : String) :
    Except TokenError (RenewableTokenEntry × RenewableTokenPair) := do
  validateCustomClaims claims
  let tokenClaims := m.createClaims env.claimsNow pc.audience env.jti subject claims
  let token ← liftGeneration (env.generateToken m.issuerContext tokenClaims)
  let expiresAt ← m.renewalExpiration env.now
  let entry : RenewableTokenEntry := {
    id := env.jti
    token := token
    hashedRefreshToken := m.hash env.refreshToken
    expiresAt := expiresAt
    subject := subject
    claims := claims
    participantContextId := pc.id
    audience := pc.audience
    flowId := flowId }
  return (entry, ⟨token, env.refreshToken, expiresAt, m.refreshEndpoint⟩)

def generatePair (m : JwtTokenManager) (env : CallEnv) (store : InnerStore)
    (pc : ParticipantContext) (subject : String) (claims : HashMap String Value) (flowId : String) :
    Except TokenError RenewableTokenPair × InnerStore :=
  match m.preparePair env pc subject claims flowId with
  | .ok (entry, pair) => (.ok pair, store.save entry)
  | .error e => (.error e, store)

/-- The first step of `renew`: the entry of the presented refresh token. -/
def renewLookup (m : JwtTokenManager) (store : InnerStore) (refreshToken : String) :
    Except TokenError RenewableTokenEntry :=
  match store.findByRenewal (m.hash refreshToken) with
  | .ok entry => .ok entry
  | .error _ => .error (.notAuthorized "Invalid refresh token")

/-- The second step of `renew`: verification of the bound token, then a new entry and pair. -/
def renewPrepare (m : JwtTokenManager) (env : CallEnv) (entry : RenewableTokenEntry)
    (boundToken : String) : Except TokenError (RenewableTokenEntry × RenewableTokenPair) := do
  let verified ← liftVerification (env.clientVerifier entry.audience boundToken)
  if verified.sub ≠ entry.subject then
    throw (.notAuthorized "Subject mismatch")
  match verified.custom.get "token" with
  | none => throw (.notAuthorized "Missing token claim")
  | some embedded =>
    if embedded.eqStr entry.token = false then
      throw (.notAuthorized "Invalid token")
  let expiresAt ← m.renewalExpiration env.now
  let newClaims := m.createClaims env.claimsNow entry.audience env.jti verified.sub entry.claims
  let token ← liftGeneration (env.generateToken m.issuerContext newClaims)
  let newEntry : RenewableTokenEntry := {
    id := env.jti
    token := token
    hashedRefreshToken := m.hash env.refreshToken
    expiresAt := expiresAt
    subject := entry.subject
    claims := entry.claims
    participantContextId := entry.participantContextId
    audience := entry.audience
    flowId := entry.flowId }
  return (newEntry, ⟨token, env.refreshToken, expiresAt, m.refreshEndpoint⟩)

/-- The third step of `renew`: the compare-and-swap on the old hash. -/
def renewUpdate (m : JwtTokenManager) (store : InnerStore) (refreshToken : String)
    (newEntry : RenewableTokenEntry) (pair : RenewableTokenPair) :
    Except TokenError RenewableTokenPair × InnerStore :=
  let result := store.update (m.hash refreshToken) newEntry
  match result.1 with
  | .ok () => (.ok pair, result.2)
  | .error e => (.error e, result.2)

def renew (m : JwtTokenManager) (env : CallEnv) (store : InnerStore)
    (boundToken refreshToken : String) : Except TokenError RenewableTokenPair × InnerStore :=
  match m.renewLookup store refreshToken with
  | .error e => (.error e, store)
  | .ok entry =>
    match m.renewPrepare env entry boundToken with
    | .error e => (.error e, store)
    | .ok (newEntry, pair) => m.renewUpdate store refreshToken newEntry pair

/-- The participant context is not consulted. -/
def revokeToken (_ : JwtTokenManager) (store : InnerStore) (_ : ParticipantContext)
    (flowId : String) : Except TokenError Unit × InnerStore := store.removeByFlowId flowId

def validateToken (_ : JwtTokenManager) (env : CallEnv) (store : InnerStore)
    (audience token : String) : Except TokenError TokenClaims := do
  let claims ← liftVerification (env.providerVerifier audience token)
  match (claims.custom.get "jti").bind Value.asStr with
  | none => throw .invalid
  | some jti =>
    match store.findById jti with
    | .ok _ => return claims
    | .error _ => throw (.notAuthorized "Token not found")

/-! ## What a successful preparation contains -/

variable {m : JwtTokenManager} {env : CallEnv}

theorem preparePair_eq_ok {pc : ParticipantContext} {subject : String}
    {claims : HashMap String Value} {flowId : String} {entry : RenewableTokenEntry}
    {pair : RenewableTokenPair} : m.preparePair env pc subject claims flowId = .ok (entry, pair) ↔
      validateCustomClaims claims = .ok () ∧ ∃ token expiresAt,
        env.generateToken m.issuerContext
          (m.createClaims env.claimsNow pc.audience env.jti subject claims) = .ok token ∧
        m.renewalExpiration env.now = .ok expiresAt ∧
        entry = ⟨env.jti, token, m.hash env.refreshToken, expiresAt, subject, claims, pc.id,
          pc.audience, flowId⟩ ∧
        pair = ⟨token, env.refreshToken, expiresAt, m.refreshEndpoint⟩ := by
  unfold preparePair
  simp only [bind_eq_ok, liftGeneration_eq_ok, pure, Except.pure, Except.ok.injEq, Prod.mk.injEq]
  constructor
  · intro h
    obtain ⟨⟨⟩, hv, token, hg, expiresAt, he, rfl, rfl⟩ := h
    exact ⟨hv, token, expiresAt, hg, he, rfl, rfl⟩
  · intro h
    obtain ⟨hv, token, expiresAt, hg, he, rfl, rfl⟩ := h
    exact ⟨(), hv, token, hg, expiresAt, he, rfl, rfl⟩

theorem preparePair_ok {pc : ParticipantContext} {subject : String} {claims : HashMap String Value}
    {flowId : String} {entry : RenewableTokenEntry} {pair : RenewableTokenPair}
    (h : m.preparePair env pc subject claims flowId = .ok (entry, pair)) :
    entry.id = env.jti ∧ entry.hashedRefreshToken = m.hash env.refreshToken ∧
      entry.flowId = flowId ∧ entry.participantContextId = pc.id ∧
      pair.refreshToken = env.refreshToken ∧ pair.token = entry.token := by
  obtain ⟨-, token, expiresAt, -, -, rfl, rfl⟩ := preparePair_eq_ok.mp h
  exact ⟨rfl, rfl, rfl, rfl, rfl, rfl⟩

theorem renewPrepare_eq_ok {entry newEntry : RenewableTokenEntry} {boundToken : String}
    {pair : RenewableTokenPair} : m.renewPrepare env entry boundToken = .ok (newEntry, pair) ↔
      ∃ verified token expiresAt, env.clientVerifier entry.audience boundToken = .ok verified ∧
        verified.sub = entry.subject ∧ verified.custom.get "token" = some (.string entry.token) ∧
        m.renewalExpiration env.now = .ok expiresAt ∧
        env.generateToken m.issuerContext
          (m.createClaims env.claimsNow entry.audience env.jti entry.subject entry.claims) =
            .ok token ∧
        newEntry = { entry with
          id := env.jti
          token := token
          hashedRefreshToken := m.hash env.refreshToken
          expiresAt := expiresAt } ∧
        pair = ⟨token, env.refreshToken, expiresAt, m.refreshEndpoint⟩ := by
  unfold renewPrepare
  simp only [bind_eq_ok, liftVerification_eq_ok]
  constructor
  · intro h
    obtain ⟨verified, hv, h⟩ := h
    split_ifs at h with hs
    · exact absurd h (throw_bind_ne_ok _ _ _)
    · cases hc : verified.custom.get "token" with
      | none =>
        rw [hc] at h
        exact absurd h (throw_bind_ne_ok _ _ _)
      | some embedded =>
        rw [hc] at h
        dsimp only at h
        split_ifs at h with he
        · exact absurd h (throw_bind_ne_ok _ _ _)
        · simp only [bind_eq_ok, liftGeneration_eq_ok, pure, Except.pure, Except.ok.injEq,
            Prod.mk.injEq] at h
          obtain ⟨expiresAt, hexp, token, hg, rfl, rfl⟩ := h
          have hsub : verified.sub = entry.subject := not_not.mp hs
          rw [hsub] at hg
          rw [Bool.not_eq_false, Value.eqStr_iff] at he
          exact ⟨verified, token, expiresAt, hv, hsub, he ▸ hc, hexp, hg, rfl, rfl⟩
  · intro h
    obtain ⟨verified, token, expiresAt, hv, hsub, htoken, hexp, hg, rfl, rfl⟩ := h
    refine ⟨verified, hv, ?_⟩
    rw [if_neg (not_not.mpr hsub), htoken]
    simp only [Value.eqStr_iff.mpr, hsub, Bool.true_eq_false, if_false]
    simp only [bind_eq_ok, liftGeneration_eq_ok, pure, Except.pure, Except.ok.injEq, Prod.mk.injEq]
    exact ⟨expiresAt, hexp, token, hg, rfl, rfl⟩

theorem renewPrepare_ok {entry newEntry : RenewableTokenEntry} {boundToken : String}
    {pair : RenewableTokenPair} (h : m.renewPrepare env entry boundToken = .ok (newEntry, pair)) :
    newEntry.id = env.jti ∧ newEntry.hashedRefreshToken = m.hash env.refreshToken ∧
      newEntry.flowId = entry.flowId ∧ newEntry.participantContextId = entry.participantContextId ∧
      pair.refreshToken = env.refreshToken ∧ pair.token = newEntry.token := by
  obtain ⟨verified, token, expiresAt, -, -, -, -, -, rfl, rfl⟩ := renewPrepare_eq_ok.mp h
  exact ⟨rfl, rfl, rfl, rfl, rfl, rfl⟩

end JwtTokenManager
end Facet.Renewable
