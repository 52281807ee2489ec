import Facet.TokenRefresh

/-!
# JWT authentication of the APIs

`AuthMiddleware` in front of a router: the bearer token is checked against the JWKS and its
scope, and its subject against the participant of the route unless an admin scope waives it.
The JWT library, the path extractor and the key provider are parameters.
-/
namespace Facet.Server
open Text Siglet

/-! ## The JWT library -/

inductive Algorithm
  | hs256 | hs384 | hs512 | es256 | es384 | rs256 | rs384 | rs512 | ps256 | ps384 | ps512 | edDSA
  deriving DecidableEq, Repr

def Algorithm.debug : Algorithm → String
  | .hs256 => "HS256" | .hs384 => "HS384" | .hs512 => "HS512"
  | .es256 => "ES256" | .es384 => "ES384"
  | .rs256 => "RS256" | .rs384 => "RS384" | .rs512 => "RS512"
  | .ps256 => "PS256" | .ps384 => "PS384" | .ps512 => "PS512"
  | .edDSA => "EdDSA"

/-- The `alg` of a JWK; `other` stands for those that do not sign. -/
inductive KeyAlgorithm
  | hs256 | hs384 | hs512 | es256 | es384 | rs256 | rs384 | rs512 | ps256 | ps384 | ps512 | edDSA
  | other (name : String)
  deriving DecidableEq, Repr

def KeyAlgorithm.debug : KeyAlgorithm → String
  | .hs256 => "HS256" | .hs384 => "HS384" | .hs512 => "HS512"
  | .es256 => "ES256" | .es384 => "ES384"
  | .rs256 => "RS256" | .rs384 => "RS384" | .rs512 => "RS512"
  | .ps256 => "PS256" | .ps384 => "PS384" | .ps512 => "PS512"
  | .edDSA => "EdDSA"
  | .other name => name

structure Header where
  alg : Algorithm
  kid : Option String
  deriving DecidableEq, Repr

structure Jwk (Parameters : Type) where
  keyId : Option String
  keyAlgorithm : Option KeyAlgorithm
  parameters : Parameters

/-- `JwkSet::find`. -/
def find {P : Type} (jwks : List (Jwk P)) (kid : String) : Option (Jwk P) :=
  jwks.find? fun jwk => jwk.keyId == some kid

structure Claims where
  sub : String
  scope : Option String
  deriving DecidableEq, Repr

/-- `Claims` with the registered claims that the library reads beside them. -/
structure Payload extends Claims where
  exp : Option ℤ
  nbf : Option ℤ
  aud : Option (List String)

def Payload.has (payload : Payload) : String → Bool
  | "exp" => payload.exp.isSome
  | "nbf" => payload.nbf.isSome
  | "aud" => payload.aud.isSome
  | "sub" => true
  | _ => false

structure Validation where
  algorithms : List Algorithm
  leeway : ℕ := 60
  validateExp : Bool := true
  validateNbf : Bool := false
  validateAud : Bool := true
  aud : Option (List String) := none
  requiredSpecClaims : List String := ["exp"]

/-- The checks of the registered claims. -/
def Validation.accepts (v : Validation) (now : ℤ) (payload : Payload) : Bool :=
  v.requiredSpecClaims.all payload.has &&
  (!v.validateExp || payload.exp.all fun exp => decide (now - v.leeway ≤ exp)) &&
  (!v.validateNbf || payload.nbf.all fun nbf => decide (nbf ≤ now + v.leeway)) &&
  (!v.validateAud || payload.aud.all fun aud => v.aud.any fun accepted => aud.any accepted.contains)

/-- `signed` and `payload` are what `decode` looks at in a token. -/
structure JsonWebToken where
  KeyParameters : Type
  DecodingKey : Type
  decodeHeader : String → Except String Header
  fromJwk : Jwk KeyParameters → Except String DecodingKey
  decode : ℤ → String → DecodingKey → Validation → Except String Claims
  signed : String → Algorithm → DecodingKey → Bool
  payload : String → Option Payload

/-- `decode` checks the signature and the registered claims as it is configured. -/
structure JsonWebToken.ChecksAsConfigured (lib : JsonWebToken) : Prop where
  decode_ok : ∀ now token key validation claims, lib.decode now token key validation = .ok claims ↔
    ∃ header payload, lib.decodeHeader token = .ok header ∧ header.alg ∈ validation.algorithms ∧
      lib.signed token header.alg key = true ∧ lib.payload token = some payload ∧
      validation.accepts now payload = true ∧ payload.toClaims = claims

/-! ## The middleware -/

def pathParamPcId : String := "participant_context_id"

def allowedAlgorithms : List Algorithm := [.edDSA, .rs256, .es256]

inductive NoParticipantContext
  | passThrough
  | requireToken
  deriving DecidableEq, Repr

inductive AuthError
  | missingAuthHeader
  | malformedAuthHeader (reason : String)
  | jwksFetch (message : String)
  | kidNotInJwks (kid : String)
  | unsupportedKey (reason : String)
  | invalidSignature (reason : String)
  | subjectMismatch (expected got : String)
  | insufficientScope (required : String)
  deriving DecidableEq, Repr

def AuthError.status : AuthError → ℕ
  | .subjectMismatch _ _ | .insufficientScope _ => 403
  | .jwksFetch _ => 503
  | _ => 401

def AuthError.clientMessage : AuthError → String
  | .missingAuthHeader => "Missing Authorization header"
  | .malformedAuthHeader reason => "Malformed Authorization header: " ++ reason
  | .jwksFetch _ => "Unable to verify token (JWKS unavailable)"
  | .kidNotInJwks kid => "Token kid '" ++ kid ++ "' is not in the JWKS"
  | .unsupportedKey reason => "Unsupported verification key: " ++ reason
  | .invalidSignature reason => "Invalid token: " ++ reason
  | .subjectMismatch expected got =>
    "Token subject '" ++ got ++ "' does not match participant context '" ++ expected ++ "'"
  | .insufficientScope required => "Token is missing required scope '" ++ required ++ "'"

/-- `fetchJwks` is the answer of the key provider, which may depend on the `kid`. -/
structure AuthState (lib : JsonWebToken) where
  fetchJwks : String → Except AuthError (List (Jwk lib.KeyParameters))
  expectedAudience : String
  requiredScope : String
  adminScope : Option String
  noParticipantContext : NoParticipantContext

inductive AuthLayer (lib : JsonWebToken)
  | disabled
  | enabled (state : AuthState lib)

/-- `split_whitespace().any(..)`; no scope claim grants nothing. -/
def scopeGrants (scope : Option String) (required : String) : Bool :=
  scope.any fun s => (words Text.isWhitespace s.toList).contains required.toList

def keyAlgMatches : KeyAlgorithm → Algorithm → Bool
  | .edDSA, .edDSA
  | .rs256, .rs256 | .rs384, .rs384 | .rs512, .rs512
  | .es256, .es256 | .es384, .es384
  | .ps256, .ps256 | .ps384, .ps384 | .ps512, .ps512
  | .hs256, .hs256 | .hs384, .hs384 | .hs512, .hs512 => true
  | _, _ => false

def ensure {ε : Type} (condition : Bool) (e : ε) : Except ε Unit :=
  if condition then .ok () else .error e

def extractBearer (authorization : Option String) : Except AuthError String := do
  let value ← okOr authorization .missingAuthHeader
  ensure (value.toList.all isHeaderText) (.malformedAuthHeader "non-ASCII bytes in header")
  let token ← okOr (stripPrefix "Bearer ".toList value.toList)
    (.malformedAuthHeader "expected 'Bearer <token>' scheme")
  return String.ofList token

/-- Only a JWK that advertises an `alg` is compared. -/
def checkKeyAlg (jwkAlg : Option KeyAlgorithm) (alg : Algorithm) : Except AuthError Unit :=
  match jwkAlg with
  | none => .ok ()
  | some jwkAlg => ensure (keyAlgMatches jwkAlg alg) (.invalidSignature
      ("JWT alg '" ++ alg.debug ++ "' does not match JWK alg '" ++ jwkAlg.debug ++ "'"))

section Verify
variable {lib : JsonWebToken}

def AuthState.validation (state : AuthState lib) (alg : Algorithm) : Validation where
  algorithms := [alg]
  aud := some [state.expectedAudience]
  validateAud := true
  validateNbf := true
  requiredSpecClaims := ["exp", "aud"]

def AuthState.isAdmin (state : AuthState lib) (claims : Claims) : Bool :=
  state.adminScope.any fun admin => scopeGrants claims.scope admin

def AuthState.bindSubject (state : AuthState lib) (claims : Claims) (expectedPcId : Option String) :
    Except AuthError Unit :=
  match expectedPcId with
  | none => .ok ()
  | some expected =>
    if state.isAdmin claims then
      .ok ()
    else ensure (claims.sub == expected) (.subjectMismatch expected claims.sub)

def verifyJwt (now : ℤ) (state : AuthState lib) (authorization expectedPcId : Option String) :
    Except AuthError Unit := do
  let token ← extractBearer authorization
  let header ← (lib.decodeHeader token).mapError fun e =>
    .invalidSignature ("bad JWT header: " ++ e)
  let kid ← okOr header.kid (.invalidSignature "JWT header missing kid")
  ensure (allowedAlgorithms.contains header.alg)
    (.invalidSignature ("algorithm '" ++ header.alg.debug ++ "' not in allowlist"))
  let jwks ← state.fetchJwks kid
  let jwk ← okOr (find jwks kid) (.kidNotInJwks kid)
  checkKeyAlg jwk.keyAlgorithm header.alg
  let key ← (lib.fromJwk jwk).mapError fun e =>
    .unsupportedKey ("DecodingKey from JWK failed: " ++ e)
  let claims ← (lib.decode now token key (state.validation header.alg)).mapError .invalidSignature
  ensure (scopeGrants claims.scope state.requiredScope) (.insufficientScope state.requiredScope)
  state.bindSubject claims expectedPcId

end Verify

/-- The extensions put into the request: the id of the participant context, and the control
plane. -/
structure Injected where
  participantContext : String
  controlPlaneId : String
  controlPlaneUrl : String
  deriving DecidableEq, Repr

def inject (pcId : String) : Injected := ⟨pcId, pcId, "http://example.org"⟩

/-- An answer of the middleware, or the call of the inner service. -/
inductive Outcome
  | response (status : ℕ) (message : String)
  | inner (injected : Option Injected)
  deriving DecidableEq, Repr

def AuthError.intoResponse (e : AuthError) : Outcome := .response e.status e.clientMessage

/-- `AuthMiddleware::call`; `path` are the extracted path parameters. -/
def call (lib : JsonWebToken) (now : ℤ) (layer : AuthLayer lib)
    (path : Except String (HashMap String String)) (authorization : Option String) : Outcome :=
  match path with
  | .error _ => .response 400 "missing path parameters"
  | .ok params =>
    match layer, params.get pathParamPcId with
    | .disabled, pcId => .inner (pcId.map inject)
    | .enabled state, some pcId =>
      match verifyJwt now state authorization (some pcId) with
      | .error e => e.intoResponse
      | .ok () => .inner (some (inject pcId))
    | .enabled state, none =>
      match state.noParticipantContext with
      | .passThrough => .inner none
      | .requireToken =>
        match verifyJwt now state authorization none with
        | .error e => e.intoResponse
        | .ok () => .inner none

/-! ## The layers of the APIs -/

section Layers
variable {lib : JsonWebToken}

/-- `AuthLayer::enabled_http_require_token`, over the provider for the URL and the cache
lifetime. -/
def enabledHttpRequireToken
    (provider : String → UInt64 → String → Except AuthError (List (Jwk lib.KeyParameters)))
    (jwksUrl : String) (cacheTtl : UInt64) (expectedAudience requiredScope : String)
    (adminScope : Option String) : AuthLayer lib :=
  .enabled ⟨provider jwksUrl cacheTtl, expectedAudience, requiredScope, adminScope, .requireToken⟩

variable (provider : String → UInt64 → String → Except AuthError (List (Jwk lib.KeyParameters)))

def buildSignalingAuthLayer : SignalingAuthConfig → AuthLayer lib
  | .disabled => .disabled
  | .enabled jwksUrl cacheTtlSeconds audience requiredScope =>
    enabledHttpRequireToken provider jwksUrl cacheTtlSeconds audience requiredScope none

def buildTokenApiAuthLayer : TokenApiAuthConfig → AuthLayer lib
  | .disabled => .disabled
  | .enabled jwksUrl cacheTtlSeconds audience requiredScope adminScope =>
    enabledHttpRequireToken provider jwksUrl cacheTtlSeconds audience requiredScope adminScope

def managementApiReadScope : String := "siglet-mgmt-api:read"

def managementApiWriteScope : String := "siglet-mgmt-api:write"

/-- The read and the write layer. -/
def buildManagementApiAuthLayers : ManagementApiAuthConfig → AuthLayer lib × AuthLayer lib
  | .disabled => (.disabled, .disabled)
  | .enabled jwksUrl cacheTtlSeconds audience =>
    (enabledHttpRequireToken provider jwksUrl cacheTtlSeconds audience managementApiReadScope none,
      enabledHttpRequireToken provider jwksUrl cacheTtlSeconds audience
        managementApiWriteScope none)

end Layers

/-! ## Admission -/

/-- The signature algorithm that a JWK names. -/
def KeyAlgorithm.signing : KeyAlgorithm → Option Algorithm
  | .hs256 => some .hs256 | .hs384 => some .hs384 | .hs512 => some .hs512
  | .es256 => some .es256 | .es384 => some .es384
  | .rs256 => some .rs256 | .rs384 => some .rs384 | .rs512 => some .rs512
  | .ps256 => some .ps256 | .ps384 => some .ps384 | .ps512 => some .ps512
  | .edDSA => some .edDSA
  | .other _ => none

/-- The scope claim has the text as one of its entries between whitespace. -/
def HasEntry (scope : Option String) (entry : String) : Prop :=
  ∃ s, scope = some s ∧ IsWord Text.isWhitespace entry.toList s.toList

/-- The bearer token of the request is valid for the state, and `payload` is what it says. -/
def Presents (lib : JsonWebToken) (now : ℤ) (state : AuthState lib) (authorization : Option String)
    (payload : Payload) : Prop :=
  ∃ token header kid jwks jwk key, extractBearer authorization = .ok token ∧
    lib.decodeHeader token = .ok header ∧ header.kid = some kid ∧ header.alg ∈ allowedAlgorithms ∧
    state.fetchJwks kid = .ok jwks ∧ find jwks kid = some jwk ∧
    (∀ alg, jwk.keyAlgorithm = some alg → alg.signing = some header.alg) ∧
    lib.fromJwk jwk = .ok key ∧ lib.signed token header.alg key = true ∧
    lib.payload token = some payload ∧
    (∃ exp, payload.exp = some exp ∧ now - 60 ≤ exp) ∧
    (∀ nbf, payload.nbf = some nbf → nbf ≤ now + 60) ∧
    ∃ aud, payload.aud = some aud ∧ state.expectedAudience ∈ aud

theorem ensure_eq_ok {ε : Type} {condition : Bool} {e : ε} {u : Unit} :
    ensure condition e = .ok u ↔ condition = true := by
  cases condition with
  | false => simp [ensure]
  | true => simp [ensure]

theorem ensure_eq_error {ε : Type} {condition : Bool} {e e' : ε} :
    ensure condition e = .error e' ↔ condition = false ∧ e = e' := by
  cases condition with
  | false => simp [ensure]
  | true => simp [ensure]

theorem extractBearer_eq_ok {authorization : Option String} {token : String} :
    extractBearer authorization = .ok token ↔
      authorization = some ("Bearer " ++ token) ∧ token.toList.all isHeaderText = true := by
  have hprefix : "Bearer ".toList.all isHeaderText = true := rfl
  simp only [extractBearer, bind_eq_ok, okOr_eq_ok, ensure_eq_ok, stripPrefix_eq_some_iff]
  constructor
  · intro h
    obtain ⟨value, rfl, -, hall, chars, hvalue, htoken⟩ := h
    obtain rfl : String.ofList chars = token := Except.ok.inj htoken
    rw [hvalue, List.all_append, Bool.and_eq_true] at hall
    refine ⟨?_, by simpa using hall.2⟩
    rw [← String.toList_inj.mp
      (show value.toList = ("Bearer " ++ String.ofList chars).toList by simp [hvalue])]
  · intro h
    obtain ⟨rfl, hall⟩ := h
    refine ⟨_, rfl, (), ?_, token.toList, by simp, by simp [pure, Except.pure]⟩
    rw [String.toList_append, List.all_append, hprefix, hall, Bool.and_true]

theorem keyAlgMatches_iff {jwkAlg : KeyAlgorithm} {alg : Algorithm} :
    keyAlgMatches jwkAlg alg = true ↔ jwkAlg.signing = some alg := by
  cases jwkAlg <;> cases alg <;> simp [keyAlgMatches, KeyAlgorithm.signing]

theorem checkKeyAlg_eq_ok {jwkAlg : Option KeyAlgorithm} {alg : Algorithm} {u : Unit} :
    checkKeyAlg jwkAlg alg = .ok u ↔ ∀ a, jwkAlg = some a → a.signing = some alg := by
  cases jwkAlg with
  | none => simp [checkKeyAlg]
  | some a => simp [checkKeyAlg, ensure_eq_ok, keyAlgMatches_iff]

theorem scopeGrants_iff {scope : Option String} {required : String} :
    scopeGrants scope required = true ↔ HasEntry scope required := by
  cases scope with
  | none => simp [scopeGrants, HasEntry]
  | some s => simp [scopeGrants, HasEntry, mem_words_iff]

section Admission
variable {lib : JsonWebToken} {now : ℤ} {state : AuthState lib} {authorization : Option String}

theorem accepts_iff {alg : Algorithm} {payload : Payload} :
    (state.validation alg).accepts now payload = true ↔
      (∃ exp, payload.exp = some exp ∧ now - 60 ≤ exp) ∧
      (∀ nbf, payload.nbf = some nbf → nbf ≤ now + 60) ∧
      ∃ aud, payload.aud = some aud ∧ state.expectedAudience ∈ aud := by
  obtain ⟨claims, exp, nbf, aud⟩ := payload
  cases exp with
  | none => simp [Validation.accepts, AuthState.validation, Payload.has]
  | some exp =>
    cases aud with
    | none => simp [Validation.accepts, AuthState.validation, Payload.has]
    | some aud =>
      cases nbf with
      | none => simp [Validation.accepts, AuthState.validation, Payload.has]
      | some nbf =>
        simp only [Validation.accepts, AuthState.validation, Payload.has, Option.isSome_some,
          List.all_cons, List.all_nil, Bool.and_true, Bool.true_and, Bool.not_true, Bool.false_or,
          Option.all_some, Option.any_some, Bool.and_eq_true, List.any_eq_true,
          List.contains_iff_mem, List.mem_singleton, Option.some.injEq, exists_eq_left', forall_eq',
          exists_eq_right, and_assoc]
        exact and_congr decide_eq_true_iff (and_congr decide_eq_true_iff Iff.rfl)

theorem bindSubject_eq_ok {claims : Claims} {expectedPcId : Option String} {u : Unit} :
    state.bindSubject claims expectedPcId = .ok u ↔ ∀ p, expectedPcId = some p →
      claims.sub = p ∨ ∃ admin, state.adminScope = some admin ∧ HasEntry claims.scope admin := by
  have hadmin : state.isAdmin claims = true ↔ ∃ admin, state.adminScope = some admin ∧
      HasEntry claims.scope admin := by
    simp [AuthState.isAdmin, Option.any_eq_true, scopeGrants_iff]
  cases expectedPcId with
  | none => simp [AuthState.bindSubject]
  | some p =>
    rw [AuthState.bindSubject]
    split_ifs with h
    · simp [hadmin.mp h]
    · simp [ensure_eq_ok, ← hadmin, h]

/-- The checks of `verify_jwt`, all of them and no other. -/
theorem verifyJwt_eq_ok (hlib : lib.ChecksAsConfigured) {expectedPcId : Option String} {u : Unit} :
    verifyJwt now state authorization expectedPcId = .ok u ↔
      ∃ payload, Presents lib now state authorization payload ∧
      HasEntry payload.scope state.requiredScope ∧ ∀ p, expectedPcId = some p →
        payload.sub = p ∨ ∃ admin, state.adminScope = some admin ∧
          HasEntry payload.scope admin := by
  simp only [verifyJwt, bind_eq_ok, mapError_eq_ok, okOr_eq_ok, ensure_eq_ok, checkKeyAlg_eq_ok,
    scopeGrants_iff, bindSubject_eq_ok, hlib.decode_ok, List.contains_iff_mem]
  constructor
  · intro h
    obtain ⟨token, htoken, header, hheader, kid, hkid, -, halg, jwks, hjwks, jwk, hjwk, -,
      hkeyAlg, key, hkey, claims, ⟨header', payload, hheader', -, hsigned, hpayload, haccepts, rfl⟩,
      -, hscope, hsubject⟩ := h
    obtain rfl : header = header' := Except.ok.inj (hheader.symm.trans hheader')
    exact ⟨payload, ⟨token, header, kid, jwks, jwk, key, htoken, hheader, hkid, halg, hjwks, hjwk,
      hkeyAlg, hkey, hsigned, hpayload, accepts_iff.mp haccepts⟩, hscope, hsubject⟩
  · intro h
    obtain ⟨payload, ⟨token, header, kid, jwks, jwk, key, htoken, hheader, hkid, halg, hjwks, hjwk,
      hkeyAlg, hkey, hsigned, hpayload, haccepts⟩, hscope, hsubject⟩ := h
    exact ⟨token, htoken, header, hheader, kid, hkid, (), halg, jwks, hjwks, jwk, hjwk,
      (), hkeyAlg, key, hkey, payload.toClaims,
      ⟨header, payload, hheader, List.mem_singleton_self _, hsigned, hpayload,
        accepts_iff.mpr haccepts, rfl⟩, (), hscope, hsubject⟩

theorem call_inner_some {path : Except String (HashMap String String)} {p : String} :
    call lib now (.enabled state) path authorization = .inner (some (inject p)) ↔
      (∃ params, path = .ok params ∧ params.get pathParamPcId = some p) ∧
        verifyJwt now state authorization (some p) = .ok () := by
  cases path with
  | error e => simp [call]
  | ok params =>
    cases hp : params.get pathParamPcId with
    | none =>
      have hcall : ∀ q, call lib now (.enabled state) (.ok params) authorization ≠
          .inner (some q) := by
        intro q
        simp only [call, hp]
        split
        · simp
        · split <;> simp [AuthError.intoResponse]
      simp [hcall, hp]
    | some q =>
      simp only [call, hp]
      cases hv : verifyJwt now state authorization (some q) with
      | error e =>
        refine iff_of_false (by simp [AuthError.intoResponse]) ?_
        intro h
        obtain ⟨⟨params', hparams, hget⟩, hok⟩ := h
        obtain rfl := Except.ok.inj hparams
        obtain rfl : q = p := Option.some.inj (hp.symm.trans hget)
        rw [hv] at hok
        exact absurd hok (by simp)
      | ok u =>
        have hinject : inject q = inject p ↔ q = p := by simp [inject]
        simp only [Outcome.inner.injEq, Option.some.injEq, hinject, Except.ok.injEq,
          exists_eq_left', hp]
        constructor
        · intro h
          subst h
          exact ⟨rfl, hv⟩
        · intro h
          exact h.1

theorem call_inner_none {params : HashMap String String} (hp : params.get pathParamPcId = none)
    (hpolicy : state.noParticipantContext = .requireToken) :
    ((∃ injected, call lib now (.enabled state) (.ok params) authorization = .inner injected) ↔
        verifyJwt now state authorization none = .ok ()) ∧
      ∀ injected, call lib now (.enabled state) (.ok params) authorization = .inner injected →
        injected = none := by
  simp only [call, hp, hpolicy]
  cases hv : verifyJwt now state authorization none with
  | error e => simp [AuthError.intoResponse]
  | ok u => simp [eq_comm]

theorem Presents.payload_eq {payload payload' : Payload}
    (h : Presents lib now state authorization payload') {token : String}
    (htoken : extractBearer authorization = .ok token)
    (hpayload : lib.payload token = some payload) : payload = payload' := by
  obtain ⟨token', header, kid, jwks, jwk, key, htoken', -, -, -, -, -, -, -, -, hpayload', -⟩ := h
  obtain rfl : token = token' := Except.ok.inj (htoken.symm.trans htoken')
  exact Option.some.inj (hpayload.symm.trans hpayload')

end Admission

/-- A scope that is only the required one has no other entry. -/
theorem only_entry {scope requiredScope entry : String}
    (honly : scope = requiredScope ∨ ∀ w, IsWord Text.isWhitespace w scope.toList →
      w = requiredScope.toList)
    (hrequired : HasEntry (some scope) requiredScope) (h : HasEntry (some scope) entry) :
    entry = requiredScope := by
  obtain ⟨s, hs, hentry⟩ := h
  obtain rfl := Option.some.inj hs
  obtain ⟨s, hs, hrequired⟩ := hrequired
  obtain rfl := Option.some.inj hs
  apply String.toList_inj.mp
  rcases honly with rfl | honly
  · exact hentry.eq_of_forall hrequired.2.1
  · exact honly _ hentry

/-- An accepted configuration has an admin scope that is not the required one. -/
theorem adminScope_ne_of_validate {cfg : SigletConfig} {checks : Checks}
    (h : cfg.validate checks = .ok ()) {jwksUrl audience requiredScope adminScope : String}
    {cacheTtlSeconds : UInt64}
    (hauth : cfg.tokenApiAuth =
      .enabled jwksUrl cacheTtlSeconds audience requiredScope (some adminScope)) :
    adminScope ≠ requiredScope := by
  have herrors := SigletConfig.validate_eq_ok.mp h
  rw [SigletConfig.errors, List.flatten_eq_nil_iff] at herrors
  have htoken := herrors (checks.tokenApiAuthErrors cfg.tokenApiAuth) (by simp)
  rw [hauth, Checks.tokenApiAuthErrors, List.append_eq_nil_iff] at htoken
  intro heq
  have hadmin := htoken.2
  split_ifs at hadmin
  simp [heq, report] at hadmin

/-- The middleware injects a participant exactly for a valid token with the required scope whose
subject is the participant of the route, or that also has the admin scope; without a participant in
the route it requires such a token and injects nothing. In an accepted configuration a token with
the required scope only is always bound to its subject. -/
theorem middleware_admission (lib : JsonWebToken) (hlib : lib.ChecksAsConfigured) (now : ℤ) :
    (∀ (state : AuthState lib) path authorization p,
      call lib now (.enabled state) path authorization = .inner (some (inject p)) ↔
        (∃ params, path = .ok params ∧ params.get pathParamPcId = some p) ∧
        ∃ payload, Presents lib now state authorization payload ∧
          HasEntry payload.scope state.requiredScope ∧
            (payload.sub = p ∨ ∃ admin, state.adminScope = some admin ∧
              HasEntry payload.scope admin)) ∧
    (∀ (state : AuthState lib) params authorization, params.get pathParamPcId = none →
      state.noParticipantContext = .requireToken →
      ((∃ injected, call lib now (.enabled state) (.ok params) authorization = .inner injected) ↔
        ∃ payload, Presents lib now state authorization payload ∧
          HasEntry payload.scope state.requiredScope) ∧
      ∀ injected, call lib now (.enabled state) (.ok params) authorization = .inner injected →
        injected = none) ∧
    ∀ (cfg : SigletConfig) checks provider path authorization p token payload scope,
      cfg.validate checks = .ok () →
      ∀ jwksUrl cacheTtlSeconds audience requiredScope adminScope,
        cfg.tokenApiAuth = .enabled jwksUrl cacheTtlSeconds audience requiredScope adminScope →
      call lib now (buildTokenApiAuthLayer provider cfg.tokenApiAuth) path authorization =
        .inner (some (inject p)) →
      extractBearer authorization = .ok token → lib.payload token = some payload →
      payload.scope = some scope →
      (scope = requiredScope ∨ ∀ w, IsWord Text.isWhitespace w scope.toList →
        w = requiredScope.toList) →
      payload.sub = p := by
  refine ⟨?_, ?_, ?_⟩
  · intro state path authorization p
    rw [call_inner_some, verifyJwt_eq_ok hlib]
    simp
  · intro state params authorization hp hpolicy
    refine ⟨?_, (call_inner_none hp hpolicy).2⟩
    rw [(call_inner_none hp hpolicy).1, verifyJwt_eq_ok hlib]
    simp
  · intro cfg checks provider path authorization p token payload scope hvalid jwksUrl
      ttl audience requiredScope
      adminScope hauth hcall htoken hpayload hscope honly
    rw [hauth] at hcall
    obtain ⟨-, hverified⟩ := call_inner_some.mp hcall
    obtain ⟨payload', hpresents, hentry, hsubject⟩ := (verifyJwt_eq_ok hlib).mp hverified
    obtain rfl : payload = payload' := hpresents.payload_eq htoken hpayload
    rcases hsubject p rfl with hsub | ⟨admin, hadmin, hadminEntry⟩
    · exact hsub
    · obtain rfl : adminScope = some admin := hadmin
      rw [hscope] at hentry hadminEntry
      exact absurd (only_entry honly hentry hadminEntry) (adminScope_ne_of_validate hvalid hauth)

/-! ### A token that the token API admits -/

def demoHeader : Header := ⟨.edDSA, some "k1"⟩

def demoPayload : Payload where
  sub := "pc1"
  scope := some "openid siglet-token-api"
  exp := some 1700003600
  nbf := none
  aud := some ["siglet"]

section OneToken
variable (token key : String)

def demoDecodeHeader (t : String) : Except String Header :=
  if t = token then .ok demoHeader else .error "InvalidToken"

def demoSigned (t : String) (alg : Algorithm) (k : String) : Bool :=
  decide (t = token ∧ alg = .edDSA ∧ k = key)

def demoDecode (now : ℤ) (t k : String) (validation : Validation) : Except String Claims :=
  if t = token ∧ k = key ∧ .edDSA ∈ validation.algorithms ∧
    validation.accepts now demoPayload = true then
    .ok demoPayload.toClaims
  else .error "InvalidSignature"

/-- The library on one token that is signed with one key. -/
def demoLibrary : JsonWebToken where
  KeyParameters := String
  DecodingKey := String
  decodeHeader := demoDecodeHeader token
  fromJwk jwk := .ok jwk.parameters
  signed := demoSigned token key
  payload t := if t = token then some demoPayload else none
  decode := demoDecode token key

variable {token key}

theorem demoDecode_eq_ok {now : ℤ} {t k : String} {validation : Validation} {claims : Claims} :
    demoDecode token key now t k validation = .ok claims ↔
      ∃ header payload, demoDecodeHeader token t = .ok header ∧
      header.alg ∈ validation.algorithms ∧ demoSigned token key t header.alg k = true ∧
      (if t = token then some demoPayload else none) = some payload ∧
      validation.accepts now payload = true ∧ payload.toClaims = claims := by
  unfold demoDecode demoDecodeHeader demoSigned
  by_cases ht : t = token
  · simp only [ht, true_and, if_true, Except.ok.injEq, Option.some.injEq, decide_eq_true_eq,
      exists_eq_left', exists_and_left, demoHeader]
    split_ifs with h
    · simp [h]
    · refine iff_of_false (by simp) ?_
      intro hall
      exact h ⟨hall.2.1, hall.1, hall.2.2.1⟩
  · simp [ht]

theorem demoLibrary_checks : (demoLibrary token key).ChecksAsConfigured :=
  ⟨fun _ _ _ _ _ => demoDecode_eq_ok⟩

variable (token key) in
def demoState : AuthState (demoLibrary token key) where
  fetchJwks _ := .ok [⟨some "k1", some .edDSA, key⟩]
  expectedAudience := "siglet"
  requiredScope := "siglet-token-api"
  adminScope := some "siglet-token-api:admin"
  noParticipantContext := .requireToken

theorem demo_presents (htext : token.toList.all isHeaderText = true) :
    Presents (demoLibrary token key) 1700000000 (demoState token key)
      (some ("Bearer " ++ token)) demoPayload := by
  have hkeyAlg : ∀ alg, some KeyAlgorithm.edDSA = some alg → alg.signing = some demoHeader.alg := by
    intro alg halg
    obtain rfl := Option.some.inj halg
    rfl
  exact ⟨token, demoHeader, "k1", _, ⟨some "k1", some .edDSA, key⟩, key, extractBearer_eq_ok.mpr
    ⟨rfl, htext⟩, if_pos rfl,
    rfl, by decide, rfl, rfl, hkeyAlg, rfl, decide_eq_true ⟨rfl, rfl, rfl⟩, if_pos rfl, ⟨1700003600,
      rfl, by omega⟩,
    by simp [demoPayload], ["siglet"], rfl, by simp [demoState]⟩

end OneToken

def demoToken : String :=
  "eyJhbGciOiJFZERTQSIsImtpZCI6ImsxIn0." ++
  "eyJzdWIiOiJwYzEiLCJzY29wZSI6Im9wZW5pZCBzaWdsZXQtdG9rZW4tYXBpIiwiYXVkIjoic2lnbGV0IiwiZXhwIjoxNzAwMDAzNjAwfQ." ++
  "xR7UGi0g_B5ChoyaMpRnsaeHRHTPOhyHfQjz9YVXKk9zv-JD-QAB8CWDVckYZ2uIRZnFrSLW9tqdrZ1DJY1jAg"

/-- The public key of the JWK. -/
def demoKey : String := "11qYAYKxCrfVS_7TyWQHOg7hcvPapiMlrwIaaPcHURo"

theorem middleware_admits_own_participant :
    call (demoLibrary demoToken demoKey) 1700000000 (.enabled (demoState demoToken demoKey))
      (.ok (HashMap.empty.insert pathParamPcId "pc1")) (some ("Bearer " ++ demoToken)) =
        .inner (some (inject "pc1")) := by
  refine ((middleware_admission (demoLibrary demoToken demoKey) demoLibrary_checks 1700000000).1
    _ _ _ "pc1").mpr ?_
  have hscope : HasEntry demoPayload.scope "siglet-token-api" :=
    ⟨_, rfl, mem_words_iff.mp (by decide)⟩
  exact ⟨⟨_, rfl, rfl⟩, demoPayload, demo_presents (by decide +kernel), hscope, Or.inl rfl⟩

end Facet.Server
