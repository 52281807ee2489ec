import Facet.Signaling
import Facet.TokenClient

/-!
# Refreshing a token

Both sides of a refresh: `OAuth2TokenClient`, which signs a proof and posts the refresh token,
and `TokenRefreshHandler`, the provider's endpoint that renews the pair. The two meet in
`serve`, which hands the posted form and header to the handler.
-/
namespace Facet.Siglet
open Renewable Text

structure RefreshParams where
  grantType : String
  refreshToken : String
  deriving DecidableEq, Repr

structure TokenRefreshResponse where
  accessToken : String
  refreshToken : String
  tokenType : String
  expiresIn : ℤ
  deriving DecidableEq, Repr

inductive RefreshApiError
  | token (error : TokenError)
  | unsupportedGrantType (grantType : String)
  | invalidAuthHeader (message : String)
  deriving DecidableEq, Repr

def RefreshApiError.message : RefreshApiError → String
  | .token e => e.message
  | .unsupportedGrantType grantType => "Unsupported grant_type: " ++ grantType
  | .invalidAuthHeader message => "Unauthorized: " ++ message

/-- The status of the answer, with its text, and the message in its body. -/
def RefreshApiError.response : RefreshApiError → ℕ × String × String
  | .token (.notAuthorized message) => (401, "401 Unauthorized", message)
  | .token (.tokenNotFound _) => (401, "401 Unauthorized", "Invalid token")
  | .unsupportedGrantType grantType =>
    (400, "400 Bad Request", "Unsupported grant_type: " ++ grantType)
  | .invalidAuthHeader message => (401, "401 Unauthorized", "Unauthorized: " ++ message)
  | .token _ => (500, "500 Internal Server Error", "Internal server error")

/-- The characters of a header that can be read as text. -/
def isHeaderText (c : Char) : Bool := c == '\t' || (32 ≤ c.toNat && c.toNat < 127)

def extractBearer (authorization : Option String) : Except RefreshApiError String := do
  let value ← okOr authorization (.invalidAuthHeader "Missing Authorization header")
  if value.toList.all isHeaderText = false then
    throw (.invalidAuthHeader "Invalid Authorization header")
  let token ← okOr (stripPrefix "Bearer ".toList value.toList)
    (.invalidAuthHeader "Authorization must use Bearer scheme")
  return String.ofList token

/-- The lifetime is relative to `now`. -/
def refreshResponse (now : ℤ) (pair : RenewableTokenPair) : TokenRefreshResponse where
  accessToken := pair.token
  refreshToken := pair.refreshToken
  tokenType := "Bearer"
  expiresIn := pair.expiresAt - now

/-- `POST /token`. -/
def refreshToken (m : JwtTokenManager) (env : CallEnv) (now : ℤ) (authorization : Option String)
    (params : RefreshParams) (store : InnerStore) :
    Except RefreshApiError TokenRefreshResponse × InnerStore :=
  if params.grantType ≠ "refresh_token" then
    (.error (.unsupportedGrantType params.grantType), store)
  else
    match extractBearer authorization with
    | .error e => (.error e, store)
    | .ok boundToken =>
      let (renewed, store') := m.renew env store boundToken params.refreshToken
      ((renewed.map (refreshResponse now)).mapError RefreshApiError.token, store')

end Facet.Siglet

namespace Facet.Client
open Renewable Siglet

structure TokenResponse where
  accessToken : String
  refreshToken : Option String
  expiresIn : ℤ
  deriving DecidableEq, Repr

structure RefreshPost where
  url : String
  form : List (String × String)
  authorization : String
  deriving DecidableEq, Repr

/-- `text` is the body when it can be read, `json` the body as a token response. -/
structure RefreshReply where
  status : ℕ
  statusText : String
  text : Except String String
  json : Except String TokenResponse

structure OAuth2TokenClient where
  generateToken : ParticipantContext → TokenClaims → Except JwtGenerationError String
  expirationSeconds : ℤ := 300

/-- The environment of one refresh: the clock in seconds when the proof is made, in milliseconds
when the answer is read, and the random `jti` of the proof. -/
structure RefreshEnv where
  now : ℤ
  received : ℤ
  jti : String

namespace OAuth2TokenClient
variable (c : OAuth2TokenClient)

/-- Issuer and subject of the proof are the participant, its audience the counterparty. -/
def proofClaims (env : RefreshEnv) (request : RefreshRequest) : TokenClaims where
  iss := request.participantContext.identifier
  sub := request.participantContext.identifier
  aud := request.endpointIdentifier
  exp := Int.bmod (env.now + c.expirationSeconds) (2 ^ 64)
  custom :=
    (HashMap.empty.insert "token" (Value.string request.accessToken)).insert "jti" (.string env.jti)

def post (request : RefreshRequest) (jwt : String) : RefreshPost where
  url := request.refreshEndpoint
  form := [("grant_type", "refresh_token"), ("refresh_token", request.refreshToken)]
  authorization := "Bearer " ++ jwt

/-- An answer without a refresh token keeps the old one. -/
def readReply (env : RefreshEnv) (request : RefreshRequest) (reply : RefreshReply) :
    Except TokenError RefreshedTokenData := do
  if ¬ (200 ≤ reply.status ∧ reply.status < 300) then
    let body :=
      match reply.text with
      | .ok text => text
      | .error e => "<failed to read body: " ++ e ++ ">"
    throw (.networkError ("Token refresh failed with status " ++ reply.statusText ++ ": " ++ body))
  let response ← reply.json.mapError fun e =>
    TokenError.networkError ("Failed to parse token response: " ++ e)
  return {
    token := response.accessToken
    refreshToken := response.refreshToken.getD request.refreshToken
    expiresAt := env.received + 1000 * response.expiresIn
    refreshEndpoint := request.refreshEndpoint }

/-- `send` is the HTTP client together with the endpoint it posts to. -/
def refreshToken {σ : Type} (env : RefreshEnv)
    (send : RefreshPost → σ → Except String RefreshReply × σ) (request : RefreshRequest)
    (s : σ) : Except TokenError RefreshedTokenData × σ :=
  match liftGeneration (c.generateToken request.participantContext (c.proofClaims env request)) with
  | .error e => (.error e, s)
  | .ok jwt =>
    let (reply, s') := send (post request jwt) s
    ((reply.mapError fun e => TokenError.networkError ("Failed to send refresh request: " ++ e)) >>=
      readReply env request, s')

end OAuth2TokenClient

/-- The value of a form field. -/
def formField (form : List (String × String)) (name : String) : Option String :=
  (form.find? fun entry => entry.1 == name).map Prod.snd

def okReply (response : TokenRefreshResponse) : RefreshReply where
  status := 200
  statusText := "200 OK"
  text := .error "body already read"
  json := .ok ⟨response.accessToken, some response.refreshToken, response.expiresIn⟩

def errorReply (e : RefreshApiError) : RefreshReply where
  status := e.response.1
  statusText := e.response.2.1
  text := .ok ("\x7b\"error\":\"" ++ e.response.2.2 ++ "\"\x7d")
  json := .error "missing field `access_token`"

/-- The answer to a form without the two fields. -/
def formRejected : RefreshReply where
  status := 422
  statusText := "422 Unprocessable Entity"
  text := .ok "Failed to deserialize form body"
  json := .error "expected value"

/-- The characters that a header can carry. -/
def isHeaderValue (c : Char) : Bool := c == '\t' || (32 ≤ c.toNat && c.toNat != 127)

/-- A delivered post. -/
def serve (m : JwtTokenManager) (env : CallEnv) (now : ℤ) (request : RefreshPost)
    (store : InnerStore) : Except String RefreshReply × InnerStore :=
  if request.authorization.toList.all isHeaderValue = false then (.error "builder error", store)
  else
    match formField request.form "grant_type", formField request.form "refresh_token" with
    | some grantType, some token =>
      let (result, store') :=
        Siglet.refreshToken m env now (some request.authorization) ⟨grantType, token⟩ store
      (match result with
        | .ok response => .ok (okReply response)
        | .error e => .ok (errorReply e), store')
    | _, _ => (.ok formRejected, store)

/-! ## A proof that arrives -/

theorem extractBearer_bearer {jwt : String} (htext : jwt.toList.all isHeaderText = true) :
    extractBearer (some ("Bearer " ++ jwt)) = .ok jwt := by
  have hall : ("Bearer " ++ jwt).toList.all isHeaderText = true := by
    rw [String.toList_append, List.all_append, htext]
    rfl
  have hstrip : Text.stripPrefix "Bearer ".toList ("Bearer " ++ jwt).toList = some jwt.toList := by
    rw [Text.stripPrefix_eq_some_iff, String.toList_append]
  simp only [extractBearer, okOr, bind, Except.bind, hall, Bool.true_eq_false, if_false,
    hstrip, pure, Except.pure, String.ofList_toList]

theorem isHeaderValue_of_text {c : Char} (htext : isHeaderText c = true) :
    isHeaderValue c = true := by
  simp only [isHeaderText, isHeaderValue, Bool.or_eq_true, Bool.and_eq_true, decide_eq_true_eq,
    bne_iff_ne] at htext ⊢
  rcases htext with htab | hvisible
  · exact Or.inl htab
  · exact Or.inr ⟨hvisible.1, by omega⟩

theorem serve_post {m : JwtTokenManager} {env : CallEnv} {now : ℤ} {request : RefreshRequest}
    {jwt : String} {store : InnerStore} (htext : jwt.toList.all isHeaderText = true)
    {pair : RenewableTokenPair}
    (hrenew : (m.renew env store jwt request.refreshToken).1 = .ok pair) :
    serve m env now (OAuth2TokenClient.post request jwt) store =
      (.ok (okReply (refreshResponse now pair)),
        (m.renew env store jwt request.refreshToken).2) := by
  have hall : ("Bearer " ++ jwt).toList.all isHeaderValue = true := by
    rw [List.all_eq_true] at htext ⊢
    intro c hc
    rw [String.toList_append, List.mem_append] at hc
    rcases hc with hc | hc
    · exact List.all_eq_true.mp (by rfl) c hc
    · exact isHeaderValue_of_text (htext c hc)
  have hgrant : formField (OAuth2TokenClient.post request jwt).form "grant_type" =
      some "refresh_token" := rfl
  have htoken : formField (OAuth2TokenClient.post request jwt).form "refresh_token" =
      some request.refreshToken := rfl
  have hauthorization : (OAuth2TokenClient.post request jwt).authorization = "Bearer " ++ jwt := rfl
  simp only [serve, hauthorization, hall, Bool.true_eq_false, if_false, hgrant, htoken,
    Siglet.refreshToken, ne_eq, not_true_eq_false, extractBearer_bearer htext, hrenew]
  rfl

theorem refreshToken_serve {c : OAuth2TokenClient} {m : JwtTokenManager} {env : RefreshEnv}
    {renewal : CallEnv} {answered : ℤ} {request : RefreshRequest} {jwt : String}
    {store : InnerStore}
    (hjwt : c.generateToken request.participantContext (c.proofClaims env request) = .ok jwt)
    (htext : jwt.toList.all isHeaderText = true) {pair : RenewableTokenPair}
    (hrenew : (m.renew renewal store jwt request.refreshToken).1 = .ok pair) :
    c.refreshToken env (serve m renewal answered) request store =
      (.ok ⟨pair.token, pair.refreshToken, env.received + 1000 * (pair.expiresAt - answered),
        request.refreshEndpoint⟩, (m.renew renewal store jwt request.refreshToken).2) := by
  simp only [OAuth2TokenClient.refreshToken, liftGeneration_eq_ok.mpr hjwt, serve_post htext hrenew]
  rfl

end Facet.Client
