import Facet.Vault

/-!
# Logging in to Vault

The `VaultAuthClient`s, and the token exchange for a participant context. `send` is the HTTP
client with the identity provider and Vault behind it, for the time of one call. A token file
is absent, unreadable or a text.
-/
namespace Facet.Vault
open Text

structure AuthInfo where
  clientToken : String
  leaseDuration : UInt64
  deriving DecidableEq, Repr

/-- `accessToken` and `auth` are the body as a token response and as a login response. -/
structure AuthResponse extends HttpResponse where
  accessToken : Except String String := .error "missing field"
  auth : Except String AuthInfo := .error "missing field"

inductive AuthBody
  | form (params : List (String × String))
  | json (fields : List (String × String))
  deriving DecidableEq, Repr

structure AuthRequest where
  url : String
  body : AuthBody
  deriving DecidableEq, Repr

abbrev AuthSend := AuthRequest → Except String AuthResponse

/-- The texts of a request for an access token. -/
structure TokenRequestTexts where
  request : String
  refused : String
  parse : String
  missing : String

/-- An access token from a token endpoint; an empty one counts as missing. -/
def requestAccessToken (send : AuthSend) (request : AuthRequest) (texts : TokenRequestTexts) :
    Except VaultError String := do
  let response ← (send request).mapError fun e =>
    VaultError.networkError (texts.request ++ ": " ++ e)
  if response.isSuccess = false then
    throw (handleErrorResponse response.toHttpResponse texts.refused)
  let accessToken ← response.accessToken.mapError fun e =>
    VaultError.invalidData (texts.parse ++ ": " ++ e)
  if accessToken.isEmpty then
    throw (.authenticationError texts.missing)
  return accessToken

/-- The client credentials flow. -/
def getVaultAccessToken (send : AuthSend) (clientId clientSecret tokenUrl : String) :
    Except VaultError String :=
  requestAccessToken send
    ⟨tokenUrl, .form [("client_id", clientId), ("client_secret", clientSecret),
      ("grant_type", "client_credentials")]⟩
    { request := "Failed to request access token"
      refused := "Token request failed"
      parse := "Failed to parse token response"
      missing := "Access token not found in response" }

/-- The token exchange; `resource` binds the token to a participant context. -/
def exchangeSubjectToken (send : AuthSend)
    (exchangeUrl subjectToken resource audience scope : String) : Except VaultError String :=
  requestAccessToken send
    ⟨exchangeUrl, .form [("grant_type", "urn:ietf:params:oauth:grant-type:token-exchange"),
      ("subject_token", subjectToken),
      ("subject_token_type", "urn:ietf:params:oauth:token-type:jwt"), ("resource", resource),
      ("audience", audience), ("scope", scope)]⟩
    { request := "Failed to exchange subject token"
      refused := "Token exchange failed"
      parse := "Failed to parse token exchange response"
      missing := "Access token not found in token exchange response" }

/-- The client token and its lease, as Vault gives them. -/
def jwtLogin (send : AuthSend) (vaultUrl jwt role : String) : Except VaultError AuthInfo := do
  let response ←
    (send ⟨vaultUrl ++ "/v1/auth/jwt/login", .json [("jwt", jwt), ("role", role)]⟩).mapError
    fun e => VaultError.networkError ("Failed to authenticate with JWT: " ++ e)
  if response.isSuccess = false then
    throw (handleErrorResponse response.toHttpResponse "JWT login failed")
  response.auth.mapError fun e => .invalidData ("Failed to parse JWT login response: " ++ e)

/-- `exists` and `read_to_string`. -/
inductive TokenFile
  | absent
  | unreadable (message : String)
  | text (content : String)
  deriving DecidableEq, Repr

/-- The three complaints about a token file at a path. -/
structure TokenFileTexts where
  notFound : String
  unreadable : String
  empty : String

def trim (s : String) : String := String.ofList (trimMatches isWhitespace s.toList)

def readTokenFile (path : String) (texts : TokenFileTexts) : TokenFile → Except VaultError String
  | .absent => .error (.tokenFileNotFound (texts.notFound ++ path))
  | .unreadable message =>
    .error (.tokenFileReadError (texts.unreadable ++ path ++ ": " ++ message))
  | .text content =>
    if (trim content).isEmpty then .error (.invalidTokenFormat texts.empty) else .ok (trim content)

structure JwtVaultAuthClient where
  vaultUrl : String
  clientId : String
  clientSecret : String
  tokenUrl : String
  role : String

def JwtVaultAuthClient.authenticate (client : JwtVaultAuthClient) (send : AuthSend) :
    Except VaultError AuthInfo := do
  let jwt ← getVaultAccessToken send client.clientId client.clientSecret client.tokenUrl
  jwtLogin send client.vaultUrl jwt client.role

structure FileBasedVaultAuthClient where
  tokenFilePath : String
  estimatedTtl : UInt64 := 3600

def FileBasedVaultAuthClient.authenticate (client : FileBasedVaultAuthClient) (file : TokenFile) :
    Except VaultError AuthInfo := do
  let token ← readTokenFile client.tokenFilePath
    { notFound := "Token file not found at path: "
      unreadable := "Failed to read token file "
      empty := "Token file is empty" } file
  return ⟨token, client.estimatedTtl⟩

/-- What one call of `authenticate` meets. -/
structure AuthEnv where
  send : AuthSend
  file : TokenFile

/-- The client of a renewing provider. -/
inductive VaultAuthClient
  | jwt (client : JwtVaultAuthClient)
  | file (client : FileBasedVaultAuthClient)

def VaultAuthClient.authenticate (client : VaultAuthClient) (env : AuthEnv) :
    Except VaultError AuthInfo :=
  match client with
  | .jwt client => client.authenticate env.send
  | .file client => client.authenticate env.file

/-! ## What a successful log in returns -/

theorem readTokenFile_eq_ok {path token : String} {texts : TokenFileTexts} {file : TokenFile} :
    readTokenFile path texts file = .ok token ↔
      ∃ content, file = .text content ∧ trim content = token ∧ token ≠ "" := by
  cases file with
  | absent => simp [readTokenFile]
  | unreadable message => simp [readTokenFile]
  | text content =>
    unfold readTokenFile
    dsimp only
    by_cases hempty : (trim content).isEmpty = true
    · rw [if_pos hempty]
      refine iff_of_false (by simp) ?_
      intro htext
      obtain ⟨content', hsame, rfl, hne⟩ := htext
      obtain rfl := TokenFile.text.inj hsame
      exact hne (String.isEmpty_iff.mp hempty)
    · rw [if_neg hempty]
      rw [String.isEmpty_iff] at hempty
      constructor
      · intro hok
        obtain rfl := Except.ok.inj hok
        exact ⟨content, rfl, rfl, hempty⟩
      · intro htext
        obtain ⟨content', hsame, rfl, -⟩ := htext
        obtain rfl := TokenFile.text.inj hsame
        rfl

theorem FileBasedVaultAuthClient.authenticate_eq_ok {client : FileBasedVaultAuthClient}
    {file : TokenFile} {auth : AuthInfo} : client.authenticate file = .ok auth ↔
      ∃ content, file = .text content ∧ auth = ⟨trim content, client.estimatedTtl⟩ ∧
        trim content ≠ "" := by
  unfold FileBasedVaultAuthClient.authenticate
  simp only [bind_eq_ok, readTokenFile_eq_ok, pure, Except.pure, Except.ok.injEq]
  constructor
  · intro hok
    obtain ⟨token, ⟨content, rfl, rfl, hne⟩, rfl⟩ := hok
    exact ⟨content, rfl, rfl, hne⟩
  · intro htext
    obtain ⟨content, rfl, rfl, hne⟩ := htext
    exact ⟨_, ⟨content, rfl, rfl, hne⟩, rfl⟩

theorem jwtLogin_eq_ok {send : AuthSend} {vaultUrl jwt role : String} {auth : AuthInfo} :
    jwtLogin send vaultUrl jwt role = .ok auth ↔
      ∃ response, send ⟨vaultUrl ++ "/v1/auth/jwt/login", .json [("jwt", jwt), ("role", role)]⟩ =
        .ok response ∧ response.isSuccess = true ∧ response.auth = .ok auth := by
  unfold jwtLogin
  simp only [bind_eq_ok, mapError_eq_ok]
  refine exists_congr fun response => and_congr_right fun _ => ?_
  cases response.isSuccess <;> simp [mapError_eq_ok, bind_eq_ok]

end Facet.Vault
