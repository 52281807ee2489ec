import Facet.TokenManager

/-!
# Configuration of the siglet

`SigletConfig` and `validate`, which collects one message for each problem. Parsing a URL and
compiling an expression are left to the libraries that do it (`Checks`).
-/
namespace Facet.Siglet

structure ClaimMapping where
  «from» : String
  «to» : String
  optional : Bool := false
  deriving DecidableEq, Repr

inductive TokenSource
  | client
  | provider
  deriving DecidableEq, Repr

structure EndpointMapping where
  key : String
  value : String
  endpoint : String
  claimMappings : List ClaimMapping := []
  deriving DecidableEq, Repr

structure TransferType where
  transferType : String
  endpointType : String
  endpoint : Option String
  tokenSource : TokenSource := .provider
  endpointMappings : List EndpointMapping := []
  txRenewalSupport : Bool := false
  claimMappings : List ClaimMapping := []
  deriving DecidableEq, Repr

inductive SignalingAuthConfig
  | disabled
  | enabled (jwksUrl : String) (cacheTtlSeconds : UInt64 := 300) (audience : String := "siglet")
      (requiredScope : String := "dplane-signaling")

inductive ManagementApiAuthConfig
  | disabled
  | enabled (jwksUrl : String) (cacheTtlSeconds : UInt64 := 300) (audience : String := "siglet")

inductive TokenApiAuthConfig
  | disabled
  | enabled (jwksUrl : String) (cacheTtlSeconds : UInt64 := 300) (audience : String := "siglet")
      (requiredScope : String := "siglet-token-api") (adminScope : Option String := none)

structure HttpClientConfig where
  connectTimeoutSeconds : UInt64 := 10
  requestTimeoutSeconds : UInt64 := 30

inductive VaultAuth
  | kubernetesServiceAccount (token tokenFile : Option String)
  | tokenExchange (exchangeUrl subjectTokenFile audience scope : String) (role : Option String)

structure VaultConfig where
  url : Option String := none
  token : Option String := none
  tokenFile : Option String := none
  signingKeyName : String := "signing-siglet"
  mountPath : Option String := none
  tokenSubpath : Option String := none
  useHttpResolution : Bool := false
  auth : Option VaultAuth := none

/-- The deprecated fields count when `auth` is not set. -/
def VaultConfig.resolvedAuth (vault : VaultConfig) : VaultAuth :=
  vault.auth.getD (.kubernetesServiceAccount vault.token vault.tokenFile)

structure TokenConfig where
  issuer : Option String := none
  refreshEndpoint : Option String := none
  serverSecret : Option String := none

/-- `bind` is the printed address. -/
structure SigletConfig where
  sigletApiPort : UInt16 := 8080
  signalingPort : UInt16 := 8081
  refreshApiPort : UInt16 := 8082
  managementApiPort : UInt16 := 8083
  bind : String := "0.0.0.0"
  transferTypes : List TransferType := []
  vault : VaultConfig := {}
  token : TokenConfig := {}
  signalingAuth : SignalingAuthConfig := .enabled ""
  tokenApiAuth : TokenApiAuthConfig := .enabled ""
  managementApiAuth : ManagementApiAuthConfig := .enabled ""
  httpClient : HttpClientConfig := {}

inductive ValidationError
  | single (message : String)
  | multiple (messages : List String)
  deriving DecidableEq, Repr

structure Checks where
  isUrl : String → Bool
  validateExpression : String → Except String Unit

def minServerSecretBytes : ℕ := 16

def minServerSecretHexChars : ℕ := minServerSecretBytes * 2

def hexDigit (c : Char) : Option ℕ :=
  if '0' ≤ c ∧ c ≤ '9' then some (c.toNat - '0'.toNat)
  else if 'a' ≤ c ∧ c ≤ 'f' then some (c.toNat - 'a'.toNat + 10)
  else if 'A' ≤ c ∧ c ≤ 'F' then some (c.toNat - 'A'.toNat + 10)
  else none

/-- Two digits make a byte. -/
def hexDecode : List Char → Option (List UInt8)
  | [] => some []
  | [_] => none
  | high :: low :: rest => do
    let h ← hexDigit high
    let l ← hexDigit low
    let bytes ← hexDecode rest
    return UInt8.ofNat (16 * h + l) :: bytes

/-- The characters with the Unicode property White_Space. -/
def isWhitespace (c : Char) : Bool :=
  let n := c.toNat
  (9 ≤ n && n ≤ 13) || n == 0x20 || n == 0x85 || n == 0xa0 || n == 0x1680 ||
    (0x2000 ≤ n && n ≤ 0x200a) ||
    n == 0x2028 || n == 0x2029 || n == 0x202f || n == 0x205f || n == 0x3000

/-- `trim().is_empty()`. -/
def isBlank (s : String) : Bool := s.toList.all isWhitespace

def report (failed : Bool) (message : String) : List String := if failed then [message] else []

def index (path : String) (i : ℕ) : String := path ++ "[" ++ i.repr ++ "]"

namespace Checks
variable (checks : Checks)

/-- The messages for one mapping and the targets seen after it. -/
def claimMappingErrors (path : String) (seen : List String) (mapping : ClaimMapping) :
    List String × List String :=
  let (targetErrors, seen') :=
    if isBlank mapping.to then ([path ++ ": to cannot be empty"], seen)
    else if mapping.to ∈ Renewable.reservedClaims then
      ([path ++ ": to cannot be a reserved JWT claim: '" ++ mapping.to ++ "'"], seen)
    else if mapping.to ∈ seen then ([path ++ ": duplicate claim key '" ++ mapping.to ++ "'"], seen)
    else ([], mapping.to :: seen)
  let sourceErrors :=
    if isBlank mapping.from then [path ++ ": from cannot be empty"]
    else
      match checks.validateExpression mapping.from with
      | .ok () => []
      | .error e => [path ++ ": " ++ e]
  (targetErrors ++ sourceErrors, seen')

def validateClaimMappingsFrom (path : String) : ℕ → List String → List ClaimMapping → List String
  | _, _, [] => []
  | i, seen, mapping :: mappings =>
    let (errors, seen') := checks.claimMappingErrors (index path i) seen mapping
    errors ++ validateClaimMappingsFrom path (i + 1) seen' mappings

def validateClaimMappings (mappings : List ClaimMapping) (path : String) : List String :=
  checks.validateClaimMappingsFrom path 0 [] mappings

def endpointMappingErrors (path : String) (mapping : EndpointMapping) : List String :=
  report mapping.key.isEmpty (path ++ ": key cannot be empty") ++
  report mapping.value.isEmpty (path ++ ": value cannot be empty") ++
  report mapping.endpoint.isEmpty (path ++ ": endpoint cannot be empty") ++
  checks.validateClaimMappings mapping.claimMappings (path ++ ".claim_mappings")

def endpointErrors (path : String) (tt : TransferType) : List String :=
  match tt.endpointMappings with
  | [] =>
    match tt.endpoint with
    | none => [path ++ ": endpoint is required when no endpoint_mappings are configured"]
    | some endpoint => report endpoint.isEmpty (path ++ ": endpoint cannot be empty")
  | mappings => mappings.zipIdx.flatMap fun (mapping, i) =>
      checks.endpointMappingErrors (index (path ++ ".endpoint_mappings") i) mapping

def transferTypeErrors (path : String) (tt : TransferType) : List String :=
  report tt.transferType.isEmpty (path ++ ": transfer_type cannot be empty") ++
  report tt.endpointType.isEmpty (path ++ ": endpoint_type cannot be empty") ++
  checks.validateClaimMappings tt.claimMappings (path ++ ".claim_mappings") ++
  checks.endpointErrors path tt

/-- The checks that the three sections with a JWKS endpoint share. -/
def jwksErrors (name jwksUrl : String) (cacheTtlSeconds : UInt64) (audience : String) :
    List String :=
  (if jwksUrl.isEmpty then
    [name ++ ".jwks_url is required when " ++ name ++ ".mode = \"enabled\" (set " ++ name ++
      ".mode = \"disabled\" to skip JWT verification in dev)"]
    else report (!checks.isUrl jwksUrl)
      (name ++ ".jwks_url is not a valid URL: '" ++ jwksUrl ++ "'")) ++
  report (cacheTtlSeconds == 0) (name ++ ".cache_ttl_seconds must be greater than 0") ++
  report audience.isEmpty (name ++ ".audience cannot be empty")

def signalingAuthErrors : SignalingAuthConfig → List String
  | .disabled => []
  | .enabled jwksUrl cacheTtlSeconds audience requiredScope =>
    checks.jwksErrors "signaling_auth" jwksUrl cacheTtlSeconds audience ++
    report (isBlank requiredScope) "signaling_auth.required_scope cannot be empty"

def tokenApiAuthErrors : TokenApiAuthConfig → List String
  | .disabled => []
  | .enabled jwksUrl cacheTtlSeconds audience requiredScope adminScope =>
    checks.jwksErrors "token_api_auth" jwksUrl cacheTtlSeconds audience ++
    report (isBlank requiredScope) "token_api_auth.required_scope cannot be empty" ++
    match adminScope with
    | none => []
    | some adminScope =>
      if isBlank adminScope then
        ["token_api_auth.admin_scope cannot be empty when set (omit the key to disable the admin bypass)"]
      else report (adminScope == requiredScope)
        "token_api_auth.admin_scope must differ from token_api_auth.required_scope"

def managementApiAuthErrors : ManagementApiAuthConfig → List String
  | .disabled => []
  | .enabled jwksUrl cacheTtlSeconds audience =>
    checks.jwksErrors "management_api_auth" jwksUrl cacheTtlSeconds audience

def vaultUrlErrors : Option String → List String
  | none => ["vault_url is required"]
  | some url => report (!checks.isUrl url) ("vault_url is not a valid URL: '" ++ url ++ "'")

end Checks

def vaultAuthErrors : VaultAuth → List String
  | .kubernetesServiceAccount none none => ["Either vault_token or vault_token_file is required"]
  | _ => []

def serverSecretErrors : Option String → List String
  | none => []
  | some secretHex =>
    if secretHex.isEmpty then ["token_server_secret cannot be empty"]
    else
      match hexDecode secretHex.toList with
      | some decoded => report (decide (decoded.length < minServerSecretBytes))
          ("token_server_secret should be at least " ++ minServerSecretHexChars.repr ++
            " hex characters (" ++
            minServerSecretBytes.repr ++ " bytes), got " ++ decoded.length.repr ++ " bytes")
      | none =>
        ["token_server_secret must be a valid hex-encoded string, got: '" ++ secretHex ++ "'"]

def portConflict (name : String) (port : UInt16) (other : String) (otherPort : UInt16) :
    List String :=
  report (port == otherPort)
    (name ++ " and " ++ other ++ " cannot be the same (both are " ++ toString port ++ ")")

def zeroPort (name : String) (port : UInt16) : List String :=
  report (port == 0) (name ++ " cannot be 0")

namespace SigletConfig
variable (cfg : SigletConfig)

def portErrors : List String :=
  portConflict "siglet_api_port" cfg.sigletApiPort "signaling_port" cfg.signalingPort ++
  portConflict "refresh_api_port" cfg.refreshApiPort "siglet_api_port" cfg.sigletApiPort ++
  portConflict "refresh_api_port" cfg.refreshApiPort "signaling_port" cfg.signalingPort ++
  portConflict "management_api_port" cfg.managementApiPort "siglet_api_port" cfg.sigletApiPort ++
  portConflict "management_api_port" cfg.managementApiPort "signaling_port" cfg.signalingPort ++
  portConflict "management_api_port" cfg.managementApiPort "refresh_api_port" cfg.refreshApiPort ++
  zeroPort "siglet_api_port" cfg.sigletApiPort ++ zeroPort "signaling_port" cfg.signalingPort ++
  zeroPort "refresh_api_port" cfg.refreshApiPort ++
    zeroPort "management_api_port" cfg.managementApiPort

def vaultPathErrors : List String :=
  report cfg.vault.signingKeyName.isEmpty "vault_signing_key_name cannot be empty" ++
  report (cfg.vault.mountPath.any isBlank) "vault.mount_path cannot be empty when set" ++
  report (cfg.vault.tokenSubpath.any isBlank) "vault.token_subpath cannot be empty when set"

def httpClientErrors : List String :=
  report (cfg.httpClient.connectTimeoutSeconds == 0)
    "http_client.connect_timeout_seconds must be greater than 0" ++
  report (cfg.httpClient.requestTimeoutSeconds == 0)
    "http_client.request_timeout_seconds must be greater than 0"

def errors (checks : Checks) : List String := List.flatten [
  checks.vaultUrlErrors cfg.vault.url,
  vaultAuthErrors cfg.vault.resolvedAuth,
  serverSecretErrors cfg.token.serverSecret,
  cfg.portErrors,
  cfg.transferTypes.zipIdx.flatMap fun (tt, i) =>
    checks.transferTypeErrors (index "transfer_types" i) tt,
  cfg.vaultPathErrors,
  cfg.httpClientErrors,
  checks.signalingAuthErrors cfg.signalingAuth,
  checks.tokenApiAuthErrors cfg.tokenApiAuth,
  checks.managementApiAuthErrors cfg.managementApiAuth]

def validate (checks : Checks) : Except ValidationError Unit :=
  match cfg.errors checks with
  | [] => .ok ()
  | errors => .error (.multiple errors)

variable {cfg} {checks : Checks}

theorem validate_eq_ok : cfg.validate checks = .ok () ↔ cfg.errors checks = [] := by
  unfold validate
  cases cfg.errors checks with
  | nil => simp
  | cons e es => simp

/-- An accepted configuration names a server and a way to authenticate to it. -/
theorem vault_of_validate (h : cfg.validate checks = .ok ()) :
    (∃ url, cfg.vault.url = some url ∧ checks.isUrl url = true) ∧
      cfg.vault.resolvedAuth ≠ .kubernetesServiceAccount none none := by
  have herrors := validate_eq_ok.mp h
  rw [errors, List.flatten_eq_nil_iff] at herrors
  have hurl := herrors (checks.vaultUrlErrors cfg.vault.url) (by simp)
  have hauth := herrors (vaultAuthErrors cfg.vault.resolvedAuth) (by simp)
  constructor
  · cases hcase : cfg.vault.url with
    | none => simp [hcase, Checks.vaultUrlErrors] at hurl
    | some url =>
      refine ⟨url, rfl, ?_⟩
      cases hvalid : checks.isUrl url with
      | true => rfl
      | false => simp [hcase, Checks.vaultUrlErrors, report, hvalid] at hurl
  · intro hnone
    simp [hnone, vaultAuthErrors] at hauth

end SigletConfig
end Facet.Siglet
