import Facet.SigletConfig
import Facet.KeyRotation

/-!
# Assembly of the siglet

The components that sign access tokens and the ones that verify them, as `assemble_memory` and
`assemble_postgres` wire them from a configuration. The stores play no part here.
-/
namespace Facet.Siglet
open Vault Renewable

def defaultTokenIssuer : String := "siglet"

def tokenRefreshPath : String := "/token"

def sigletPcId : String := "siglet"

def accessTokenSigningKeyPrefix : String := "signing"

inductive SigletError
  | io (message : String)
  | vault (message : String)
  | invalidConfiguration (message : String)
  deriving DecidableEq, Repr

inductive VaultAuthConfig
  | kubernetesServiceAccount (tokenFilePath : String)
  | tokenExchange (subjectTokenFilePath exchangeUrl audience scope : String) (role : Option String)

/-- What the process is given: the temporary file for a token, the log in to Vault, the HTTP client,
a random secret, and the libraries of the components. -/
structure Platform (σ : Type) where
  writeTokenFile : String → Except String String
  login : VaultAuthConfig → Except VaultError (ParticipantContext → Except VaultError String)
  send : HttpRequest → σ → Except String HttpResponse × σ
  randomSecret : List UInt8
  hexError : String → String
  hmacSha256 : List UInt8 → String → String
  bs58Encode : List UInt8 → String
  decodeError : String → String
  claimsToVec : TokenClaims → Except String (List UInt8)
  toVec : Value → Except String (List UInt8)
  didResolver : Did.DidWebVerificationKeyResolver

structure Assembled (σ : Type) where
  vaultClient : HashicorpVaultClient σ
  jwtGenerator : VaultJwtGenerator σ
  clientKeyResolver : Did.DidWebVerificationKeyResolver
  vaultResolver : VaultKeyResolverState σ
  cache : KeyCache
  tokenManager : JwtTokenManager

namespace Platform
variable {σ : Type} (p : Platform σ)

def buildVaultAuthConfig : VaultAuth → Except SigletError VaultAuthConfig
  | .tokenExchange exchangeUrl subjectTokenFile audience scope role =>
    .ok (.tokenExchange subjectTokenFile exchangeUrl audience scope role)
  | .kubernetesServiceAccount _ (some tokenFilePath) =>
    .ok (.kubernetesServiceAccount tokenFilePath)
  | .kubernetesServiceAccount (some vaultToken) none =>
    ((p.writeTokenFile vaultToken).mapError SigletError.io).map .kubernetesServiceAccount
  | .kubernetesServiceAccount none none =>
    .error (.invalidConfiguration "Either vault_token or vault_token_file is required")

def createVaultClient (vault : VaultConfig) : Except SigletError (HashicorpVaultClient σ) := do
  let vaultUrl ← okOr vault.url (.invalidConfiguration "vault_url is required")
  let authConfig ← p.buildVaultAuthConfig vault.resolvedAuth
  let tokenProvider ← (p.login authConfig).mapError fun e => SigletError.vault e.message
  return {
    config := {
      vaultUrl := vaultUrl
      mountPath := vault.mountPath
      softDelete := false
      signingKeyName := some vault.signingKeyName }
    send := p.send
    token := some tokenProvider }

/-- The key name comes from the context of the issuer, not from the configuration. -/
def createJwtComponents (vaultClient : VaultSigningClient σ) (useHttpResolution : Bool) :
    VaultJwtGenerator σ × Did.DidWebVerificationKeyResolver :=
  ({ signingClient := vaultClient
     keyResolver := PrefixTransitKeyResolver accessTokenSigningKeyPrefix
     claimsToVec := p.claimsToVec
     toVec := p.toVec },
   { p.didResolver with useHttps := !useHttpResolution })

def serverSecretBytes : Option String → Except SigletError (List UInt8)
  | none => .ok p.randomSecret
  | some secretHex => okOr (hexDecode secretHex.toList)
      (.invalidConfiguration ("Invalid server secret hex: " ++ p.hexError secretHex))

def generateServerSecret (cfg : SigletConfig) : Except SigletError ValidatedServerSecret := do
  let bytes ← p.serverSecretBytes cfg.token.serverSecret
  (ValidatedServerSecret.tryFrom bytes).mapError fun e => SigletError.invalidConfiguration e.message

def vaultResolver (vaultClient : VaultSigningClient σ) : VaultKeyResolverState σ where
  vaultClient := vaultClient
  signingContext := { id := sigletPcId }
  decodeError := p.decodeError

/-- The resolver with its first load. -/
def createVaultResolverComponents (vaultClient : VaultSigningClient σ) (s : σ) :
    Except SigletError (VaultKeyResolverState σ × KeyCache) × σ :=
  let resolver := p.vaultResolver vaultClient
  let (result, cache, s') := resolver.loadKeys HashMap.empty s
  (match result with
    | .ok () => .ok (resolver, cache)
    | .error e => .error (.vault e.message), s')

def createTokenManager (cfg : SigletConfig) (serverSecret : ValidatedServerSecret)
    (issuerId : String) : JwtTokenManager where
  issuer := cfg.token.issuer.getD defaultTokenIssuer
  issuerId := some issuerId
  refreshEndpoint := cfg.token.refreshEndpoint.getD
    ("http://" ++ cfg.bind ++ ":" ++ toString cfg.refreshApiPort ++ tokenRefreshPath)
  serverSecret := serverSecret
  hmacSha256 := p.hmacSha256

def assemble (cfg : SigletConfig) (s : σ) : Except SigletError (Assembled σ) × σ :=
  match p.createVaultClient cfg.vault with
  | .error e => (.error e, s)
  | .ok client =>
    let signingClient := client.signingClient p.bs58Encode
    let (jwtGenerator, clientKeyResolver) :=
      p.createJwtComponents signingClient cfg.vault.useHttpResolution
    match p.generateServerSecret cfg with
    | .error e => (.error e, s)
    | .ok serverSecret =>
      let (resolved, s') := p.createVaultResolverComponents signingClient s
      (match resolved with
        | .error e => .error e
        | .ok (vaultResolver, cache) =>
          .ok ⟨client, jwtGenerator, clientKeyResolver, vaultResolver, cache,
            p.createTokenManager cfg serverSecret sigletPcId⟩, s')

variable {p}

/-- What an assembly takes from the configuration for signing and verifying. -/
theorem assemble_ok {cfg : SigletConfig} {s : σ} {a : Assembled σ}
    (h : (p.assemble cfg s).1 = .ok a) :
    a.vaultClient.config.signingKeyName = some cfg.vault.signingKeyName ∧
      a.vaultClient.config.jwtKidTransformer = none ∧
      a.jwtGenerator.signingClient = a.vaultClient.signingClient p.bs58Encode ∧
      a.jwtGenerator.keyResolver = PrefixTransitKeyResolver accessTokenSigningKeyPrefix ∧
      a.vaultResolver = p.vaultResolver (a.vaultClient.signingClient p.bs58Encode) ∧
      a.cache = (a.vaultResolver.loadKeys HashMap.empty s).2.1 ∧
      a.tokenManager.issuerContext =
        { id := sigletPcId, identifier := cfg.token.issuer.getD defaultTokenIssuer } := by
  unfold assemble at h
  cases hclient : p.createVaultClient cfg.vault with
  | error e => simp [hclient] at h
  | ok client =>
    cases hsecret : p.generateServerSecret cfg with
    | error e => simp [hclient, hsecret] at h
    | ok secret =>
      simp only [hclient, hsecret, createVaultResolverComponents] at h
      cases hload :
        ((p.vaultResolver (client.signingClient p.bs58Encode)).loadKeys HashMap.empty s).1 with
      | error e => simp [hload] at h
      | ok done =>
        simp only [hload, Except.ok.injEq] at h
        unfold createVaultClient at hclient
        obtain ⟨vaultUrl, -, hclient⟩ := bind_eq_ok.mp hclient
        obtain ⟨authConfig, -, hclient⟩ := bind_eq_ok.mp hclient
        obtain ⟨tokenProvider, -, hclient⟩ := bind_eq_ok.mp hclient
        obtain rfl := Except.ok.inj hclient
        subst h
        exact ⟨rfl, rfl, rfl, rfl, rfl, rfl, rfl⟩

theorem createVaultClient_ne_invalid {cfg : SigletConfig} {checks : Checks}
    (hvalid : cfg.validate checks = .ok ()) (message : String) :
    p.createVaultClient cfg.vault ≠ .error (.invalidConfiguration message) := by
  obtain ⟨⟨url, hurl, -⟩, hauth⟩ := SigletConfig.vault_of_validate hvalid
  unfold createVaultClient
  rw [hurl]
  cases hconfig : p.buildVaultAuthConfig cfg.vault.resolvedAuth with
  | error e =>
    intro h
    obtain rfl : e = .invalidConfiguration message := by simpa [okOr, bind, Except.bind] using h
    unfold buildVaultAuthConfig at hconfig
    split at hconfig
    · cases hconfig
    · cases hconfig
    · rename_i vaultToken _
      cases hwritten : p.writeTokenFile vaultToken with
      | error e => simp [hwritten, Except.mapError, Except.map] at hconfig
      | ok path => simp [hwritten, Except.mapError, Except.map] at hconfig
    · rename_i hnone
      exact hauth hnone
  | ok config =>
    cases hlogin : p.login config with
    | error e => simp [okOr, bind, Except.bind, hlogin, Except.mapError]
    | ok provider => simp [okOr, bind, Except.bind, hlogin, Except.mapError, pure, Except.pure]

end Platform

namespace Assembled
variable {σ : Type} {p : Platform σ} {cfg : SigletConfig} {s₀ : σ} {a : Assembled σ}

/-- The cache after further loads. -/
def cacheAfter (a : Assembled σ) (states : List σ) : KeyCache :=
  a.vaultResolver.loadAll a.cache states

theorem keyResolver_issuer (h : (p.assemble cfg s₀).1 = .ok a) :
    a.jwtGenerator.keyResolver a.tokenManager.issuerContext = .ok ⟨"signing-siglet", none⟩ := by
  obtain ⟨-, -, -, hresolver, -, -, hcontext⟩ := Platform.assemble_ok h
  rw [hresolver, hcontext]
  rfl

/-- A minted token carries a `kid` of the key that signs it. -/
theorem minted_kid (h : (p.assemble cfg s₀).1 = .ok a)
    (E : ∀ keyName, TransitEngine a.vaultClient keyName) {s : σ} {now : ℤ} {claims : TokenClaims}
    {token : String}
    (hmint : (a.jwtGenerator.generateToken now a.tokenManager.issuerContext claims s).1 =
      .ok token) :
    ∃ input signature, token = input ++ "." ++ signature ∧
      Rotation.Headed a.jwtGenerator
        (versionKid "signing-siglet" ((E "signing-siglet").key s).latest) input := by
  obtain ⟨-, htransform, hclient, -, -, -, -⟩ := Platform.assemble_ok h
  unfold VaultJwtGenerator.generateToken at hmint
  rw [keyResolver_issuer h] at hmint
  dsimp only at hmint
  cases hkid :
    (a.jwtGenerator.headerKid a.tokenManager.issuerContext ⟨"signing-siglet", none⟩ s).1 with
  | error e => simp [hkid] at hmint
  | ok kid =>
    cases hinput : a.jwtGenerator.signingInput now claims kid with
    | error e => simp [hkid, hinput] at hmint
    | ok input =>
      simp only [hkid, hinput] at hmint
      have hderived := headerKid_ok (E "signing-siglet") hclient hkid
      rw [HashicorpVaultClient.kidName, htransform] at hderived
      obtain rfl : kid = versionKid "signing-siglet" ((E "signing-siglet").key s).latest := hderived
      exact ⟨input, _, Rotation.signInput_ok (E := E) hclient hmint,
        Rotation.headed_of_signingInput hinput⟩

/-- A minted token resolves exactly when the configured name is the derived one. The versions of the
signing key are numbered without a gap, and Vault answers. -/
theorem minted_kid_resolves (h : (p.assemble cfg s₀).1 = .ok a)
    (E : ∀ keyName, TransitEngine a.vaultClient keyName) (states : List σ) {s : σ}
    (hload : (a.vaultResolver.loadKeys (a.cacheAfter states) s).1 = .ok ())
    (hversions : ∀ v ∈ ((E "signing-siglet").key s).versions, 1 ≤ v ∧
      v ≤ ((E "signing-siglet").key s).versions.length) :
    (∃ material, (a.vaultResolver.resolveKey (a.cacheAfter states)
      (versionKid "signing-siglet" ((E "signing-siglet").key s).latest) s).1 = .ok material) ↔
    cfg.vault.signingKeyName = "signing-siglet" := by
  obtain ⟨hname, htransform, -, -, hresolver, hcache, -⟩ := Platform.assemble_ok h
  have hclient : a.vaultResolver.vaultClient = a.vaultClient.signingClient p.bs58Encode := by
    rw [hresolver]; rfl
  have hkid : a.vaultClient.kidName cfg.vault.signingKeyName = cfg.vault.signingKeyName := by
    rw [HashicorpVaultClient.kidName, htransform]
    rfl
  have hafter : a.cacheAfter states = a.vaultResolver.loadAll HashMap.empty (s₀ :: states) := by
    rw [cacheAfter, hcache]
    rfl
  obtain ⟨m, hcounted, -, -⟩ :=
    exists_counted (E cfg.vault.signingKeyName) hclient hname (s₀ :: states)
  rw [← hafter] at hcounted
  rw [resolveKey_iff (E cfg.vault.signingKeyName) hclient hname hcounted hload, hkid]
  constructor
  · intro hfound
    obtain ⟨j, -, he⟩ := hfound
    exact (versionKid_inj he).1.symm
  · intro heq
    have hlatest := hversions _ ((E "signing-siglet").key s).latest_mem
    rw [heq]
    exact ⟨((E "signing-siglet").key s).latest - 1, lt_max_of_lt_right
      (by omega), by congr 1; omega⟩

end Assembled

/-- For an accepted configuration the key that signs access tokens is the one whose public keys are
served exactly when the configured name is `signing-siglet`; no access token resolves otherwise. -/
theorem sign_and_verify_share_key {σ : Type} (p : Platform σ) (checks : Checks) (cfg : SigletConfig)
    (s₀ : σ) (a : Assembled σ) (_ : cfg.validate checks = .ok ())
    (hassemble : (p.assemble cfg s₀).1 = .ok a) :
    ((∃ ref, a.jwtGenerator.keyResolver a.tokenManager.issuerContext = .ok ref ∧
        a.vaultResolver.vaultClient.signingKeyName = some ref.keyName) ↔
      cfg.vault.signingKeyName = "signing-siglet") ∧
    ∀ (E : ∀ keyName, TransitEngine a.vaultClient keyName) (states : List σ) (s : σ) (now : ℤ)
      (claims : TokenClaims) (token : String),
        (a.vaultResolver.loadKeys (a.cacheAfter states) s).1 = .ok () →
      (∀ v ∈ ((E "signing-siglet").key s).versions, 1 ≤ v ∧
        v ≤ ((E "signing-siglet").key s).versions.length) →
      (a.jwtGenerator.generateToken now a.tokenManager.issuerContext claims s).1 = .ok token →
      ∃ kid input signature, token = input ++ "." ++ signature ∧
      Rotation.Headed a.jwtGenerator kid input ∧
        ((∃ material, (a.vaultResolver.resolveKey (a.cacheAfter states) kid s).1 = .ok material) ↔
          cfg.vault.signingKeyName = "signing-siglet") := by
  obtain ⟨hname, -, -, -, hresolver, -, -⟩ := Platform.assemble_ok hassemble
  have hserved : a.vaultResolver.vaultClient.signingKeyName = some cfg.vault.signingKeyName := by
    rw [hresolver]
    exact hname
  constructor
  · rw [Assembled.keyResolver_issuer hassemble, hserved]
    constructor
    · intro href
      obtain ⟨ref, href, heq⟩ := href
      rw [← Except.ok.inj href] at heq
      exact Option.some.inj heq
    · intro heq
      exact ⟨⟨"signing-siglet", none⟩, rfl, congrArg some heq⟩
  · intro E states s now claims token hload hversions hmint
    obtain ⟨input, signature, htoken, hheaded⟩ := Assembled.minted_kid hassemble E hmint
    exact ⟨_, input, signature, htoken, hheaded, Assembled.minted_kid_resolves hassemble
      E states hload hversions⟩

def demoChecks : Checks where
  isUrl url := "http://".toList.isPrefixOf url.toList
  validateExpression _ := .ok ()

def demoDidResolver : Did.DidWebVerificationKeyResolver where
  httpGet _ := .error "connection refused"
  bs58Decode _ := .error "invalid character"
  jsonToVec _ := .ok []

def demoPlatform : Platform DemoKeys where
  writeTokenFile _ := .ok "/tmp/siglet_vault_token"
  login _ := .ok fun _ => .ok "vault-token"
  send := demoTransitSend
  randomSecret := List.replicate 32 7
  hexError _ := "Odd number of digits"
  hmacSha256 _ token := token
  bs58Encode _ := ""
  decodeError _ := "Invalid symbol"
  claimsToVec := Rotation.demoGenerator.claimsToVec
  toVec := Rotation.demoGenerator.toVec
  didResolver := demoDidResolver

/-- A configuration without authentication of its APIs, with the given name for the signing key. -/
def demoConfig (signingKeyName : String) : SigletConfig where
  vault :=
    { url := some "http://vault:8200", token := some "root", signingKeyName := signingKeyName }
  signalingAuth := .disabled
  tokenApiAuth := .disabled
  managementApiAuth := .disabled

def demoClient (signingKeyName : String) : HashicorpVaultClient DemoKeys where
  config :=
    { vaultUrl := "http://vault:8200", softDelete := false, signingKeyName := some signingKeyName }
  send := demoTransitSend
  token := some fun _ => .ok "vault-token"

def demoClientEngine (signingKeyName keyName : String) :
    TransitEngine (demoClient signingKeyName) keyName where
  key := (demoEngine keyName).key
  pub := demoPublicKey
  sign := demoSign
  pub_length := (demoEngine keyName).pub_length
  read_keeps := (demoEngine keyName).read_keeps
  sign_keeps := (demoEngine keyName).sign_keeps
  reads := (demoEngine keyName).reads
  signs := (demoEngine keyName).signs

def demoSecret : ValidatedServerSecret := ⟨List.replicate 32 7, by decide⟩

def demoAssembled (signingKeyName : String) (keys : DemoKeys) : Assembled DemoKeys where
  vaultClient := demoClient signingKeyName
  jwtGenerator :=
    (demoPlatform.createJwtComponents
      ((demoClient signingKeyName).signingClient fun _ => "") false).1
  clientKeyResolver := demoDidResolver
  vaultResolver :=
    demoPlatform.vaultResolver ((demoClient signingKeyName).signingClient fun _ => "")
  cache :=
    ((demoPlatform.vaultResolver ((demoClient signingKeyName).signingClient fun _ => "")).loadKeys
      HashMap.empty keys).2.1
  tokenManager := demoPlatform.createTokenManager (demoConfig signingKeyName) demoSecret sigletPcId

theorem demoClient_sendRead (signingKeyName token keyName : String) (keys : DemoKeys) :
    ((demoClient signingKeyName).send ⟨.get, (demoClient signingKeyName).transitKeyUrl keyName,
      token, none⟩ keys).1 =
      .ok (demoKeyResponse (keys keyName)) := demo_sendRead token keyName keys

theorem demoClient_sendSign (signingKeyName token keyName : String) (content : List UInt8)
    (keys : DemoKeys) :
    ((demoClient signingKeyName).send
      ⟨.post, (demoClient signingKeyName).transitSignUrlForKey keyName, token,
        some (HashicorpVaultClient.signBody content)⟩ keys).1 =
          .ok (demoSignResponse (keys keyName) content) :=
  demo_sendSign token keyName content keys

theorem demoClient_getKeyMetadata (signingKeyName keyName : String) (pc : ParticipantContext)
    (format : PublicKeyFormat) (keys : DemoKeys) :
    (((demoClient signingKeyName).signingClient fun _ => "").getKeyMetadata pc
      keyName format keys).1 =
        .ok ⟨keyName, (keys keyName).sorted.map
          (fun v => keyText (fun _ => "") (demoPublicKey v) format),
        (keys keyName).latest⟩ :=
  (demoClientEngine signingKeyName keyName).getKeyMetadata_of_success (fun _ => "") format rfl
    (demoClient_sendRead signingKeyName "vault-token" keyName keys) rfl

theorem demo_loads (signingKeyName : String) (cache : KeyCache) (keys : DemoKeys) :
    ((demoPlatform.vaultResolver ((demoClient signingKeyName).signingClient fun _ => "")).loadKeys
      cache keys).1 = .ok () := by
  have hmeta :=
    demoClient_getKeyMetadata signingKeyName signingKeyName { id := sigletPcId } .base64Url keys
  exact (loadKeys_of_metadata (demoClientEngine signingKeyName signingKeyName)
    (r := demoPlatform.vaultResolver ((demoClient signingKeyName).signingClient fun _ => ""))
    rfl rfl hmeta cache).1

theorem demo_assemble (signingKeyName : String) (keys : DemoKeys) :
    (demoPlatform.assemble (demoConfig signingKeyName) keys).1 =
      .ok (demoAssembled signingKeyName keys) := by
  have hclient : demoPlatform.createVaultClient (demoConfig signingKeyName).vault =
      .ok (demoClient signingKeyName) := rfl
  have hsecret : demoPlatform.generateServerSecret (demoConfig signingKeyName) =
      .ok demoSecret := rfl
  have hload := demo_loads signingKeyName HashMap.empty keys
  have hencode : demoPlatform.bs58Encode = fun _ => "" := rfl
  have hhttp : (demoConfig signingKeyName).vault.useHttpResolution = false := rfl
  have hresolver :
      (demoPlatform.createJwtComponents ((demoClient signingKeyName).signingClient fun _ =>
        "") false).2 =
    demoDidResolver := rfl
  simp only [Platform.assemble, hclient, hsecret, Platform.createVaultResolverComponents,
    hencode, hload, hhttp, hresolver, demoAssembled]

theorem demo_mints (signingKeyName : String) (keys : DemoKeys) : ∃ token,
    ((demoAssembled signingKeyName keys).jwtGenerator.generateToken 10
      (demoAssembled signingKeyName keys).tokenManager.issuerContext Rotation.demoClaims keys).1 =
        .ok token := by
  have hresolve := Assembled.keyResolver_issuer (demo_assemble signingKeyName keys)
  generalize (demoAssembled signingKeyName keys).tokenManager.issuerContext = pc at hresolve ⊢
  have hmeta := demoClient_getKeyMetadata signingKeyName "signing-siglet" pc .multibase keys
  have hkid : (demoAssembled signingKeyName keys).jwtGenerator.headerKid pc
      ⟨"signing-siglet", none⟩ keys =
      (.ok (versionKid "signing-siglet" (keys "signing-siglet").latest), keys) := by
    refine Prod.ext ?_
      (Rotation.headerKid_state (E := demoClientEngine signingKeyName) rfl pc _ keys)
    simp only [VaultJwtGenerator.headerKid, demoAssembled, Platform.createJwtComponents, hmeta]
  have hinput : ∀ kid, (demoAssembled signingKeyName keys).jwtGenerator.signingInput 10
      Rotation.demoClaims kid =
      .ok (Rotation.demoText kid) := fun _ => rfl
  have hsigned : ∀ input,
      ((demoAssembled signingKeyName keys).jwtGenerator.signInput pc
        "signing-siglet" input keys).1 =
      .ok (input ++ "." ++
        urlEncode (demoSign (keys "signing-siglet").latest (VaultJwtGenerator.asBytes input))) := by
    intro input
    have hsign :
        (((demoClient signingKeyName).signingClient fun _ => "").signContent pc "signing-siglet"
          (VaultJwtGenerator.asBytes input) keys).1 = .ok (demoSign _ _) :=
      (demoClientEngine signingKeyName "signing-siglet").signContent_of_success (fun _ => "") rfl
        (demoClient_sendSign signingKeyName "vault-token" "signing-siglet"
          (VaultJwtGenerator.asBytes input) keys) rfl
    simp only [VaultJwtGenerator.signInput, demoAssembled, Platform.createJwtComponents, hsign]
    rfl
  simp only [VaultJwtGenerator.generateToken, hresolve, hkid, hinput]
  exact ⟨_, hsigned _⟩

theorem demoConfig_valid {signingKeyName : String} (h : signingKeyName.isEmpty = false) :
    (demoConfig signingKeyName).validate demoChecks = .ok () := by
  have hpaths : (demoConfig signingKeyName).vaultPathErrors = [] := by
    simp [SigletConfig.vaultPathErrors, demoConfig, h, report]
  rw [SigletConfig.validate_eq_ok, SigletConfig.errors, hpaths]
  rfl

/-- The default name: tokens minted from the start resolve. -/
theorem sign_and_verify_share_key_default : ∃ kid input signature,
    Rotation.Headed (demoAssembled "signing-siglet" firstVersion).jwtGenerator kid input ∧
    ((demoAssembled "signing-siglet" firstVersion).jwtGenerator.generateToken 10
      (demoAssembled "signing-siglet" firstVersion).tokenManager.issuerContext Rotation.demoClaims
      firstVersion).1 =
        .ok (input ++ "." ++ signature) ∧
    ∃ material, ((demoAssembled "signing-siglet" firstVersion).vaultResolver.resolveKey
      ((demoAssembled "signing-siglet" firstVersion).cacheAfter []) kid firstVersion).1 =
        .ok material := by
  obtain ⟨token, hmint⟩ := demo_mints "signing-siglet" firstVersion
  have hmain :=
    sign_and_verify_share_key demoPlatform demoChecks (demoConfig "signing-siglet") firstVersion _
      (demoConfig_valid rfl) (demo_assemble "signing-siglet" firstVersion)
  have hversions : ∀ v ∈ [1], 1 ≤ v ∧ v ≤ 1 := by simp
  obtain ⟨kid, input, signature, rfl, hheaded, hiff⟩ :=
    hmain.2 (demoClientEngine "signing-siglet") [] firstVersion 10
      Rotation.demoClaims token (demo_loads "signing-siglet" _ firstVersion) hversions hmint
  exact ⟨kid, input, signature, hheaded, hmint, hiff.mpr rfl⟩

/-- Another name: the configuration is accepted, the tokens are signed with `signing-siglet`, and
their `kid` is not found among the keys of the configured name. -/
theorem configured_name_not_signed_with :
    (¬ ∀ (σ : Type) (p : Platform σ) (checks : Checks) (cfg : SigletConfig)
      (s₀ : σ) (a : Assembled σ), cfg.validate checks = .ok () → (p.assemble cfg s₀).1 = .ok a →
      ∃ ref, a.jwtGenerator.keyResolver a.tokenManager.issuerContext = .ok ref ∧
        a.vaultResolver.vaultClient.signingKeyName = some ref.keyName) ∧
    ¬ ∃ material, ((demoAssembled "edge-signing" firstVersion).vaultResolver.resolveKey
      ((demoAssembled "edge-signing" firstVersion).cacheAfter []) "signing-siglet-1"
      firstVersion).1 = .ok material := by
  have hassemble := demo_assemble "edge-signing" firstVersion
  constructor
  · intro h
    obtain ⟨ref, href, hname⟩ :=
      h DemoKeys demoPlatform demoChecks (demoConfig "edge-signing") firstVersion _
        (demoConfig_valid rfl) hassemble
    rw [Assembled.keyResolver_issuer hassemble] at href
    rw [← Except.ok.inj href] at hname
    exact absurd (Option.some.inj hname) (by decide)
  · have hversions : ∀ v ∈ [1], 1 ≤ v ∧ v ≤ 1 := by simp
    have hiff := Assembled.minted_kid_resolves hassemble (demoClientEngine "edge-signing") []
      (demo_loads "edge-signing" _ firstVersion) hversions
    intro hfound
    exact absurd (hiff.mp hfound) (by decide)

end Facet.Siglet
