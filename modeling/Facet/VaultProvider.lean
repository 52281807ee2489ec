import Facet.VaultRenewal

/-!
# The provider of a renewed token

`RenewingTokenProvider::new` chooses the client and the trigger by the configuration, logs in
and starts the loop. What `validate` asserts of the client state depends on what Vault has
answered to the logins.
-/
namespace Facet.Vault
open TokenRenewer

inductive VaultAuthConfig
  | oauth2 (clientId clientSecret tokenUrl : String) (role : Option String)
  | kubernetesServiceAccount (tokenFilePath : String)
  | tokenExchange (subjectTokenFilePath exchangeUrl audience scope : String) (role : Option String)
  deriving DecidableEq, Repr

structure VaultProviderConfig extends HashicorpVaultConfig where
  authConfig : VaultAuthConfig
  healthThreshold : UInt32 := 3
  maxConsecutiveFailures : UInt32 := 10

def defaultRole : String := "provisioner"

inductive RenewalTriggerConfig
  | timeBased
  | fileBased (tokenFilePath : String)

/-- The answers of the file system watcher, for itself and for the directory of the token file. -/
structure WatcherEnv where
  directory : String
  created : Except String Unit
  watched : Except String Unit

def FileBasedRenewalTrigger.new (tokenFilePath : String) (file : TokenFile) (watcher : WatcherEnv) :
    Except VaultError Unit := do
  if file = .absent then
    throw (.tokenFileNotFound ("Token file not found at path: " ++ tokenFilePath))
  watcher.created.mapError fun e => .tokenFileReadError ("Failed to create file watcher: " ++ e)
  watcher.watched.mapError fun e =>
    .tokenFileReadError ("Failed to watch directory " ++ watcher.directory ++ ": " ++ e)

def RenewalTriggerConfig.build (file : TokenFile) (watcher : WatcherEnv) :
    RenewalTriggerConfig → Except VaultError Unit
  | .timeBased => .ok ()
  | .fileBased tokenFilePath => FileBasedRenewalTrigger.new tokenFilePath file watcher

/-- What `new` meets; `file` is the token file when the trigger is built. -/
structure StartEnv where
  auth : AuthEnv
  now : ℤ
  file : TokenFile
  watcher : WatcherEnv

structure RenewingTokenProvider where
  state : VaultClientState
  renewer : TokenRenewer AuthEnv

namespace RenewingTokenProvider

def authClient (config : VaultProviderConfig) :
    Except VaultError (VaultAuthClient × RenewalTriggerConfig) :=
  match config.authConfig with
  | .oauth2 clientId clientSecret tokenUrl role =>
    .ok (.jwt ⟨config.vaultUrl, clientId, clientSecret, tokenUrl, role.getD defaultRole⟩,
      .timeBased)
  | .kubernetesServiceAccount tokenFilePath =>
    .ok (.file { tokenFilePath := tokenFilePath }, .fileBased tokenFilePath)
  | .tokenExchange _ _ _ _ _ =>
    .error (.invalidData "RenewingTokenProvider does not support TokenExchange auth")

def new (config : VaultProviderConfig) (env : StartEnv) :
    Except VaultError (RenewingTokenProvider × String) := do
  let (client, trigger) ← authClient config
  let auth ← client.authenticate env.auth
  let state : VaultClientState :=
    { token := auth.clientToken
      lastCreated := env.now
      leaseDuration := auth.leaseDuration
      healthThreshold := config.healthThreshold }
  let renewer : TokenRenewer AuthEnv :=
    { authenticate := client.authenticate
      vaultUrl := config.vaultUrl
      maxConsecutiveFailures := config.maxConsecutiveFailures }
  trigger.build env.file env.watcher
  return (⟨state, renewer⟩, auth.clientToken)

/-- The loop as `new` has started it. -/
def started (provider : RenewingTokenProvider) (now : ℤ) : State := ⟨.top, provider.state, now, []⟩

end RenewingTokenProvider

/-! ## Logins that can be used -/

def Usable (auth : AuthInfo) : Prop := auth.clientToken ≠ "" ∧ 0 < auth.leaseDuration

/-- When Vault grants the login of the configured client, it is with a token and for some time. -/
def UsableLogin (config : VaultProviderConfig) (env : AuthEnv) : Prop :=
  ∀ clientId clientSecret tokenUrl role,
    config.authConfig = .oauth2 clientId clientSecret tokenUrl role →
    ∀ jwt response auth, getVaultAccessToken env.send clientId clientSecret tokenUrl = .ok jwt →
      env.send ⟨config.vaultUrl ++ "/v1/auth/jwt/login",
        .json [("jwt", jwt), ("role", role.getD defaultRole)]⟩ = .ok response →
      response.isSuccess = true → response.auth = .ok auth → Usable auth

/-- The logins of a run can be used. -/
def UsableLogins (config : VaultProviderConfig) (_ : State) (l : Label AuthEnv)
    (_ : State) : Prop :=
  ∀ env, l = .authenticate env → UsableLogin config env

/-- What `validate` asserts of the fields that a run changes. -/
def Valid (state : VaultClientState) : Prop :=
  state.token ≠ "" ∧ 0 < state.leaseDuration ∧
    ∀ renewed, state.lastRenewed = some renewed → state.lastCreated ≤ renewed

theorem VaultClientState.validate_iff {state : VaultClientState} :
    state.validate = true ↔ Valid state ∧ 0 < state.healthThreshold := by
  simp only [VaultClientState.validate, Valid, Bool.and_eq_true, Bool.not_eq_true',
    decide_eq_true_eq, Option.all_eq_true, ← Bool.not_eq_true, String.isEmpty_iff]
  tauto

namespace RenewingTokenProvider
variable {config : VaultProviderConfig} {client : VaultAuthClient} {trigger : RenewalTriggerConfig}

theorem usableLogin_iff (hclient : authClient config = .ok (client, trigger)) (env : AuthEnv) :
    UsableLogin config env ↔ ∀ auth, client.authenticate env = .ok auth → Usable auth := by
  unfold authClient at hclient
  cases hconfig : config.authConfig with
  | oauth2 clientId clientSecret tokenUrl role =>
    simp only [hconfig, Except.ok.injEq, Prod.mk.injEq] at hclient
    obtain ⟨rfl, -⟩ := hclient
    simp only [UsableLogin, hconfig, VaultAuthConfig.oauth2.injEq, VaultAuthClient.authenticate,
      JwtVaultAuthClient.authenticate, bind_eq_ok, jwtLogin_eq_ok]
    constructor
    · intro husable auth hauth
      obtain ⟨jwt, hjwt, response, hsend, hsuccess, hinfo⟩ := hauth
      exact husable _ _ _ _ ⟨rfl, rfl, rfl, rfl⟩ jwt response auth hjwt hsend hsuccess hinfo
    · rintro husable _ _ _ _ ⟨rfl, rfl, rfl, rfl⟩ jwt response auth hjwt hsend hsuccess hinfo
      exact husable auth ⟨jwt, hjwt, response, hsend, hsuccess, hinfo⟩
  | kubernetesServiceAccount tokenFilePath =>
    simp only [hconfig, Except.ok.injEq, Prod.mk.injEq] at hclient
    obtain ⟨rfl, -⟩ := hclient
    refine iff_of_true (by simp [UsableLogin, hconfig]) ?_
    intro auth hauth
    obtain ⟨content, -, rfl, hne⟩ := FileBasedVaultAuthClient.authenticate_eq_ok.mp hauth
    exact ⟨hne, show (0 : UInt64) < 3600 by decide⟩
  | tokenExchange _ _ _ _ _ => simp [hconfig] at hclient

theorem new_eq_ok {env : StartEnv} {provider : RenewingTokenProvider} {token : String}
    (hnew : new config env = .ok (provider, token)) :
    ∃ client trigger auth, authClient config = .ok (client, trigger) ∧
      client.authenticate env.auth = .ok auth ∧
      provider.renewer = ⟨client.authenticate, config.vaultUrl, config.maxConsecutiveFailures⟩ ∧
      provider.state =
        { token := auth.clientToken
          lastCreated := env.now
          leaseDuration := auth.leaseDuration
          healthThreshold := config.healthThreshold } := by
  simp only [new, bind_eq_ok] at hnew
  obtain ⟨⟨client, trigger⟩, hclient, auth, hauth, -, -, hprovider⟩ := hnew
  simp only [pure, Except.pure, Except.ok.injEq, Prod.mk.injEq] at hprovider
  obtain ⟨rfl, -⟩ := hprovider
  exact ⟨client, trigger, auth, hclient, hauth, rfl, rfl⟩

theorem started_of_new {env : StartEnv} {provider : RenewingTokenProvider} {token : String}
    {now : ℤ} (hnew : new config env = .ok (provider, token))
    (hnow : env.now ≤ now) : Started (provider.started now) := by
  obtain ⟨client, trigger, auth, -, -, -, hstate⟩ := new_eq_ok hnew
  exact ⟨rfl, rfl, auth.clientToken, auth.leaseDuration, config.healthThreshold,
    env.now, hnow, hstate⟩

/-! ## The client state of a run -/

/-- The token and its lease can be used, and the trigger is asked with the lease. -/
structure Kept (config : VaultProviderConfig) (s : State) : Prop where
  token : s.client.token ≠ ""
  leaseDuration : 0 < s.client.leaseDuration
  healthThreshold : s.client.healthThreshold = config.healthThreshold
  waiting : ∀ lastTtl failures, s.phase = .waiting lastTtl failures →
    lastTtl = s.client.leaseDuration

section Run
variable {r : TokenRenewer AuthEnv} {s t : State}

theorem kept_step {l : Label AuthEnv} (h : Kept config s) (he : Effect r s l t)
    (husable : ∀ env auth, l = .authenticate env → r.authenticate env = .ok auth → Usable auth) :
    Kept config t := by
  cases he with
  | passed monotone => exact { h with }
  | asked below top =>
    refine { h with waiting := ?_ }
    intro lastTtl failures hwaiting
    exact (Phase.waiting.inj hwaiting).1.symm
  | @replaced env auth authenticating ok =>
    obtain ⟨htoken, hlease⟩ := husable env auth rfl ok
    exact ⟨htoken, hlease, h.healthThreshold, by simp⟩
  | _ => exact ⟨h.token, h.leaseDuration, h.healthThreshold, by simp⟩

theorem valid_replaceToken (state : VaultClientState) (auth : AuthInfo) (now : ℤ) :
    Valid (state.replaceToken auth now) ↔ Usable auth := by
  simp [Valid, Usable, VaultClientState.replaceToken]

theorem client_of_authenticate {env : AuthEnv} {auth : AuthInfo}
    (hauth : r.authenticate env = .ok auth) (hn : next r s (.authenticate env) = some t) :
    t.client = s.client.replaceToken auth s.now := by
  simp only [next] at hn
  split at hn
  · simp only [hauth, Option.some.injEq] at hn
    subst hn
    rfl
  · exact absurd hn (by simp)

end Run

/-- In a run whose logins can all be used the client state is valid, and the trigger never waits for
a part of nothing. A further login that Vault grants keeps it so only if it can be used too. -/
theorem client_state_valid {env : StartEnv} {provider : RenewingTokenProvider} {token : String}
    {now : ℤ} (hnew : new config env = .ok (provider, token)) (hlogin : UsableLogin config env.auth)
    (hnow : env.now ≤ now) {ls : List (Label AuthEnv)} {s : State}
    (hrun : (renewalLoop provider.renewer).Path (UsableLogins config) (provider.started now) ls s) :
    Valid s.client ∧ (s.client.validate = true ↔ 0 < config.healthThreshold) ∧
      (∀ lastTtl failures, s.phase = .waiting lastTtl failures → 0 < lastTtl) ∧
      ∀ l t, next provider.renewer s l = some t → (Valid t.client ↔
        ∀ env, l = .authenticate env → UsableLogin config env) := by
  obtain ⟨client, trigger, auth, hclient, hauth, hrenewer, hstate⟩ := new_eq_ok hnew
  have husable : ∀ env, UsableLogin config env ↔
      ∀ auth, provider.renewer.authenticate env = .ok auth → Usable auth := by
    rw [hrenewer]
    exact usableLogin_iff hclient
  have hstart : Kept config (provider.started now) := by
    obtain ⟨htoken, hlease⟩ := (usableLogin_iff hclient env.auth).mp hlogin auth hauth
    refine ⟨?_, ?_, ?_, by simp [started]⟩
    · simpa [started, hstate] using htoken
    · simpa [started, hstate] using hlease
    · simp [started, hstate]
  have hstep : ∀ a l b, Kept config a → next provider.renewer a l = some b →
      UsableLogins config a l b →
      Kept config b := by
    intro a l b ha hn hok
    refine kept_step ha (effect_of_next hn) ?_
    intro env auth hlabel
    exact (husable env).mp (hok env hlabel) auth
  have hvalid : ∀ {ls t}, (renewalLoop provider.renewer).Path (UsableLogins config)
      (provider.started now) ls t →
      Kept config t ∧ Valid t.client := by
    intro ls t hpath
    have hkept : Kept config t := hpath.invariant hstart hstep
    have hinv : Inv provider.renewer t := inv_of_reach
      ⟨_, _, started_of_new hnew hnow, hpath.mono fun _ _ _ _ => trivial⟩
    exact ⟨hkept, hkept.token, hkept.leaseDuration, hinv.lastRenewed⟩
  obtain ⟨hkept, hclientValid⟩ := hvalid hrun
  refine ⟨hclientValid, ?_, ?_, ?_⟩
  · rw [VaultClientState.validate_iff, hkept.healthThreshold]
    exact and_iff_right hclientValid
  · intro lastTtl failures hwaiting
    rw [hkept.waiting lastTtl failures hwaiting]
    exact hkept.leaseDuration
  · intro l t hn
    constructor
    · intro ht env hlabel
      subst hlabel
      rw [husable]
      intro auth' hauth'
      rw [client_of_authenticate hauth' hn] at ht
      exact (valid_replaceToken _ _ _).mp ht
    · intro hok
      exact (hvalid (hrun.append (Machine.Path.one hn hok))).2

/-! ## A token that does not expire -/

/-- Vault answers every request with a token that has no lease. -/
def nonExpiring : AuthSend := fun _ =>
  .ok { status := 200, statusText := "200 OK", text := none, accessToken := .ok "jwt",
        auth := .ok ⟨"hvs.1", 0⟩ }

def hourly : AuthSend := fun _ =>
  .ok { status := 200, statusText := "200 OK", text := none, accessToken := .ok "jwt",
        auth := .ok ⟨"hvs.1", 3600⟩ }

def credentialsConfig : VaultProviderConfig where
  vaultUrl := "http://vault:8200"
  softDelete := false
  authConfig := .oauth2 "siglet" "secret" "http://idp/token" none

def startEnv (send : AuthSend) : StartEnv where
  auth := ⟨send, .absent⟩
  now := 0
  file := .absent
  watcher := ⟨"", .ok (), .ok ()⟩

def providerOf (lease : UInt64) : RenewingTokenProvider where
  state := { token := "hvs.1", lastCreated := 0, leaseDuration := lease, healthThreshold := 3 }
  renewer :=
    { authenticate := VaultAuthClient.authenticate
        (.jwt ⟨"http://vault:8200", "siglet", "secret", "http://idp/token", "provisioner"⟩)
      vaultUrl := "http://vault:8200" }

theorem new_nonExpiring :
    new credentialsConfig (startEnv nonExpiring) = .ok (providerOf 0, "hvs.1") := rfl

theorem new_hourly : new credentialsConfig (startEnv hourly) = .ok (providerOf 3600, "hvs.1") := rfl

/-- The state is not valid, and the trigger is asked to wait for a part of nothing. -/
theorem non_expiring_token_spins :
    ¬∀ (config : VaultProviderConfig) (env : StartEnv) (provider : RenewingTokenProvider)
      (token : String) (now : ℤ) (ls : List (Label AuthEnv))
      (s : State), new config env = .ok (provider, token) →
      env.now ≤ now → (renewalLoop provider.renewer).Path Machine.Any (provider.started now) ls s →
      Valid s.client ∧ ∀ lastTtl failures, s.phase = .waiting lastTtl failures → 0 < lastTtl := by
  intro hall
  have hstep : (renewalLoop (providerOf 0).renewer).next ((providerOf 0).started 0) .check =
      some { (providerOf 0).started 0 with phase := .waiting 0 0 } := rfl
  have hbad := hall credentialsConfig (startEnv nonExpiring) (providerOf 0) "hvs.1" 0 _ _
    new_nonExpiring le_rfl
    (Machine.Path.one hstep trivial)
  exact absurd (hbad.2 0 0 rfl) (by decide)

/-- The first check of the loop. -/
theorem hourly_token_valid : ((renewalLoop (providerOf 3600).renewer).final (fun _ _ _ => true)
    ((providerOf 3600).started 0) [.check]).client.validate = true := by
  have hlogin : UsableLogin credentialsConfig ⟨hourly, .absent⟩ := by
    intro _ _ _ _ _ jwt response auth _ hsend _ hinfo
    obtain rfl := Except.ok.inj hsend
    obtain rfl := Except.ok.inj hinfo
    exact ⟨by simp, by decide⟩
  have hstep : (renewalLoop (providerOf 3600).renewer).next ((providerOf 3600).started 0) .check =
      some { (providerOf 3600).started 0 with phase := .waiting 3600 0 } := rfl
  have husable : UsableLogins credentialsConfig ((providerOf 3600).started 0) .check
      { (providerOf 3600).started 0 with phase := .waiting 3600 0 } :=
        fun env hlabel => absurd hlabel (by simp)
  exact (client_state_valid new_hourly hlogin le_rfl (Machine.Path.one hstep husable)).2.1.mpr
    (by decide)

end RenewingTokenProvider
end Facet.Vault
