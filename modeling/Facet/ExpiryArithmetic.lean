import Facet.AdvertisedExpiry
import Facet.CheckedArithmetic

/-!
# The arithmetic of expiries

A counterparty sends a lifetime in seconds, in a data address or in the answer to a refresh. Its sum
with the clock is an `i64` or a date, and the client later subtracts the refresh margin from the
date. Each operation has a range, and outside of it the call panics.
-/
namespace Facet.Siglet
open Arith Renewable Client JwtTokenManager SigletDataFlowHandler

/-! ## Reading a data address -/

/-- What is read of a data address before anything is computed. -/
structure PairFields where
  token : String
  refreshEndpoint : String
  refreshToken : String
  expiresIn : ℤ

namespace SigletDataFlowHandler
variable (h : SigletDataFlowHandler)

def readPairFields (names : PropertyNames) (address : DataAddress) :
    Except HandlerError PairFields := do
  let token ← okOr (h.getProperty address names.authorization)
    (.generic "Data address must contain an authorization property")
  let refreshToken ← okOr (h.getProperty address names.refreshToken)
    (.generic "Data address must contain a refreshToken property")
  let refreshEndpoint ← okOr (h.getProperty address names.refreshEndpoint)
    (.generic "Data address must contain a refreshEndpoint property")
  let text ← okOr (h.getProperty address names.expiresIn)
    (.generic "Data address must contain an expiresIn property")
  let expiresIn ← okOr (Text.parseI64 text.toList) (.generic "Invalid expiresIn format")
  return ⟨token, refreshEndpoint, refreshToken, expiresIn⟩

/-- Where sums are checked for overflow; `now` is in milliseconds. -/
def readPairPropertiesChecked (names : PropertyNames) (now : ℤ) (address : DataAddress) :
    Checked (Except HandlerError RenewalProperties) :=
  match h.readPairFields names address with
  | .error e => .ok (.error e)
  | .ok fields => do
    let expiresAtTimestamp ← addI64 (DateTime.timestamp now) fields.expiresIn
    return (okOr (fromTimestamp expiresAtTimestamp) (.generic "Invalid expiration timestamp")).map
        fun expiresAt =>
      ⟨fields.token, fields.refreshEndpoint, fields.refreshToken, expiresAt⟩

def readRenewalPropertiesChecked (now : ℤ) (address : DataAddress) :
    Checked (Except HandlerError RenewalProperties) :=
  h.readPairPropertiesChecked authNames now address

def readTxRenewalPropertiesChecked (now : ℤ) (address : DataAddress) :
    Checked (Except HandlerError RenewalProperties) :=
  h.readPairPropertiesChecked txRenewalNames now address

end SigletDataFlowHandler

end Facet.Siglet

namespace Facet.Client
open Arith Siglet

/-! ## Reading the answer to a refresh -/

namespace OAuth2TokenClient
variable (c : OAuth2TokenClient)

def parseReply (reply : RefreshReply) : Except TokenError TokenResponse := do
  if ¬ (200 ≤ reply.status ∧ reply.status < 300) then
    let body :=
      match reply.text with
      | .ok text => text
      | .error e => "<failed to read body: " ++ e ++ ">"
    throw (.networkError ("Token refresh failed with status " ++ reply.statusText ++ ": " ++ body))
  reply.json.mapError fun e => TokenError.networkError ("Failed to parse token response: " ++ e)

/-- The refresh up to the parsed answer. -/
def awaitResponse {σ : Type} (env : RefreshEnv)
    (send : RefreshPost → σ → Except String RefreshReply × σ) (request : RefreshRequest)
    (s : σ) : Except TokenError TokenResponse × σ :=
  match liftGeneration (c.generateToken request.participantContext (c.proofClaims env request)) with
  | .error e => (.error e, s)
  | .ok jwt =>
    let (reply, s') := send (post request jwt) s
    ((reply.mapError fun e => TokenError.networkError ("Failed to send refresh request: " ++ e)) >>=
      parseReply, s')

/-- The expiry of the proof is a sum too, and is computed first. -/
def refreshTokenChecked {σ : Type} (env : RefreshEnv)
    (send : RefreshPost → σ → Except String RefreshReply × σ) (request : RefreshRequest)
    (s : σ) : Checked (Except TokenError RefreshedTokenData × σ) := do
  let _ ← addI64 env.now c.expirationSeconds
  match c.awaitResponse env send request s with
  | (.error e, s') => return (.error e, s')
  | (.ok response, s') =>
    let lifetime ← TimeDelta.seconds response.expiresIn
    let expiresAt ← DateTime.add env.received lifetime
    return (.ok {
      token := response.accessToken
      refreshToken := response.refreshToken.getD request.refreshToken
      expiresAt := expiresAt
      refreshEndpoint := request.refreshEndpoint }, s')

end OAuth2TokenClient

/-- The time from which `get_token` refreshes. -/
def threshold (api : TokenClientApi) (expiresAt : ℤ) : Checked ℤ := do
  let margin ← TimeDelta.milliseconds api.refreshBeforeExpiryMs
  DateTime.sub expiresAt margin

end Facet.Client

namespace Facet.Siglet
open Arith Renewable Client JwtTokenManager SigletDataFlowHandler

/-! ## Without a panic they compute what is modelled elsewhere -/

theorem readPairProperties_eq (h : SigletDataFlowHandler) (names : PropertyNames) (now : ℤ)
    (address : DataAddress) :
    h.readPairProperties names now address = h.readPairFields names address >>= fun fields =>
      (okOr (fromTimestamp (Int.bmod (now + fields.expiresIn) (2 ^ 64)))
        (.generic "Invalid expiration timestamp")).map fun expiresAt =>
          ⟨fields.token, fields.refreshEndpoint, fields.refreshToken, expiresAt⟩ := by
  unfold readPairProperties readPairFields
  simp only [bind_assoc, pure_bind]
  rfl

theorem readPairProperties_of_checked {h : SigletDataFlowHandler} {names : PropertyNames} {now : ℤ}
    {address : DataAddress} {result : Except HandlerError RenewalProperties}
    (hchecked : h.readPairPropertiesChecked names now address = .ok result) :
    h.readPairProperties names (DateTime.timestamp now) address = result := by
  rw [readPairProperties_eq]
  unfold readPairPropertiesChecked at hchecked
  cases hfields : h.readPairFields names address with
  | error e =>
    rw [hfields] at hchecked
    exact Except.ok.inj hchecked
  | ok fields =>
    rw [hfields] at hchecked
    obtain ⟨sum, hsum, hresult⟩ := bind_eq_ok.mp hchecked
    obtain ⟨hfits, rfl⟩ := addI64_eq_ok.mp hsum
    rw [← Except.ok.inj hresult, ← bmod_of_fitsI64 hfits]
    rfl

theorem readReply_eq (env : RefreshEnv) (request : RefreshRequest) (reply : RefreshReply) :
    OAuth2TokenClient.readReply env request
      reply = OAuth2TokenClient.parseReply reply >>= fun response => .ok {
      token := response.accessToken
      refreshToken := response.refreshToken.getD request.refreshToken
      expiresAt := env.received + 1000 * response.expiresIn
      refreshEndpoint := request.refreshEndpoint } := by
  unfold OAuth2TokenClient.readReply OAuth2TokenClient.parseReply
  split_ifs with hstatus
  · rfl
  · cases reply.json <;> rfl

theorem refreshToken_of_checked {σ : Type} {c : OAuth2TokenClient} {env : RefreshEnv}
    {send : RefreshPost → σ → Except String RefreshReply × σ} {request : RefreshRequest} {s : σ}
    {result : Except TokenError RefreshedTokenData × σ}
    (hchecked : c.refreshTokenChecked env send request s = .ok result) :
    c.refreshToken env send request s = result := by
  obtain ⟨exp, -, hawait⟩ := bind_eq_ok.mp hchecked
  unfold OAuth2TokenClient.refreshToken
  unfold OAuth2TokenClient.awaitResponse at hawait
  cases hjwt : liftGeneration (c.generateToken
    request.participantContext (c.proofClaims env request)) with
  | error e =>
    rw [hjwt] at hawait
    exact Except.ok.inj hawait
  | ok jwt =>
    simp only [hjwt] at hawait ⊢
    cases hreply : (send (OAuth2TokenClient.post request jwt) s).1 with
    | error e =>
      simp only [hreply] at hawait ⊢
      exact Except.ok.inj hawait
    | ok reply =>
      simp only [hreply] at hawait ⊢
      have hread := readReply_eq env request reply
      cases hparsed : OAuth2TokenClient.parseReply reply with
      | error e =>
        rw [hparsed] at hread
        simp only [Except.mapError, bind, Except.bind, hparsed] at hawait ⊢
        rw [hread]
        exact Except.ok.inj hawait
      | ok response =>
        rw [hparsed] at hread
        simp only [Except.mapError, bind, Except.bind, hparsed] at hawait ⊢
        obtain ⟨lifetime, hlifetime, hrest⟩ := bind_eq_ok.mp hawait
        obtain ⟨expiresAt, hexpires, hresult⟩ := bind_eq_ok.mp hrest
        obtain ⟨-, rfl⟩ := seconds_eq_ok.mp hlifetime
        obtain ⟨-, rfl⟩ := add_eq_ok.mp hexpires
        rw [hread]
        exact Except.ok.inj hresult

theorem isValid_of_threshold {api : TokenClientApi} {data : TokenData} {limit : ℤ}
    (hlimit : threshold api data.expiresAt = .ok limit) (now : ℤ) :
    api.isValid now data = decide (now < limit) := by
  obtain ⟨margin, hmargin, hsub⟩ := bind_eq_ok.mp hlimit
  obtain ⟨-, rfl⟩ := milliseconds_eq_ok.mp hmargin
  obtain ⟨-, rfl⟩ := sub_eq_ok.mp hsub
  rfl

/-! ## Which lifetimes are safe -/

/-- The margin is a duration and leaves a date. -/
def ThresholdFits (api : TokenClientApi) (expiresAt : ℤ) : Prop :=
  -2 ^ 63 < api.refreshBeforeExpiryMs ∧ IsDate (expiresAt - api.refreshBeforeExpiryMs)

theorem threshold_ok_iff {api : TokenClientApi} {expiresAt : ℤ} :
    (∃ limit, threshold api expiresAt = .ok limit) ↔ ThresholdFits api expiresAt := by
  constructor
  · rintro ⟨limit, hlimit⟩
    obtain ⟨margin, hmargin, hsub⟩ := bind_eq_ok.mp hlimit
    obtain ⟨hbound, rfl⟩ := milliseconds_eq_ok.mp hmargin
    exact ⟨hbound, (sub_eq_ok.mp hsub).1⟩
  · rintro ⟨hbound, hdate⟩
    exact ⟨_, bind_eq_ok.mpr ⟨_, milliseconds_eq_ok.mpr ⟨hbound, rfl⟩, sub_eq_ok.mpr ⟨hdate, rfl⟩⟩⟩

/-- A data address is read without a panic, to an error or to the clock and the lifetime added up,
and the threshold of what is read does not panic. -/
def TotalRead (read : Checked (Except HandlerError RenewalProperties))
    (fields : Except HandlerError PairFields) (now : ℤ) (api : TokenClientApi) : Prop :=
  ∃ result, read = .ok result ∧ ∀ properties, result = .ok properties → ∃ pair, fields = .ok pair ∧
    properties.expiresAt = DateTime.timestamp now + pair.expiresIn ∧
    ∃ limit, threshold api (1000 * properties.expiresAt) = .ok limit

/-- When all properties are there, the sum is an `i64`, and the threshold of a sum that is a date
fits too. -/
def ReadFits (fields : Except HandlerError PairFields) (now : ℤ) (api : TokenClientApi) : Prop :=
  ∀ pair, fields = .ok pair → FitsI64 (DateTime.timestamp now + pair.expiresIn) ∧
    (IsInstant (DateTime.timestamp now + pair.expiresIn) →
      ThresholdFits api (1000 * (DateTime.timestamp now + pair.expiresIn)))

theorem totalRead_iff (h : SigletDataFlowHandler) (names : PropertyNames) (now : ℤ)
    (address : DataAddress) (api : TokenClientApi) :
    TotalRead (h.readPairPropertiesChecked names now address)
      (h.readPairFields names address) now api ↔
      ReadFits (h.readPairFields names address) now api := by
  unfold readPairPropertiesChecked
  cases h.readPairFields names address with
  | error e =>
    refine iff_of_true ⟨.error e, rfl, ?_⟩ ?_
    · intro properties hok
      cases hok
    · intro fields hok
      cases hok
  | ok fields =>
    constructor
    · rintro ⟨result, hresult, hstored⟩ fields' hfields
      obtain rfl := Except.ok.inj hfields
      obtain ⟨sum, hsum, hresult⟩ := bind_eq_ok.mp hresult
      obtain ⟨hfits, rfl⟩ := addI64_eq_ok.mp hsum
      refine ⟨hfits, fun hinstant => ?_⟩
      have hok : result = .ok ⟨fields.token, fields.refreshEndpoint, fields.refreshToken,
          DateTime.timestamp now + fields.expiresIn⟩ := by
        rw [← Except.ok.inj hresult, hinstant]
        rfl
      obtain ⟨-, -, -, hlimit⟩ := hstored _ hok
      exact threshold_ok_iff.mp hlimit
    · intro hfits
      obtain ⟨hsum, hthreshold⟩ := hfits fields rfl
      refine ⟨_, bind_eq_ok.mpr ⟨_, addI64_eq_ok.mpr ⟨hsum, rfl⟩, rfl⟩, ?_⟩
      intro properties hok
      cases hinstant : fromTimestamp (DateTime.timestamp now + fields.expiresIn) with
      | none =>
        rw [hinstant] at hok
        cases hok
      | some instant =>
        obtain rfl := fromTimestamp_eq_some hinstant
        rw [hinstant] at hok
        obtain rfl := Except.ok.inj hok
        exact ⟨fields, rfl, rfl, threshold_ok_iff.mpr (hthreshold hinstant)⟩

/-- A refresh ends without a panic, in an error or in the clock and the lifetime added up, and the
threshold of what is stored does not panic. -/
def TotalRefresh {σ : Type} (c : OAuth2TokenClient) (env : RefreshEnv)
    (send : RefreshPost → σ → Except String RefreshReply × σ) (request : RefreshRequest) (s : σ)
    (api : TokenClientApi) : Prop :=
  ∃ result, c.refreshTokenChecked env send request s = .ok result ∧
    ∀ data, result.1 = .ok data →
      ∃ response, (c.awaitResponse env send request s).1 = .ok response ∧
      data.expiresAt = env.received + 1000 * response.expiresIn ∧
        ∃ limit, threshold api data.expiresAt = .ok limit

/-- The expiry of the proof is an `i64`, and the lifetime of an answer leads to a date whose
threshold fits. -/
def RefreshFits {σ : Type} (c : OAuth2TokenClient) (env : RefreshEnv)
    (send : RefreshPost → σ → Except String RefreshReply × σ) (request : RefreshRequest) (s : σ)
    (api : TokenClientApi) : Prop :=
  FitsI64 (env.now + c.expirationSeconds) ∧
    ∀ response, (c.awaitResponse env send request s).1 = .ok response →
      IsDate (env.received + 1000 * response.expiresIn) ∧
        ThresholdFits api (env.received + 1000 * response.expiresIn)

theorem seconds_between {now lifetime : ℤ} (hnow : IsDate now)
    (hdate : IsDate (now + 1000 * lifetime)) :
    TimeDelta.seconds lifetime = .ok (1000 * lifetime) := by
  obtain ⟨hlow, hhigh⟩ := hnow
  obtain ⟨hlow', hhigh'⟩ := hdate
  exact seconds_eq_ok.mpr ⟨⟨by omega, by omega⟩, rfl⟩

theorem totalRefresh_iff {σ : Type} (c : OAuth2TokenClient) {env : RefreshEnv}
    (hclock : IsDate env.received) (send : RefreshPost → σ → Except String RefreshReply × σ)
    (request : RefreshRequest) (s : σ) (api : TokenClientApi) :
    TotalRefresh c env send request s api ↔ RefreshFits c env send request s api := by
  constructor
  · rintro ⟨result, hresult, hstored⟩
    obtain ⟨exp, hexp, hrest⟩ := bind_eq_ok.mp hresult
    refine ⟨(addI64_eq_ok.mp hexp).1, ?_⟩
    intro response hresponse
    generalize hawait : c.awaitResponse env send request s = await at hrest hresponse
    obtain ⟨reply, s'⟩ := await
    obtain rfl : reply = .ok response := hresponse
    obtain ⟨lifetime, hlifetime, hrest⟩ := bind_eq_ok.mp hrest
    obtain ⟨expiresAt, hexpires, hrest⟩ := bind_eq_ok.mp hrest
    obtain ⟨-, rfl⟩ := seconds_eq_ok.mp hlifetime
    obtain ⟨hdate, rfl⟩ := add_eq_ok.mp hexpires
    obtain rfl := Except.ok.inj hrest
    obtain ⟨-, -, -, hlimit⟩ := hstored _ rfl
    exact ⟨hdate, threshold_ok_iff.mp hlimit⟩
  · rintro ⟨hexp, hfits⟩
    unfold TotalRefresh OAuth2TokenClient.refreshTokenChecked
    generalize hawait : c.awaitResponse env send request s = await at hfits
    obtain ⟨reply, s'⟩ := await
    cases reply with
    | error e =>
      refine ⟨(.error e, s'), bind_eq_ok.mpr ⟨_, addI64_eq_ok.mpr ⟨hexp, rfl⟩, rfl⟩, ?_⟩
      intro data hok
      cases hok
    | ok response =>
      obtain ⟨hdate, hthreshold⟩ := hfits response rfl
      refine ⟨_, bind_eq_ok.mpr
        ⟨_, addI64_eq_ok.mpr ⟨hexp, rfl⟩, bind_eq_ok.mpr ⟨_, seconds_between hclock hdate,
          bind_eq_ok.mpr ⟨_, add_eq_ok.mpr ⟨hdate, rfl⟩, rfl⟩⟩⟩, ?_⟩
      intro data hok
      obtain rfl := Except.ok.inj hok
      exact ⟨response, rfl, rfl, threshold_ok_iff.mpr hthreshold⟩

/-- Which lifetimes of a counterparty are taken or refused without a panic. -/
theorem expiry_arithmetic_total_iff {σ : Type} (h : SigletDataFlowHandler) (now : ℤ)
    (address : DataAddress) (c : OAuth2TokenClient) {env : RefreshEnv}
    (hclock : IsDate env.received) (send : RefreshPost → σ → Except String RefreshReply × σ)
    (request : RefreshRequest) (s : σ) (api : TokenClientApi) :
    (TotalRead (h.readRenewalPropertiesChecked now address)
      (h.readPairFields authNames address) now api ↔
      ReadFits (h.readPairFields authNames address) now api) ∧
    (TotalRead (h.readTxRenewalPropertiesChecked now address)
      (h.readPairFields txRenewalNames address) now api ↔
      ReadFits (h.readPairFields txRenewalNames address) now api) ∧
    (TotalRefresh c env send request s api ↔ RefreshFits c env send request s api) :=
  ⟨totalRead_iff h authNames now address api, totalRead_iff h txRenewalNames now address api,
    totalRefresh_iff c hclock send request s api⟩

/-- The margin is five seconds. -/
def marginApi : TokenClientApi where
  pc := demoContext
  identifier := "flow"
  lockTimeout := 30000

def lifetimeAddress (expiresIn : String) : DataAddress :=
  ⟨"HttpData", "https://provider/data", [⟨"authorization", "t1"⟩, ⟨"refreshToken", "r1"⟩,
    ⟨"refreshEndpoint", "https://provider/token"⟩, ⟨"expiresIn", expiresIn⟩]⟩

def lifetimeAnswer (expiresIn : ℤ) (_ : RefreshPost) (s : Unit) :
    Except String RefreshReply × Unit :=
  (.ok ⟨200, "200 OK", .error "body already read", .ok ⟨"t2", none, expiresIn⟩⟩, s)

def proofClient : OAuth2TokenClient where
  generateToken _ _ := .ok "proof"

def proofEnv : RefreshEnv where
  now := 1700000000
  received := 1700000000123
  jti := "j1"

theorem readPairFields_lifetime {expiresIn : String} {lifetime : ℤ}
    (hparse : Text.parseI64 expiresIn.toList = some lifetime) :
    demoHandler.readPairFields authNames (lifetimeAddress expiresIn) =
      .ok ⟨"t1", "https://provider/token", "r1", lifetime⟩ := by
  have hproperties : demoHandler.readPairFields authNames (lifetimeAddress expiresIn) =
      (okOr (Text.parseI64 expiresIn.toList) (.generic "Invalid expiresIn format")).map
        fun seconds => ⟨"t1", "https://provider/token", "r1", seconds⟩ := rfl
  rw [hproperties, hparse]
  rfl

theorem hour_lifetime_total :
    TotalRead (demoHandler.readRenewalPropertiesChecked 1700000000123 (lifetimeAddress "3600"))
      (demoHandler.readPairFields authNames (lifetimeAddress "3600")) 1700000000123 marginApi ∧
    TotalRefresh proofClient proofEnv (lifetimeAnswer 3600) hourRequest () marginApi := by
  obtain ⟨hread, -, hrefresh⟩ :=
    expiry_arithmetic_total_iff demoHandler 1700000000123 (lifetimeAddress "3600")
      proofClient (show IsDate proofEnv.received by decide) (lifetimeAnswer 3600)
        hourRequest () marginApi
  refine ⟨hread.mpr ?_, hrefresh.mpr ?_⟩
  · intro address haddress
    rw [readPairFields_lifetime (show Text.parseI64 "3600".toList =
      some 3600 by decide)] at haddress
    obtain rfl := Except.ok.inj haddress
    exact ⟨by decide, fun _ => ⟨by decide, by decide⟩⟩
  · refine ⟨by decide, fun response hresponse => ?_⟩
    obtain rfl : (⟨"t2", none, 3600⟩ : TokenResponse) = response := Except.ok.inj hresponse
    exact ⟨by decide, by decide, by decide⟩

/-- The largest lifetime overflows the sum and the duration; the smallest that can be read has no
threshold. -/
theorem lifetime_panics :
    demoHandler.readRenewalPropertiesChecked 1700000000123 (lifetimeAddress "9223372036854775807") =
      .error ⟨"attempt to add with overflow"⟩ ∧
    proofClient.refreshTokenChecked proofEnv (lifetimeAnswer 9223372036854775807) hourRequest () =
      .error ⟨"TimeDelta::seconds out of bounds"⟩ ∧
    (demoHandler.readRenewalPropertiesChecked 1700000000123 (lifetimeAddress "-8336301228800") =
      .ok (.ok ⟨"t1", "https://provider/token", "r1", -8334601228800⟩) ∧
    threshold marginApi (1000 * -8334601228800) = .error ⟨"DateTime - TimeDelta overflowed"⟩) := by
  refine ⟨?_, rfl, ?_, by decide⟩
  · unfold readRenewalPropertiesChecked readPairPropertiesChecked
    rw [readPairFields_lifetime (show Text.parseI64 "9223372036854775807".toList =
      some 9223372036854775807 by decide)]
    rfl
  · unfold readRenewalPropertiesChecked readPairPropertiesChecked
    rw [readPairFields_lifetime (show Text.parseI64 "-8336301228800".toList =
      some (-8336301228800) by decide)]
    rfl

end Facet.Siglet
