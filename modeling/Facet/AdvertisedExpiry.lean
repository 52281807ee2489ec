import Facet.TokenRefresh
import Facet.TokenIssuance
import Facet.FlowCleanup
import Mathlib.Data.Int.ModEq

/-!
# The advertised lifetime

An issuer dates the access token with `token_duration` and the pair it returns with
`renewal_token_duration`. The expiry of the pair travels as a remaining lifetime, in a data
address or in the answer to a refresh, and the consumer turns it back into an instant that
decides when it refreshes. The two vocabularies of a data address are read back by their own
readers only.
-/
namespace Facet.Siglet
open Renewable Client JwtTokenManager SigletDataFlowHandler

/-- The tokens of the signer carry the expiry of their claims. -/
def CarriesExp (env : CallEnv) (expOf : String → Option ℤ) : Prop :=
  ∀ pc claims token, env.generateToken pc claims = .ok token → expOf token = some claims.exp

/-- A call of `generate_pair` or `renew` returns the pair. -/
def Issues (m : JwtTokenManager) (env : CallEnv) (pair : RenewableTokenPair) : Prop :=
  (∃ store pc subject claims flowId,
    (m.generatePair env store pc subject claims flowId).1 = .ok pair) ∨
    ∃ store boundToken refreshToken, (m.renew env store boundToken refreshToken).1 = .ok pair

/-- The pair is dated with the expiry of its access token, and so is everything that is sent of
it. -/
structure Advertised (pair : RenewableTokenPair) (exp : ℤ) : Prop where
  expiresAt : pair.expiresAt = exp
  auth : ∀ now, ⟨authNames.expiresIn, toString (exp - now)⟩ ∈ createAuthProperties now pair
  txRenewal : ∀ now aud,
    ⟨txRenewalNames.expiresIn, toString (exp - now)⟩ ∈ createTxRenewalProperties now aud pair
  response : ∀ now, (refreshResponse now pair).expiresIn = exp - now

def IsInstant (seconds : ℤ) : Prop := fromTimestamp seconds = some seconds

instance (seconds : ℤ) : Decidable (IsInstant seconds) := inferInstanceAs (Decidable (_ = _))

/-- The pair reaches a consumer `delay` milliseconds after its lifetime was written down, and is
stored there: by `on_started` from a data address, or by a refresh from the answer of the
endpoint. -/
inductive Stored (pair : RenewableTokenPair) : ℤ → TokenData → Prop
  | started {h : SigletDataFlowHandler} {transferType : TransferType} {endpoint : String}
      {flow received : DataFlow} {written read : ℤ} {data : TokenData}
      (hlawful : h.LawfulProperties) (hwritten : IsInstant written) (hread : IsInstant read)
      (haddress : received.dataAddress = some (pairAddress written transferType endpoint flow pair))
      (hdata : h.startedData read received = .ok (some data)) :
      Stored pair (1000 * (read - written)) data
  | refreshed {env : RefreshEnv} {request : RefreshRequest} {written : ℤ} {old : TokenData}
      {refreshed : RefreshedTokenData}
      (hreply : OAuth2TokenClient.readReply env request (okReply (refreshResponse written pair)) =
        .ok refreshed) :
      Stored pair (env.received - 1000 * written) (old.refresh refreshed)

/-- The client refreshes the record before the access token has expired. -/
def RefreshedInTime (api : TokenClientApi) (data : TokenData) (exp : ℤ) : Prop :=
  ∀ now, api.isValid now data = true → now < 1000 * exp

/-- The two expiries of an issue are the same 64-bit sum. -/
def DurationsAgree (m : JwtTokenManager) (env : CallEnv) : Prop :=
  env.now + m.renewalTokenDuration ≡ env.claimsNow + m.tokenDuration [ZMOD 2 ^ 64]

section Issue
variable {m : JwtTokenManager} {env : CallEnv} {pair : RenewableTokenPair}

theorem isInstant_iff {seconds : ℤ} : IsInstant seconds ↔ -8334601228800 ≤ seconds ∧
    seconds ≤ 8210266876799 := by
  unfold IsInstant fromTimestamp
  split_ifs with hrange <;> simp [hrange]

theorem fromTimestamp_eq_some {seconds instant : ℤ} (hsome : fromTimestamp seconds = some instant) :
    seconds = instant := by
  unfold fromTimestamp at hsome
  split_ifs at hsome
  exact Option.some.inj hsome

theorem durationsAgree_iff (hclock : env.claimsNow = env.now)
    (htoken : -2 ^ 63 ≤ m.tokenDuration ∧ m.tokenDuration < 2 ^ 63)
    (hrenewal : -2 ^ 63 ≤ m.renewalTokenDuration ∧ m.renewalTokenDuration < 2 ^ 63) :
    DurationsAgree m env ↔ m.renewalTokenDuration = m.tokenDuration := by
  unfold DurationsAgree Int.ModEq
  rw [hclock]
  omega

theorem renewalExpiration_eq_ok {now expiresAt : ℤ} : m.renewalExpiration now = .ok expiresAt ↔
    expiresAt = Int.bmod (now + m.renewalTokenDuration) (2 ^ 64) ∧ IsInstant expiresAt := by
  unfold renewalExpiration IsInstant fromTimestamp
  split_ifs with hrange hinstant hinstant
  · simp [eq_comm]
  · simp only [Except.ok.injEq, and_false, iff_false]
    intro heq
    exact hinstant (heq ▸ hrange)
  · simp only [and_true, false_iff]
    intro heq
    exact hrange (heq ▸ hinstant)
  · simp

theorem Issues.dated (hissues : Issues m env pair) :
    ∃ claims, env.generateToken m.issuerContext claims = .ok pair.token ∧
      claims.exp = Int.bmod (env.claimsNow + m.tokenDuration) (2 ^ 64) ∧
      m.renewalExpiration env.now = .ok pair.expiresAt := by
  rcases hissues with
    ⟨store, pc, subject, claims, flowId, hok⟩ | ⟨store, boundToken, refreshToken, hok⟩
  · rcases m.generatePair_cases env store pc subject claims flowId with
      ⟨e, -, hr⟩ | ⟨entry, pair', hp, hr⟩
    · rw [hr] at hok
      exact absurd hok (by simp)
    · rw [hr] at hok
      obtain rfl : pair' = pair := Except.ok.inj hok
      obtain ⟨-, token, expiresAt, hg, hexp, -, rfl⟩ := preparePair_eq_ok.mp hp
      exact ⟨_, hg, rfl, hexp⟩
  · rcases m.renew_cases env store boundToken refreshToken with
      ⟨e, hr⟩ | ⟨old, new, pair', -, hp, hr⟩
    · rw [hr] at hok
      exact absurd hok (by simp)
    · rw [hr] at hok
      obtain rfl : pair' = pair := Except.ok.inj hok
      obtain ⟨-, token, expiresAt, -, -, -, hexp, hg, -, rfl⟩ := renewPrepare_eq_ok.mp hp
      exact ⟨_, hg, rfl, hexp⟩

theorem advertised_iff {exp : ℤ} : Advertised pair exp ↔ pair.expiresAt = exp := by
  refine ⟨Advertised.expiresAt, ?_⟩
  intro heq
  subst heq
  refine ⟨rfl, fun now => ?_, fun now aud => ?_, fun now => rfl⟩
  · simp [createAuthProperties, pairProperties]
  · simp [createTxRenewalProperties, pairProperties]

end Issue

section Consumer
variable {pair : RenewableTokenPair} {delay : ℤ} {data : TokenData}

theorem Stored.expiresAt (hstored : Stored pair delay data) (hpair : IsInstant pair.expiresAt) :
    data.expiresAt = 1000 * pair.expiresAt + delay := by
  cases hstored with
  | @started _ _ _ _ _ written read _ hlawful hwritten hread haddress hdata =>
    obtain ⟨mine, hmine, hsame⟩ := txRenewal_of_startedData hlawful haddress hdata
    obtain ⟨-, expiresAt, hexpires, rfl⟩ :=
      (startedData_pairAddress hlawful _ _ hmine hsame haddress).mp hdata
    rw [isInstant_iff] at hpair hwritten hread
    have hsum : Int.bmod (read + (pair.expiresAt - written)) (2 ^ 64) =
        read + (pair.expiresAt - written) :=
      Int.bmod_eq_of_le (by omega) (by omega)
    rw [hsum] at hexpires
    rw [← fromTimestamp_eq_some hexpires]
    dsimp only
    omega
  | @refreshed env request written old refreshed hreply =>
    obtain rfl := Except.ok.inj hreply
    simp only [TokenData.refresh, refreshResponse]
    omega

theorem refreshedInTime_iff {api : TokenClientApi} {exp : ℤ} :
    RefreshedInTime api data exp ↔ data.expiresAt - api.refreshBeforeExpiryMs ≤ 1000 * exp := by
  unfold RefreshedInTime TokenClientApi.isValid
  simp only [decide_eq_true_eq]
  constructor
  · intro hvalid
    by_contra hlate
    exact absurd (hvalid (1000 * exp) (by omega)) (by omega)
  · intro hle now hnow
    omega

end Consumer

section DataAddress
variable {h : SigletDataFlowHandler} {pair : RenewableTokenPair} {address : DataAddress}
  {written : ℤ} {aud : String}

theorem getProperty_createAuthProperties (hlawful : h.LawfulProperties)
    (haddress : address.endpointProperties = createAuthProperties written pair) :
    ∀ p ∈ pairProperties authNames written pair, h.getProperty address p.name = some p.value := by
  intro p hp
  refine hlawful.found address p (by rw [haddress]; exact hp) ?_
  rw [haddress]
  simp only [createAuthProperties, pairProperties, List.map_cons, List.map_nil, authNames]
  decide

theorem getProperty_createTxRenewalProperties (hlawful : h.LawfulProperties)
    (haddress : address.endpointProperties = createTxRenewalProperties written aud pair) :
    ∀ p ∈ pairProperties txRenewalNames written pair,
      h.getProperty address p.name = some p.value := by
  intro p hp
  refine hlawful.found address p (by rw [haddress]; exact List.mem_append_left _ hp) ?_
  rw [haddress]
  simp only [createTxRenewalProperties, pairProperties, List.map_append, List.map_cons,
    List.map_nil, txRenewalNames]
  decide

theorem readPairProperties_of_absent (hlawful : h.LawfulProperties) (names : PropertyNames)
    (read : ℤ)
    (habsent : names.authorization ∉ address.endpointProperties.map EndpointProperty.name) :
    h.readPairProperties names read address =
      .error (.generic "Data address must contain an authorization property") := by
  simp [readPairProperties, hlawful.absent _ _ habsent, okOr, bind, Except.bind]

theorem readPairProperties_later {names : PropertyNames} {delay : ℤ}
    (hexpires : IsInstant pair.expiresAt) (hwritten : IsInstant written)
    (hread : IsInstant (written + delay))
    (hnames : ∀ p ∈ pairProperties names written pair,
      h.getProperty address p.name = some p.value) :
    h.readPairProperties names (written + delay) address =
      if IsInstant (pair.expiresAt + delay) then
        .ok ⟨pair.token, pair.refreshEndpoint, pair.refreshToken, pair.expiresAt + delay⟩
      else .error (.generic "Invalid expiration timestamp") := by
  rw [isInstant_iff] at hexpires hwritten hread
  have hbounds : -2 ^ 63 ≤ pair.expiresAt - written ∧ pair.expiresAt - written < 2 ^ 63 := by omega
  have hsum : Int.bmod (written + delay + (pair.expiresAt - written)) (2 ^ 64) =
      pair.expiresAt + delay := by
    rw [Int.bmod_eq_of_le (by omega) (by omega)]
    omega
  rw [readPairProperties_of_written (written + delay) hnames, if_pos hbounds, hsum]
  split_ifs with hdate
  · rw [show fromTimestamp (pair.expiresAt + delay) = _ from hdate]
    rfl
  · have hnone : fromTimestamp (pair.expiresAt + delay) = none :=
      if_neg fun hrange => hdate (isInstant_iff.mpr hrange)
    rw [hnone]
    rfl

end DataAddress

/-- A pair is advertised with the expiry of its access token exactly when the two sums agree, and a
consumer refreshes in time exactly when, besides, the pair reaches it within the margin of its
client. -/
theorem expiry_advertised_iff {m : JwtTokenManager} {env : CallEnv} {expOf : String → Option ℤ}
    (hcarries : CarriesExp env expOf) {pair : RenewableTokenPair} (hissues : Issues m env pair) :
    ∃ exp, expOf pair.token = some exp ∧ (Advertised pair exp ↔ DurationsAgree m env) ∧
      ∀ (api : TokenClientApi) (delay : ℤ) (data : TokenData), Stored pair delay data →
        (Advertised pair exp ∧ RefreshedInTime api data exp ↔
          DurationsAgree m env ∧ delay ≤ api.refreshBeforeExpiryMs) := by
  obtain ⟨claims, hgenerated, hexp, hrenewal⟩ := hissues.dated
  obtain ⟨hpair, hinstant⟩ := renewalExpiration_eq_ok.mp hrenewal
  have hadvertised : Advertised pair claims.exp ↔ DurationsAgree m env := by
    rw [advertised_iff, hpair, hexp, DurationsAgree, Int.ModEq]
    rw [Int.bmod_eq_bmod_iff_bmod_sub_eq_zero, ← Int.dvd_iff_bmod_eq_zero,
      Int.emod_eq_emod_iff_emod_sub_eq_zero, Int.dvd_iff_emod_eq_zero]
    rfl
  refine ⟨claims.exp, hcarries _ _ _ hgenerated, hadvertised, ?_⟩
  intro api delay data hstored
  rw [← hadvertised, advertised_iff, refreshedInTime_iff, hstored.expiresAt hinstant]
  constructor
  · intro hall
    exact ⟨hall.1, by omega⟩
  · intro hall
    exact ⟨hall.1, by omega⟩

/-- A signer whose tokens are the text of their expiry. -/
def datedEnv (now : ℤ) : CallEnv :=
  { demoEnv "j1" "r1" with
    now := now
    claimsNow := now
    generateToken := fun _ claims => .ok (toString claims.exp) }

theorem datedEnv_carries (now : ℤ) : CarriesExp (datedEnv now) String.toInt? := by
  intro pc claims token hgenerated
  obtain rfl := Except.ok.inj hgenerated
  exact Int.toInt?_repr claims.exp

def hourManager : JwtTokenManager := { demoManager with renewalTokenDuration := 3600 }

def hourPair : RenewableTokenPair := ⟨"4600", "r1", 4600, "https://provider/token"⟩

def hourRequest : RefreshRequest :=
  ⟨demoContext, "provider", "4600", "r1", "https://provider/token"⟩

/-- An hour for both tokens: the pair is stored three seconds later and refreshed in time. -/
theorem expiry_advertised_of_equal_durations :
    ∃ exp, String.toInt? hourPair.token = some exp ∧ Advertised hourPair exp ∧
      ∀ api : TokenClientApi, api.refreshBeforeExpiryMs = 5000 → ∀ old : TokenData,
        RefreshedInTime api
          (old.refresh ⟨"4600", "r1", 4603000, "https://provider/token"⟩) exp := by
  have hissues : Issues hourManager (datedEnv 1000) hourPair :=
    Or.inl ⟨InnerStore.empty, demoContext, "consumer", HashMap.empty, "flow", rfl⟩
  obtain ⟨exp, hexp, hadvertised, hconsumer⟩ :=
    expiry_advertised_iff (datedEnv_carries 1000) hissues
  have hagree : DurationsAgree hourManager (datedEnv 1000) := rfl
  refine ⟨exp, hexp, hadvertised.mpr hagree, ?_⟩
  intro api hmargin old
  have hstored : Stored hourPair (1003000 - 1000 * 1000) (old.refresh _) :=
    @Stored.refreshed hourPair ⟨1002, 1003000, "j2"⟩ hourRequest 1000 old _ rfl
  exact ((hconsumer api _ _ hstored).mpr ⟨hagree, by omega⟩).2

/-- With the default durations the token of an hour is advertised for two days. -/
theorem advertised_lifetime_outlives_token :
    ¬ ∀ (m : JwtTokenManager) (env : CallEnv) (expOf : String → Option ℤ)
      (pair : RenewableTokenPair) (exp : ℤ), env.claimsNow = env.now → CarriesExp env expOf →
        Issues m env pair → expOf pair.token = some exp →
      Advertised pair exp ∧ ∀ (api : TokenClientApi) (data : TokenData), Stored pair 0 data →
        RefreshedInTime api data exp := by
  intro hall
  have hissues : Issues demoManager (datedEnv 1000)
      ⟨"4600", "r1", 173800, "https://provider/token"⟩ :=
    Or.inl ⟨InnerStore.empty, demoContext, "consumer", HashMap.empty, "flow", rfl⟩
  have hexp := datedEnv_carries 1000 demoManager.issuerContext
    (demoManager.createClaims 1000 "" "j1" "consumer" HashMap.empty) "4600" rfl
  have hadvertised :=
    (hall demoManager (datedEnv 1000) String.toInt? _ _ rfl (datedEnv_carries 1000) hissues hexp).1
  exact absurd hadvertised.expiresAt (by decide)

/-- The address of a pair under either vocabulary, read `delay` seconds later: its own reader gives
the pair back with the expiry moved by the delay, as long as that is a date, and the other reader
refuses the address. -/
theorem data_address_round_trip {h : SigletDataFlowHandler} (hlawful : h.LawfulProperties)
    (pair : RenewableTokenPair) (hexpires : IsInstant pair.expiresAt) {written delay : ℤ}
    (hwritten : IsInstant written) (hread : IsInstant (written + delay)) (address : DataAddress) :
    let later : Except HandlerError RenewalProperties :=
      if IsInstant (pair.expiresAt + delay) then
        .ok ⟨pair.token, pair.refreshEndpoint, pair.refreshToken, pair.expiresAt + delay⟩
      else .error (.generic "Invalid expiration timestamp")
    let refused : Except HandlerError RenewalProperties :=
      .error (.generic "Data address must contain an authorization property")
    (address.endpointProperties = createAuthProperties written pair →
      h.readRenewalProperties (written + delay) address = later ∧
        h.readTxRenewalProperties (written + delay) address = refused) ∧
    ∀ aud, address.endpointProperties = createTxRenewalProperties written aud pair →
      h.readTxRenewalProperties (written + delay) address = later ∧
        h.readRenewalProperties (written + delay) address = refused := by
  intro later refused
  constructor
  · intro haddress
    refine ⟨readPairProperties_later hexpires hwritten hread
      (getProperty_createAuthProperties hlawful haddress), ?_⟩
    refine readPairProperties_of_absent hlawful txRenewalNames _ ?_
    rw [haddress]
    simp only [createAuthProperties, pairProperties, List.map_cons, List.map_nil,
      authNames, txRenewalNames]
    decide
  · intro aud haddress
    refine ⟨readPairProperties_later hexpires hwritten hread
      (getProperty_createTxRenewalProperties hlawful haddress),
      ?_⟩
    refine readPairProperties_of_absent hlawful authNames _ ?_
    rw [haddress]
    simp only [createTxRenewalProperties, pairProperties, List.map_append, List.map_cons,
      List.map_nil, authNames, txRenewalNames]
    decide

theorem hour_pair_read_later :
    demoHandler.readTxRenewalProperties 1003
      ⟨"HttpData", "https://provider/data", createTxRenewalProperties 1000 "consumer" hourPair⟩ =
        .ok ⟨"4600", "https://provider/token", "r1", 4603⟩ :=
  ((data_address_round_trip (lawfulProperties_of_find fun _ _ => rfl) hourPair (by decide)
    (show IsInstant 1000 by decide) (show IsInstant (1000 + 3) by decide) _).2 "consumer" rfl).1

def lastInstantPair : RenewableTokenPair := ⟨"t1", "r1", 8210266876799, "https://provider/token"⟩

def lastInstantAddress : DataAddress := ⟨"HttpData", "", createAuthProperties 1000 lastInstantPair⟩

theorem last_instant_not_read_later :
    ¬ ∀ (h : SigletDataFlowHandler), h.LawfulProperties →
      ∀ pair : RenewableTokenPair, IsInstant pair.expiresAt → ∀ written delay : ℤ, 0 ≤ delay →
      IsInstant written → IsInstant (written + delay) → ∀ address : DataAddress,
        address.endpointProperties = createAuthProperties written pair →
          h.readRenewalProperties (written + delay) address =
            .ok ⟨pair.token, pair.refreshEndpoint, pair.refreshToken, pair.expiresAt + delay⟩ := by
  intro hall
  have hlawful : demoHandler.LawfulProperties := lawfulProperties_of_find fun _ _ => rfl
  have hread :=
    hall demoHandler hlawful lastInstantPair (by decide) 1000 1 (by omega) (by decide) (by decide)
      lastInstantAddress rfl
  have hlater := readPairProperties_later (show IsInstant lastInstantPair.expiresAt by decide)
    (show IsInstant 1000 by decide) (show IsInstant (1000 + 1) by decide)
    (getProperty_createAuthProperties hlawful
      (show lastInstantAddress.endpointProperties = _ from rfl))
  rw [if_neg (by decide)] at hlater
  exact absurd (hread.symm.trans hlater) (by simp)

end Facet.Siglet
