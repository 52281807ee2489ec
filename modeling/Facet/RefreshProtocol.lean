import Facet.TokenRefresh
import Facet.TokenClientSteps
import Facet.FlowIssuance

/-!
# The refresh protocol

A provider and a consumer of one flow. `on_start` leaves an entry in the provider's store and
`on_started` a record in the consumer's; from then on every `get_token` that finds its token
due posts the refresh token to the provider, which exchanges its entry, and the consumer
updates its record with the answer. Round after round the two sides hold the same pair.
-/
namespace Facet.Refresh
open Renewable Client Siglet InnerStore JwtTokenManager SigletDataFlowHandler

/-- The consumer's client for the record of the flow, its refresh client, and the provider's
manager. -/
structure Setup where
  api : TokenClientApi
  client : OAuth2TokenClient
  manager : JwtTokenManager

structure Parties where
  consumer : Client.State
  provider : InnerStore

inductive Label
  | consumer (l : Client.Label)
  | exchange (call : ℕ) (env : RefreshEnv) (renewal : CallEnv) (answered : ℤ)

/-- The consumer's calls step by themselves except for the remote call, whose post is delivered to
the provider and whose answer is delivered back. -/
def next (setup : Setup) (s : Parties) : Label → Option Parties
  | .consumer (.answered ..) => none
  | .consumer l => (Client.next setup.api s.consumer l).map fun consumer =>
      { s with consumer := consumer }
  | .exchange call env renewal answered =>
    match s.consumer.calls.get call with
    | some ⟨_, .refreshing _ request⟩ =>
      let (result, provider) :=
        setup.client.refreshToken env (serve setup.manager renewal answered) request s.provider
      (Client.next setup.api s.consumer (.answered call result)).map fun consumer =>
        ⟨consumer, provider⟩
    | _ => none

def machine (setup : Setup) : Machine Parties Label where
  init _ := True
  next := next setup

/-- One `get_token` that refreshes: `pause k` is the time that passes before its `k`-th step. -/
structure Round where
  owner : String
  pause : ℕ → ℕ
  env : RefreshEnv
  renewal : CallEnv
  answered : ℤ

/-- Fetch, check, lock, fetch and check again, the remote call, update, return, and the spawned
unlock. -/
def Round.steps (r : Round) (call : ℕ) : List Label :=
  [.consumer (.getToken r.owner), .consumer (.step call), .consumer (.step call),
    .consumer (.step call), .consumer (.step call), .consumer (.step call),
    .exchange call r.env r.renewal r.answered, .consumer (.step call), .consumer (.step call),
    .consumer (.unlock r.owner)]

def Round.labels (r : Round) (call : ℕ) : List Label :=
  (r.steps call).zipIdx.flatMap fun step => [.consumer (.tick (r.pause step.2)), step.1]

def playRound (setup : Setup) (s : Parties) (r : Round) : Option Parties :=
  (machine setup).run (fun _ _ _ => true) s (r.labels s.consumer.nextCall)

/-- What a round relies on. -/
structure Admissible (setup : Setup) (s : Parties) (r : Round) : Prop where
  /-- The token is due when the call checks it. -/
  due : ∀ data, s.consumer.tokens.dataAt setup.api.key = some data →
    setup.api.isValid (s.consumer.now + r.pause 0) data = false
  /-- The proof is signed, and verifies for its audience with the claims it was signed with. -/
  proof : ∀ data, s.consumer.tokens.dataAt setup.api.key = some data →
    let request := setup.api.refreshRequest data
    let claims := setup.client.proofClaims r.env request
    ∃ jwt verified, setup.client.generateToken request.participantContext claims = .ok jwt ∧
      jwt.toList.all isHeaderText = true ∧ r.renewal.clientVerifier claims.aud jwt = .ok verified ∧
      verified.sub = claims.sub ∧ verified.custom.get "token" = claims.custom.get "token"
  /-- The provider's signer answers. -/
  signed : ∀ claims, ∃ token, r.renewal.generateToken setup.manager.issuerContext claims = .ok token
  /-- The new expiry is an instant. -/
  dated : ∃ expiresAt, setup.manager.renewalExpiration r.renewal.now = .ok expiresAt
  /-- The drawn values are not in use. -/
  fresh : ∀ x, s.provider.Live x →
    x.hashedRefreshToken ≠ setup.manager.hash r.renewal.refreshToken ∧ x.id ≠ r.renewal.jti

/-- The consumer has no call, guard, unlock or lock of the flow. -/
structure Idle (api : TokenClientApi) (u : Client.State) : Prop where
  calls : ∀ c, u.calls.get c = none
  guards : u.guards = []
  pending : u.pendingUnlocks = []
  lock : u.locks.get api.identifier = none

/-- `on_start` of a flow without entries has minted a pair and `on_started` has stored it from the
address. -/
structure Started (setup : Setup) (provider consumer : SigletDataFlowHandler) (p c : DataFlow)
    (s : Parties) : Prop where
  start : ∃ env now store address, store.Synced ∧ (∀ x, store.Live x → x.flowId ≠ p.id) ∧
    (∀ x, store.Live x → x.hashedRefreshToken ≠ setup.manager.hash env.refreshToken ∧
      x.id ≠ env.jti) ∧
    provider.onStart setup.manager env now p store =
      (.ok ⟨p.id, .started, some address⟩, s.provider) ∧
    c.dataAddress = some address
  started : ∃ read saved tokens,
    consumer.onStarted read saved c tokens = (.ok (), s.consumer.tokens)
  key : setup.api.key = (c.participantContextId, c.id)
  idle : Idle setup.api s.consumer

/-- The record `data` is the pair of `entry`, the only live entry of the flow, which still has the
identities and the claims of `first`. -/
structure InStep (setup : Setup) (first : RenewableTokenEntry) (s : Parties)
    (entry : RenewableTokenEntry) (data : TokenData) : Prop where
  stored : s.consumer.tokens.dataAt setup.api.key = some data
  indexed : s.provider.entriesByFlowId.get first.flowId = some entry
  live : s.provider.Live entry
  single : ∀ x, s.provider.Live x → x.flowId = first.flowId → x = entry
  token : data.token = entry.token
  refreshToken : entry.hashedRefreshToken = setup.manager.hash data.refreshToken
  subject : entry.subject = first.subject
  audience : entry.audience = first.audience
  flowId : entry.flowId = first.flowId
  participantContextId : entry.participantContextId = first.participantContextId
  claims : entry.claims = first.claims

/-! ## The consumer's call -/

/-- The only call is `n`, in the given phase, and `data` is stored; the token is due until it is
refreshed. -/
structure Alone (api : TokenClientApi) (n : ℕ) (owner : String) (phase : Phase) (data : TokenData)
    (u : Client.State) : Prop where
  calls : ∀ c, u.calls.get c = if c = n then some ⟨owner, phase⟩ else none
  stored : u.tokens.dataAt api.key = some data
  filed : data.participantContext = api.pc.id
  due : phase.early = true → api.isValid u.now data = false
  guards : u.guards = if phase.holds then [(n, owner)] else []
  pending : u.pendingUnlocks = []
  lock : ∃ acquired, u.locks.get api.identifier =
    if phase.holds then some ⟨owner, acquired, 1⟩ else none

section Consumer
variable {api : TokenClientApi} {n : ℕ} {owner endpoint : String} {phase : Phase} {data : TokenData}
  {u : Client.State}

theorem isValid_later {now : ℤ} (hdue : api.isValid now data = false) (elapsed : ℕ) :
    api.isValid (now + elapsed) data = false := by
  simp only [TokenClientApi.isValid, decide_eq_false_iff_not] at hdue ⊢
  omega

theorem Alone.get_call (h : Alone api n owner phase data u) :
    u.calls.get n = some ⟨owner, phase⟩ := by
  rw [h.calls, if_pos rfl]

theorem Alone.calls_insert (h : Alone api n owner phase data u) (phase' : Phase) (c : ℕ) :
    (u.calls.insert n ⟨owner, phase'⟩).get c = if c = n then some ⟨owner, phase'⟩ else none := by
  rw [HashMap.get_insert, h.calls]
  split_ifs <;> rfl

theorem Alone.tick (h : Alone api n owner phase data u) (elapsed : ℕ) :
    Alone api n owner phase data { u with now := u.now + elapsed } :=
  { h with due := fun hearly => isValid_later (h.due hearly) elapsed }

theorem Alone.goto (h : Alone api n owner phase data u) (phase' : Phase)
    (hholds : phase'.holds = phase.holds) (hearly : phase'.early = true → phase.early = true)
    {tokens : MemoryTokenStore} (htokens : tokens.dataAt api.key = u.tokens.dataAt api.key) :
    Alone api n owner phase' data ({ u with tokens := tokens }.goto n owner phase') where
  calls := h.calls_insert phase'
  stored := htokens.trans h.stored
  filed := h.filed
  due := fun hphase => h.due (hearly hphase)
  guards := by
    rw [hholds]
    exact h.guards
  pending := h.pending
  lock := by
    rw [hholds]
    exact h.lock

theorem Alone.getToken (h : Alone api n owner phase data u) :
    (u.tokens.getToken u.now api.pc api.identifier).1 = .ok data := by
  rcases u.tokens.getToken_cases u.now api.pc api.identifier with
    ⟨hnone, -⟩ | ⟨found, hfound, -, hok⟩
  · have hstored : u.tokens.dataAt (api.pc.id, api.identifier) = some data := h.stored
    rw [hstored] at hnone
    simp [Option.filter, h.filed] at hnone
  · rw [hok]
    exact congrArg _ (Option.some.inj (hfound.symm.trans h.stored))

theorem Alone.fetch (h : Alone api n owner .fetching data u) :
    ∃ v, Client.next api u (.step n) = some v ∧ Alone api n owner (.checking data) data v := by
  refine ⟨_, ?_, h.goto (.checking data) rfl (fun _ => rfl)
    (u.tokens.dataAt_getToken u.now api.pc api.identifier api.key)⟩
  simp only [Client.next, h.get_call, stepCall, h.getToken]

theorem Alone.check (h : Alone api n owner (.checking data) data u) :
    ∃ v, Client.next api u (.step n) = some v ∧
      Alone api n owner (.locking data.endpoint) data v := by
  refine ⟨_, ?_, h.goto (.locking data.endpoint) rfl (fun _ => rfl) rfl⟩
  simp only [Client.next, h.get_call, stepCall, h.due rfl, Bool.false_eq_true, if_false]

theorem Alone.refetch (h : Alone api n owner (.refetching endpoint) data u) :
    ∃ v, Client.next api u (.step n) = some v ∧
      Alone api n owner (.rechecking endpoint data) data v := by
  refine ⟨_, ?_, h.goto (.rechecking endpoint data) rfl (fun _ => rfl)
    (u.tokens.dataAt_getToken u.now api.pc api.identifier api.key)⟩
  simp only [Client.next, h.get_call, stepCall, h.getToken]

theorem Alone.lock_free (h : Alone api n owner phase data u) (hholds : phase.holds = false) :
    u.locks.get api.identifier = none := by
  obtain ⟨_, hlock⟩ := h.lock
  rw [hlock, hholds]
  rfl

theorem Alone.acquire (h : Alone api n owner (.locking endpoint) data u) :
    ∃ v, Client.next api u (.step n) = some v ∧
      Alone api n owner (.refetching endpoint) data v := by
  have hlive : Lock.liveRecord api.lockTimeout u.now u.locks api.identifier = none := by
    rw [Lock.liveRecord, h.lock_free rfl]
    rfl
  rcases Lock.lock_cases api.lockTimeout u.now u.locks api.identifier owner with
    ⟨-, hok, hrecord⟩ | ⟨r, hr, -⟩ | ⟨r, hr, -⟩
  · let locked : Client.State :=
      { u with locks := (Lock.lock api.lockTimeout u.now u.locks api.identifier owner).2 }
    have hnext : Client.next api u (.step n) =
        some (((locked.takeGuard n owner).goto n owner (.refetching endpoint)).log
          (.locked n)) := by
      simp only [Client.next, h.get_call, stepCall, lockThen, hok]
      rfl
    refine ⟨_, hnext, ?_⟩
    exact {
      calls := h.calls_insert _
      stored := h.stored
      filed := h.filed
      due := fun _ => h.due rfl
      guards := congrArg (List.cons (n, owner)) h.guards
      pending := h.pending
      lock := ⟨u.now, hrecord⟩ }
  · rw [hlive] at hr
    exact absurd hr (by simp)
  · rw [hlive] at hr
    exact absurd hr (by simp)

theorem Alone.recheck (h : Alone api n owner (.rechecking endpoint data) data u) :
    ∃ v, Client.next api u (.step n) = some v ∧
      Alone api n owner (.refreshing endpoint (api.refreshRequest data)) data v := by
  have hlogged : Alone api n owner (.rechecking endpoint data) data
      (u.log (.refreshCalled n (api.refreshRequest data))) :=
    ⟨h.calls, h.stored, h.filed, h.due, h.guards, h.pending, h.lock⟩
  refine ⟨_, ?_, hlogged.goto (.refreshing endpoint (api.refreshRequest data)) rfl
    (fun _ => rfl) rfl⟩
  simp only [Client.next, h.get_call, stepCall, h.due rfl, Bool.false_eq_true, if_false]

theorem Alone.answered {request : RefreshRequest}
    (h : Alone api n owner (.refreshing endpoint request) data u) (refreshed : RefreshedTokenData) :
    ∃ v, Client.next api u (.answered n (.ok refreshed)) = some v ∧
      Alone api n owner (.updating endpoint refreshed) data v := by
  refine ⟨_, ?_, h.goto (.updating endpoint refreshed) rfl (fun hearly => hearly) rfl⟩
  simp only [Client.next, h.get_call]

theorem Alone.update {refreshed : RefreshedTokenData}
    (h : Alone api n owner (.updating endpoint refreshed) data u) :
    ∃ v, Client.next api u (.step n) = some v ∧
      Alone api n owner (.returning ⟨refreshed.token, endpoint⟩) (data.refresh refreshed) v := by
  rcases u.tokens.updateToken_cases u.now api.pc.id api.identifier refreshed with
    ⟨hnone, -⟩ | ⟨old, hold, hok, hdata⟩
  · exact absurd (hnone.symm.trans h.stored) (by simp)
  · obtain rfl : old = data := Option.some.inj (hold.symm.trans h.stored)
    let updated : Client.State :=
      { u with tokens := (u.tokens.updateToken u.now api.pc.id api.identifier refreshed).2 }
    have hnext : Client.next api u (.step n) =
        some ((updated.log (.updated n refreshed)).goto n owner
          (.returning ⟨refreshed.token, endpoint⟩)) := by
      simp only [Client.next, h.get_call, stepCall, hok]
      rfl
    refine ⟨_, hnext, ?_⟩
    exact {
      calls := h.calls_insert _
      stored := (hdata api.key).trans (if_pos rfl)
      filed := h.filed
      due := fun hearly => absurd hearly (by simp [Phase.early])
      guards := h.guards
      pending := h.pending
      lock := h.lock }

theorem Alone.finish {result : TokenResult} (h : Alone api n owner (.returning result) data u) :
    ∃ v, Client.next api u (.step n) = some v ∧ (∀ c, v.calls.get c = none) ∧
      v.tokens.dataAt api.key = some data ∧ v.guards = [] ∧ v.pendingUnlocks = [owner] ∧
      (∃ acquired, v.locks.get api.identifier = some ⟨owner, acquired, 1⟩) ∧
      v.history.head? = some (.got n (.ok result)) := by
  have hnext : Client.next api u (.step n) =
      some ((u.dropGuard n owner).finish n (.got n (.ok result))) := by
    simp only [Client.next, h.get_call, stepCall]
  refine ⟨_, hnext, ?_, h.stored, ?_, ?_, h.lock, rfl⟩
  · intro c
    simp only [State.finish, State.dropGuard, HashMap.get_remove, h.calls]
    split_ifs <;> rfl
  · simp only [State.finish, State.dropGuard, h.guards, Phase.holds, if_true, List.erase_cons_head]
  · simp only [State.finish, State.dropGuard, h.pending]

theorem Idle.getToken (h : Idle api u) (owner : String)
    (hstored : u.tokens.dataAt api.key = some data) (hfiled : data.participantContext = api.pc.id)
    (hdue : api.isValid u.now data = false) : ∃ v, Client.next api u (.getToken owner) = some v ∧
      Alone api u.nextCall owner .fetching data v := by
  refine ⟨u.start owner .fetching, rfl, ?_⟩
  exact {
    calls := by
      intro c
      simp only [State.start, HashMap.get_insert, h.calls]
    stored := hstored
    filed := hfiled
    due := fun _ => hdue
    guards := h.guards
    pending := h.pending
    lock := ⟨u.now, h.lock⟩ }

theorem idle_unlock {acquired : ℤ} (hcalls : ∀ c, u.calls.get c = none) (hguards : u.guards = [])
    (hpending : u.pendingUnlocks = [owner])
    (hlock : u.locks.get api.identifier = some ⟨owner, acquired, 1⟩) :
    ∃ v, Client.next api u (.unlock owner) = some v ∧ Idle api v ∧ v.tokens = u.tokens ∧
      v.history = u.history := by
  have hmem : owner ∈ u.pendingUnlocks := by simp [hpending]
  refine ⟨_, if_pos hmem, ⟨hcalls, hguards, by simp [hpending], ?_⟩, rfl, rfl⟩
  simp [Lock.unlock, hlock, Lock.decrement]

end Consumer

/-! ## The provider's answer -/

section Provider
variable {setup : Setup} {s : Parties} {first entry : RenewableTokenEntry} {data : TokenData}

/-- The pair that a round leaves on both sides: the new entry keeps everything but the pair
itself. -/
structure Exchanged (m : JwtTokenManager) (entry new : RenewableTokenEntry)
    (refreshed : RefreshedTokenData) : Prop where
  token : refreshed.token = new.token
  refreshToken : new.hashedRefreshToken = m.hash refreshed.refreshToken
  subject : new.subject = entry.subject
  audience : new.audience = entry.audience
  flowId : new.flowId = entry.flowId
  participantContextId : new.participantContextId = entry.participantContextId
  claims : new.claims = entry.claims

theorem renew_of_proof {m : JwtTokenManager} {env : CallEnv} {store : InnerStore}
    {boundToken refreshToken : String} {verified : TokenClaims}
    (hg : store.entriesByHash.get (m.hash refreshToken) = some entry)
    (hverified : env.clientVerifier entry.audience boundToken = .ok verified)
    (hsubject : verified.sub = entry.subject)
    (htoken : verified.custom.get "token" = some (.string entry.token))
    (hsigned : ∀ claims, ∃ token, env.generateToken m.issuerContext claims = .ok token)
    (hdated : ∃ expiresAt, m.renewalExpiration env.now = .ok expiresAt) :
    ∃ new pair, m.renew env store boundToken refreshToken =
      (.ok pair, (store.update (m.hash refreshToken) new).2) ∧
      new.id = env.jti ∧ new.hashedRefreshToken = m.hash env.refreshToken ∧
      ∀ refreshed : RefreshedTokenData, refreshed.token = pair.token → refreshed.refreshToken =
        pair.refreshToken →
        Exchanged m entry new refreshed := by
  obtain ⟨token, hgenerated⟩ :=
    hsigned (m.createClaims env.claimsNow entry.audience env.jti entry.subject entry.claims)
  obtain ⟨expiresAt, hexpires⟩ := hdated
  let new : RenewableTokenEntry :=
    { entry with
      id := env.jti, token := token, hashedRefreshToken :=
        m.hash env.refreshToken, expiresAt := expiresAt }
  let pair : RenewableTokenPair := ⟨token, env.refreshToken, expiresAt, m.refreshEndpoint⟩
  have hprepare : m.renewPrepare env entry boundToken = .ok (new, pair) := renewPrepare_eq_ok.mpr
    ⟨verified, token, expiresAt, hverified, hsubject, htoken, hexpires, hgenerated, rfl, rfl⟩
  refine ⟨new, pair, ?_, rfl, rfl, fun refreshed ht hr =>
    ⟨ht, congrArg m.hash hr.symm, rfl, rfl, rfl, rfl, rfl⟩⟩
  simp only [JwtTokenManager.renew, renewLookup_eq_ok.mpr hg, hprepare, renewUpdate]
  rcases update_cases store (m.hash refreshToken) new with ⟨hnone, -⟩ | ⟨old, -, hupdate⟩
  · exact absurd (hnone.symm.trans hg) (by simp)
  · rw [hupdate]

/-- The invariant between two rounds. -/
structure Inv (setup : Setup) (first : RenewableTokenEntry) (s : Parties)
    (entry : RenewableTokenEntry) (data : TokenData) :
    Prop extends InStep setup first s entry data where
  synced : s.provider.Synced
  participant : data.participantId = first.subject
  counterParty : data.counterPartyId = first.audience
  filed : data.participantContext = setup.api.pc.id
  idle : Idle setup.api s.consumer

theorem Inv.exchange {r : Round} (h : Inv setup first s entry data) (hadm : Admissible setup s r) :
    ∃ new refreshed, setup.client.refreshToken r.env (serve setup.manager r.renewal r.answered)
        (setup.api.refreshRequest data) s.provider =
          (.ok refreshed, (s.provider.update (setup.manager.hash data.refreshToken) new).2) ∧
      new.id = r.renewal.jti ∧ new.hashedRefreshToken = setup.manager.hash r.renewal.refreshToken ∧
      Exchanged setup.manager entry new refreshed := by
  obtain ⟨jwt, verified, hjwt, htext, hverified, hsub, hcustom⟩ := hadm.proof data h.stored
  have hg : s.provider.entriesByHash.get (setup.manager.hash data.refreshToken) = some entry :=
    h.refreshToken ▸ h.live
  have haudience : r.renewal.clientVerifier entry.audience jwt = .ok verified := by
    rw [h.audience, ← h.counterParty]
    exact hverified
  have hsubject : verified.sub = entry.subject := by
    rw [hsub, h.subject, ← h.participant]
    rfl
  have htoken : verified.custom.get "token" = some (.string entry.token) := by
    rw [hcustom, ← h.token]
    rfl
  obtain ⟨new, pair, hrenew, hid, hhash, hexchanged⟩ :=
    renew_of_proof hg haudience hsubject htoken hadm.signed hadm.dated
  have hpair :
      (setup.manager.renew r.renewal s.provider jwt
        (setup.api.refreshRequest data).refreshToken).1 = .ok pair :=
    congrArg Prod.fst hrenew
  have hrefresh :=
    @refreshToken_serve setup.client setup.manager r.env r.renewal r.answered _
      jwt _ hjwt htext _ hpair
  rw [hrefresh]
  exact ⟨new, _, congrArg _ (congrArg Prod.snd hrenew), hid, hhash, hexchanged _ rfl rfl⟩

theorem Inv.exchanged {new : RenewableTokenEntry} {refreshed : RefreshedTokenData} {t : Parties}
    (h : Inv setup first s entry data) (hfresh : Fresh s.provider new)
    (hexchanged : Exchanged setup.manager entry new refreshed)
    (hprovider : t.provider = (s.provider.update (setup.manager.hash data.refreshToken) new).2)
    (hstored : t.consumer.tokens.dataAt setup.api.key = some (data.refresh refreshed))
    (hidle : Idle setup.api t.consumer) : Inv setup first t new (data.refresh refreshed) := by
  have hg : s.provider.entriesByHash.get (setup.manager.hash data.refreshToken) = some entry :=
    h.refreshToken ▸ h.live
  have hflow : ∀ old,
      s.provider.entriesByHash.get (setup.manager.hash data.refreshToken) = some old →
      new.flowId = old.flowId := by
    intro old hold
    rw [← Option.some.inj (hg.symm.trans hold)]
    exact hexchanged.flowId
  have hnew : new.flowId = first.flowId := hexchanged.flowId.trans h.flowId
  have hlive : t.provider.Live new := by
    rw [hprovider, live_update h.synced hg hfresh]
    exact Or.inl rfl
  have hsole : t.provider.Sole first.flowId := by
    have hbefore : s.provider.Sole first.flowId := fun x hx hxf => h.single x hx hxf ▸ h.indexed
    rw [hprovider]
    exact hbefore.update h.synced hfresh hflow
  have hindexed := hsole new hlive hnew
  exact {
    stored := hstored
    indexed := hindexed
    live := hlive
    single := fun x hx hxf => Option.some.inj ((hsole x hx hxf).symm.trans hindexed)
    token := hexchanged.token
    refreshToken := hexchanged.refreshToken
    subject := hexchanged.subject.trans h.subject
    audience := hexchanged.audience.trans h.audience
    flowId := hnew
    participantContextId := hexchanged.participantContextId.trans h.participantContextId
    claims := hexchanged.claims.trans h.claims
    synced := hprovider ▸ h.synced.update hfresh hflow
    participant := h.participant
    counterParty := h.counterParty
    filed := h.filed
    idle := hidle }

end Provider

/-! ## Rounds -/

section Rounds
variable {setup : Setup} {s t : Parties}

theorem next_consumer {l : Client.Label} {v : Client.State}
    (hl : ∀ c result, l ≠ .answered c result)
    (hnext : Client.next setup.api s.consumer l = some v) :
    next setup s (.consumer l) = some { s with consumer := v } := by
  cases l with
  | answered c result => exact absurd rfl (hl c result)
  | _ => simp only [next, hnext, Option.map_some]

theorem path_pause {l : Client.Label} {v : Client.State} (hl : ∀ c result, l ≠ .answered c result)
    (elapsed : ℕ)
    (hnext : Client.next setup.api { s.consumer with now := s.consumer.now + elapsed } l = some v) :
    Machine.Path (machine setup) Machine.Any s [.consumer (.tick elapsed), .consumer l]
      ⟨v, s.provider⟩ := by
  have htick : next setup s (.consumer (.tick elapsed)) =
      some ⟨{ s.consumer with now := s.consumer.now + elapsed }, s.provider⟩ := rfl
  exact .cons htick trivial (.one (next_consumer hl hnext) trivial)

theorem Alone.advance {n : ℕ} {owner : String} {phase phase' : Phase} {data data' : TokenData}
    (h : Alone setup.api n owner phase data s.consumer) (elapsed : ℕ)
    (hstep : ∀ u, Alone setup.api n owner phase data u →
      ∃ v, Client.next setup.api u (.step n) = some v ∧ Alone setup.api n owner phase' data' v) :
    ∃ t, Machine.Path (machine setup) Machine.Any s [.consumer (.tick elapsed),
      .consumer (.step n)] t ∧
      t.provider = s.provider ∧ Alone setup.api n owner phase' data' t.consumer := by
  obtain ⟨v, hnext, hv⟩ := hstep _ (h.tick elapsed)
  exact ⟨⟨v, s.provider⟩, path_pause (by simp) elapsed hnext, rfl, hv⟩

theorem Alone.deliver {n : ℕ} {owner endpoint : String} {request : RefreshRequest}
    {data : TokenData} (h : Alone setup.api n owner (.refreshing endpoint request) data s.consumer)
    (elapsed : ℕ) {env : RefreshEnv} {renewal : CallEnv} {answered : ℤ}
    {refreshed : RefreshedTokenData} {provider : InnerStore}
    (hrefresh : setup.client.refreshToken env (serve setup.manager renewal answered)
      request s.provider = (.ok refreshed, provider)) :
    ∃ t, Machine.Path (machine setup) Machine.Any s
        [.consumer (.tick elapsed), .exchange n env renewal answered] t ∧
      t.provider = provider ∧
        Alone setup.api n owner (.updating endpoint refreshed) data t.consumer := by
  let ticked : Parties := ⟨{ s.consumer with now := s.consumer.now + elapsed }, s.provider⟩
  have hticked : Alone setup.api n owner (.refreshing endpoint request) data ticked.consumer :=
    h.tick elapsed
  obtain ⟨v, hnext, hv⟩ := hticked.answered refreshed
  have hexchange : next setup ticked (.exchange n env renewal answered) = some ⟨v, provider⟩ := by
    have hprovider : ticked.provider = s.provider := rfl
    simp only [next, hticked.get_call, hprovider, hrefresh, hnext, Option.map_some]
  have htick : next setup s (.consumer (.tick elapsed)) = some ticked := rfl
  exact ⟨⟨v, provider⟩, .cons htick trivial (.one hexchange trivial), rfl, hv⟩

theorem Alone.leave {n : ℕ} {owner : String} {result : TokenResult} {data : TokenData}
    (h : Alone setup.api n owner (.returning result) data s.consumer) (before after : ℕ) :
    ∃ t, Machine.Path (machine setup) Machine.Any s [.consumer (.tick before), .consumer (.step n),
        .consumer (.tick after), .consumer (.unlock owner)] t ∧
      t.provider = s.provider ∧ Idle setup.api t.consumer ∧
        t.consumer.tokens.dataAt setup.api.key = some data ∧
      t.consumer.history.head? = some (.got n (.ok result)) := by
  obtain ⟨v, hnext, hcalls, hstored, hguards, hpending, ⟨acquired, hlock⟩, hhead⟩ :=
    (h.tick before).finish
  let later : Client.State := { v with now := v.now + after }
  obtain ⟨w, hunlock, hidle, htokens, hhistory⟩ :=
    @idle_unlock setup.api owner later acquired hcalls hguards hpending hlock
  refine ⟨⟨w, s.provider⟩, ?_, rfl, hidle, ?_, ?_⟩
  · exact (path_pause (by simp) before hnext).append (path_pause (by simp) after hunlock)
  · rw [htokens]
    exact hstored
  · rw [hhistory]
    exact hhead

theorem Inv.playRound {first entry : RenewableTokenEntry} {data : TokenData} {r : Round}
    (h : Inv setup first s entry data) (hadm : Admissible setup s r) :
    ∃ t new data', playRound setup s r = some t ∧ Inv setup first t new data' ∧
      t.consumer.history.head? =
        some (.got s.consumer.nextCall (.ok ⟨new.token, data.endpoint⟩)) := by
  obtain ⟨new, refreshed, hrefresh, hid, hhash, hexchanged⟩ := h.exchange hadm
  have hfresh : Fresh s.provider new :=
    ⟨fun x hx => hhash ▸ (hadm.fresh x hx).1, fun x hx => hid ▸ (hadm.fresh x hx).2⟩
  let ticked : Client.State := { s.consumer with now := s.consumer.now + r.pause 0 }
  have hidle : Idle setup.api ticked := ⟨h.idle.calls, h.idle.guards, h.idle.pending, h.idle.lock⟩
  obtain ⟨u₀, hnext, hu₀⟩ := hidle.getToken r.owner h.stored h.filed (hadm.due data h.stored)
  have hpath₀ := path_pause (s := s) (by simp) (r.pause 0) hnext
  obtain ⟨s₁, hpath₁, hprov₁, hs₁⟩ :=
    hu₀.advance (s := ⟨u₀, s.provider⟩) (r.pause 1) fun _ => Alone.fetch
  obtain ⟨s₂, hpath₂, hprov₂, hs₂⟩ := hs₁.advance (r.pause 2) fun _ => Alone.check
  obtain ⟨s₃, hpath₃, hprov₃, hs₃⟩ := hs₂.advance (r.pause 3) fun _ => Alone.acquire
  obtain ⟨s₄, hpath₄, hprov₄, hs₄⟩ := hs₃.advance (r.pause 4) fun _ => Alone.refetch
  obtain ⟨s₅, hpath₅, hprov₅, hs₅⟩ := hs₄.advance (r.pause 5) fun _ => Alone.recheck
  have hprov : s₅.provider = s.provider := by rw [hprov₅, hprov₄, hprov₃, hprov₂, hprov₁]
  rw [← hprov] at hrefresh
  obtain ⟨s₆, hpath₆, hprov₆, hs₆⟩ := hs₅.deliver (r.pause 6) hrefresh
  obtain ⟨s₇, hpath₇, hprov₇, hs₇⟩ := hs₆.advance (r.pause 7) fun _ => Alone.update
  obtain ⟨t, hpath₈, hprov₈, hidle', hstored, hhead⟩ := hs₇.leave (r.pause 8) (r.pause 9)
  have hpath := hpath₀.append <| hpath₁.append <| hpath₂.append <| hpath₃.append <| hpath₄.append <|
    hpath₅.append <| hpath₆.append <| hpath₇.append hpath₈
  refine ⟨t, new, data.refresh refreshed, Machine.run_of_path hpath, ?_, ?_⟩
  · refine h.exchanged hfresh hexchanged ?_ hstored hidle'
    rw [hprov₈, hprov₇, hprov₆, hprov]
  · rw [hhead, hexchanged.token]

end Rounds

/-! ## The start of a flow -/

theorem handleFlow_minted {h : SigletDataFlowHandler} {m : JwtTokenManager} {env : CallEnv}
    {now : ℤ} {flow : DataFlow} {source : TokenSource} {state : DataFlowState}
    {store store' : InnerStore} {message : DataFlowStatusMessage} {address : DataAddress}
    (hminted : h.handleFlow m env now flow source state store = (.ok message, store'))
    (haddress : message.dataAddress = some address) :
    ∃ transferType endpoint claims entry pair,
      m.preparePair env (buildParticipantContext flow) flow.counterPartyId claims flow.id =
        .ok (entry, pair) ∧
      store' = store.save entry ∧ address = pairAddress now transferType endpoint flow pair := by
  rw [← handleFlowIn_memory] at hminted
  rcases handleFlowIn_cases h MemoryRenewableTokenStore m env now flow source state store with
    ⟨e, he⟩ | he |
    ⟨transferType, endpoint, -, claims, entry, pair, -, -, -, -, hp, hsave⟩
  · rw [hminted] at he
    exact absurd (congrArg Prod.fst he) (by simp)
  · rw [hminted] at he
    obtain rfl := Except.ok.inj (congrArg Prod.fst he)
    exact absurd haddress (by simp)
  · rcases hsave with ⟨e, e', -, he⟩ | ⟨-, he⟩
    · rw [hminted] at he
      exact absurd (congrArg Prod.fst he) (by simp)
    · rw [hminted] at he
      obtain rfl := Except.ok.inj (congrArg Prod.fst he)
      exact ⟨transferType, endpoint, claims, entry, pair, hp, congrArg Prod.snd he,
        (Option.some.inj haddress).symm⟩

theorem onStarted_stored {h : SigletDataFlowHandler} {read saved : ℤ} {flow : DataFlow}
    {address : DataAddress} {tokens tokens' : MemoryTokenStore}
    (haddress : flow.dataAddress = some address)
    (hstarted : h.onStarted read saved flow tokens = (.ok (), tokens')) :
    ∃ data, tokens' = tokens.saveToken saved data ∧ h.startedData read flow = .ok (some data) := by
  unfold onStarted at hstarted
  cases hdata : h.startedData read flow with
  | error e =>
    rw [hdata] at hstarted
    exact absurd (congrArg Prod.fst hstarted) (by simp)
  | ok stored =>
    cases stored with
    | none =>
      simp only [startedData, haddress, bind_eq_ok, pure, Except.pure] at hdata
      obtain ⟨_, -, _, -, hnone⟩ := hdata
      exact absurd hnone (by simp)
    | some data =>
      rw [hdata] at hstarted
      exact ⟨data, (congrArg Prod.snd hstarted).symm, rfl⟩

/-- The two flows are the two sides of one transfer. That both sides have the same renewal support
need not be asked for: otherwise `on_started` does not find the properties. -/
structure Mirror (p c : DataFlow) : Prop where
  participant : c.participantId = p.counterPartyId
  counterParty : c.counterPartyId = p.participantId

theorem Started.inv {setup : Setup} {provider consumer : SigletDataFlowHandler} {p c : DataFlow}
    {s : Parties} (h : Started setup provider consumer p c s) (hlawful : consumer.LawfulProperties)
    (hmirror : Mirror p c) :
    ∃ first data, first.flowId = p.id ∧ first.subject = p.counterPartyId ∧
      first.audience = p.participantId ∧
      first.participantContextId = p.participantContextId ∧ Inv setup first s first data := by
  obtain ⟨env, now, store, address, hsynced, hnone, hunused, hstart, hcaddress⟩ := h.start
  obtain ⟨read, saved, tokens, hstarted⟩ := h.started
  obtain ⟨transferType, endpoint, claims, first, pair, hp, hprovider, rfl⟩ :=
    handleFlow_minted hstart rfl
  obtain ⟨-, token, expiresAt, -, -, hfirst, rfl⟩ := preparePair_eq_ok.mp hp
  obtain ⟨data, htokens, hdata⟩ := onStarted_stored hcaddress hstarted
  obtain ⟨mine, hmine, hsame⟩ := txRenewal_of_startedData hlawful hcaddress hdata
  obtain ⟨-, instant, -, hrecord⟩ :=
    (startedData_pairAddress hlawful now read hmine hsame hcaddress).mp hdata
  have hkey : setup.api.pc.id = c.participantContextId := congrArg Prod.fst h.key
  have hflow : first.flowId = p.id := congrArg RenewableTokenEntry.flowId hfirst
  have hsubject : first.subject = p.counterPartyId := congrArg RenewableTokenEntry.subject hfirst
  have haudience : first.audience = p.participantId := congrArg RenewableTokenEntry.audience hfirst
  have hcontext : first.participantContextId = p.participantContextId :=
    congrArg RenewableTokenEntry.participantContextId hfirst
  have hhash : first.hashedRefreshToken = setup.manager.hash env.refreshToken :=
    congrArg RenewableTokenEntry.hashedRefreshToken hfirst
  have hid : first.id = env.jti := congrArg RenewableTokenEntry.id hfirst
  have hfresh : store.Fresh first :=
    ⟨fun x hx => hhash ▸ (hunused x hx).1, fun x hx => hid ▸ (hunused x hx).2⟩
  refine ⟨first, data, hflow, hsubject, haudience, hcontext, ?_⟩
  exact {
    stored := by rw [htokens, MemoryTokenStore.dataAt_saveToken, h.key, hrecord, if_pos rfl]
    indexed := by
      rw [hprovider]
      exact (HashMap.get_insert _ _ _ _).trans (if_pos rfl)
    live := by
      rw [hprovider, live_save hfresh]
      exact Or.inl rfl
    single := by
      intro x hx hxf
      rw [hprovider, live_save hfresh] at hx
      rcases hx with rfl | hx
      · rfl
      · exact absurd (hxf.trans hflow) (hnone x hx)
    token :=
      (congrArg TokenData.token hrecord).trans (congrArg RenewableTokenEntry.token hfirst).symm
    refreshToken :=
      hhash.trans (congrArg setup.manager.hash (congrArg TokenData.refreshToken hrecord).symm)
    subject := rfl
    audience := rfl
    flowId := rfl
    participantContextId := rfl
    claims := rfl
    synced := hprovider ▸ hsynced.save hfresh
    participant :=
      (congrArg TokenData.participantId hrecord).trans (hmirror.participant.trans hsubject.symm)
    counterParty :=
      (congrArg TokenData.counterPartyId hrecord).trans (hmirror.counterParty.trans haudience.symm)
    filed := (congrArg TokenData.participantContext hrecord).trans hkey.symm
    idle := h.idle }

/-- Refresh rounds one after the other. -/
def rounds (setup : Setup) (provider consumer : SigletDataFlowHandler) (p c : DataFlow) :
    Machine Parties Round where
  init := Started setup provider consumer p c
  next := playRound setup

/-- After any number of rounds the parties are in step, with the identities and claims of the first
issue, and the next round succeeds. -/
theorem refresh_rounds_in_step {setup : Setup} {provider consumer : SigletDataFlowHandler}
    {p c : DataFlow} (hlawful : consumer.LawfulProperties) (hmirror : Mirror p c) {s₀ : Parties}
    (hstart : Started setup provider consumer p c s₀) :
    ∃ first, s₀.provider.entriesByFlowId.get p.id = some first ∧ first.flowId = p.id ∧
      first.subject = p.counterPartyId ∧ first.audience = p.participantId ∧
      first.participantContextId = p.participantContextId ∧
      ∀ rs s, Machine.Path (rounds setup provider consumer p c) (fun s r _ =>
        Admissible setup s r) s₀ rs s →
        ∃ entry data, InStep setup first s entry data ∧ ∀ r, Admissible setup s r →
          ∃ t new data', playRound setup s r = some t ∧ InStep setup first t new data' ∧
            t.consumer.history.head? =
              some (.got s.consumer.nextCall (.ok ⟨new.token, data.endpoint⟩)) := by
  obtain ⟨first, data, hflow, hsubject, haudience, hcontext, hinv⟩ := hstart.inv hlawful hmirror
  refine ⟨first, hflow ▸ hinv.indexed, hflow, hsubject, haudience, hcontext, ?_⟩
  intro rs s hpath
  have hkept : ∃ entry data, Inv setup first s entry data := by
    refine hpath.preserves (P := fun s => ∃ entry data, Inv setup first s entry data)
      ⟨first, data, hinv⟩ ?_
    intro a r b _ hn hadm ha
    obtain ⟨entry, data, hinv⟩ := ha
    obtain ⟨t, new, data', hplay, hinv', -⟩ := hinv.playRound hadm
    obtain rfl := Option.some.inj (hplay.symm.trans hn)
    exact ⟨new, data', hinv'⟩
  obtain ⟨entry, data, hinv⟩ := hkept
  refine ⟨entry, data, hinv.toInStep, ?_⟩
  intro r hadm
  obtain ⟨t, new, data', hplay, hinv', hhead⟩ := hinv.playRound hadm
  exact ⟨t, new, data', hplay, hinv'.toInStep, hhead⟩

/-! A pull of the demo flow: the provider mints, the consumer refreshes after two days. -/

def pullHandler : SigletDataFlowHandler :=
  { demoHandler with
    transferTypeMappings :=
      HashMap.empty.insert "http-pull" { pushType with tokenSource := .provider } }

def providerFlow : DataFlow :=
  { demoFlow with
    participantId := "did:web:provider"
    counterPartyId := "did:web:consumer"
    participantContextId := "provider"
    profile := "http-pull"
    dataAddress := none }

def pullAddress : DataAddress where
  endpointType := "HTTP"
  endpoint := "https://consumer/data"
  endpointProperties := createAuthProperties 0 ⟨"j1", "r1", 172800, "https://provider/token"⟩

def consumerFlow : DataFlow :=
  { demoFlow with profile := "http-pull", dataAddress := some pullAddress }

/-- A proof whose text is the access token it carries. -/
def pullSetup : Setup where
  api := { pc := { id := "pc" }, identifier := "flow", lockTimeout := 30000 }
  client :=
    { generateToken := fun _ claims =>
      .ok (((claims.custom.get "token").bind Value.asStr).getD "") }
  manager := demoManager

def pullParties : Parties where
  consumer := {
    tokens := (pullHandler.onStarted 0 0 consumerFlow HashMap.empty).2
    locks := HashMap.empty
    now := 0
    calls := HashMap.empty
    guards := []
    pendingUnlocks := []
    history := []
    nextCall := 0 }
  provider :=
    (pullHandler.onStart demoManager (demoEnv "j1" "r1") 0 providerFlow InnerStore.empty).2

def pullEnv : CallEnv :=
  { demoEnv "j2" "r2" with
    now := 172800
    clientVerifier := fun aud token =>
      .ok { sub := "did:web:consumer", aud := aud, exp := 173100,
            custom := HashMap.empty.insert "token" (.string token) } }

def pullRound : Round where
  owner := "flow"
  pause k := if k = 0 then 172800000 else 10
  env := ⟨172800, 172800100, "p1"⟩
  renewal := pullEnv
  answered := 172800

def pullEntry : RenewableTokenEntry where
  id := "j1"
  token := "j1"
  hashedRefreshToken := "r1"
  expiresAt := 172800
  subject := "did:web:consumer"
  claims := flowClaims providerFlow .provider
  participantContextId := "provider"
  audience := "did:web:provider"
  flowId := "flow"

theorem pullParties_provider : pullParties.provider = InnerStore.empty.save pullEntry := rfl

theorem pull_started :
    Started pullSetup pullHandler pullHandler providerFlow consumerFlow pullParties where
  start := ⟨demoEnv "j1" "r1", 0, InnerStore.empty, pullAddress, synced_empty,
    fun x hx => absurd hx (not_live_empty x), fun x hx => absurd hx (not_live_empty x), rfl, rfl⟩
  started := ⟨0, 0, HashMap.empty, rfl⟩
  key := rfl
  idle := ⟨fun _ => rfl, rfl, rfl, rfl⟩

theorem pull_admissible : Admissible pullSetup pullParties pullRound where
  due := by
    intro data hdata
    obtain rfl := Option.some.inj hdata
    rfl
  proof := by
    intro data hdata
    obtain rfl := Option.some.inj hdata
    exact ⟨"j1", _, rfl, rfl, rfl, rfl, rfl⟩
  signed := fun _ => ⟨"j2", rfl⟩
  dated := ⟨345600, rfl⟩
  fresh := by
    intro x hx
    rw [pullParties_provider, live_save (fresh_empty pullEntry)] at hx
    rcases hx with rfl | hx
    · exact ⟨by decide, by decide⟩
    · exact absurd hx (not_live_empty x)

/-- The first round of the pull: the consumer holds the second pair, and so does the provider. -/
theorem pull_refreshes : ∃ first t entry data, playRound pullSetup pullParties pullRound = some t ∧
    InStep pullSetup first t entry data := by
  have hlawful : pullHandler.LawfulProperties := lawfulProperties_of_find fun _ _ => rfl
  obtain ⟨first, -, -, -, -, -, hrounds⟩ := refresh_rounds_in_step hlawful ⟨rfl, rfl⟩ pull_started
  obtain ⟨_, _, -, hround⟩ := hrounds [] pullParties (.nil _)
  obtain ⟨t, entry, data, hplay, hstep, -⟩ := hround pullRound pull_admissible
  exact ⟨first, t, entry, data, hplay, hstep⟩

end Facet.Refresh
