import Facet.VaultProvider

/-!
# Tokens of participant contexts

`ExchangingTokenProvider` obtains a Vault token for each participant context and caches it. The
cache is behind a lock that a call holds across its exchange; the health counters are behind
another one, and are updated after the first is dropped. Times are in milliseconds. The
exchanges, the outcomes recorded and the results of a run are kept, newest first.
-/
namespace Facet.Vault
open Client

/-- `validSecs` is `lease_duration * renewal_percentage`, as an integer. -/
structure ExchangingTokenProvider where
  vaultUrl : String
  exchangeUrl : String
  audience : String
  scope : String
  subjectTokenFilePath : String
  role : String
  validSecs : UInt64 → ℤ

structure CachedToken where
  token : String
  expiresAt : ℤ
  deriving DecidableEq, Repr

structure ProviderHealth where
  consecutiveFailures : UInt32 := 0
  lastError : Option String := none
  deriving DecidableEq, Repr

def saturatingSucc (n : UInt32) : UInt32 := if n.toNat + 1 < UInt32.size then n + 1 else n

namespace ProviderHealth

def recordSuccess (_ : ProviderHealth) : ProviderHealth :=
  { consecutiveFailures := 0, lastError := none }

def recordError (health : ProviderHealth) (error : VaultError) : ProviderHealth where
  consecutiveFailures := saturatingSucc health.consecutiveFailures
  lastError := some error.message

end ProviderHealth

/-- The last millisecond of a `DateTime<Utc>`. -/
def lastInstant : ℤ := 8210266876799999

namespace ExchangingTokenProvider

def new (config : VaultProviderConfig) (validSecs : UInt64 → ℤ) :
    Except VaultError ExchangingTokenProvider :=
  match config.authConfig with
  | .tokenExchange subjectTokenFilePath exchangeUrl audience scope role =>
    .ok { vaultUrl := config.vaultUrl, exchangeUrl, audience, scope, subjectTokenFilePath
          role := role.getD defaultRole, validSecs }
  | _ => .error (.invalidData "ExchangingTokenProvider requires TokenExchange auth")

variable (p : ExchangingTokenProvider)

def acquireToken (env : AuthEnv) (resource : String) : Except VaultError AuthInfo := do
  let subjectToken ← readTokenFile p.subjectTokenFilePath
    { notFound := "Subject token file not found at path: "
      unreadable := "Failed to read subject token file "
      empty := "Subject token file is empty" } env.file
  let participantJwt ←
    exchangeSubjectToken env.send (p.exchangeUrl ++ "/token") subjectToken
      resource p.audience p.scope
  jwtLogin env.send p.vaultUrl participantJwt p.role

/-- The sum panics beyond the range of a `DateTime`. -/
def computeExpiry (now : ℤ) (leaseDuration : UInt64) : Option ℤ :=
  let expiresAt := now + 1000 * max (p.validSecs leaseDuration) 1
  if expiresAt ≤ lastInstant then some expiresAt else none

/-! ## Calls of `token` -/

inductive Phase
  | reading
  | waiting
  | checking
  | exchanging
  | recording (result : Except VaultError String)

/-- The write lock of the cache is held. -/
def Phase.locked : Phase → Bool
  | .checking => true
  | .exchanging => true
  | .reading => false
  | .waiting => false
  | .recording _ => false

/-- A call of `token_for`. -/
structure Call where
  context : ParticipantContext
  cacheKey : String
  resource : String
  phase : Phase

structure Exchange where
  call : ℕ
  resource : String
  env : AuthEnv

structure Result where
  call : ℕ
  context : ParticipantContext
  result : Except VaultError String

structure State where
  cache : HashMap String CachedToken
  health : ProviderHealth
  writer : Option ℕ
  calls : HashMap ℕ Call
  now : ℤ
  exchanges : List Exchange
  recorded : List Bool
  results : List Result

inductive Label
  | token (call : ℕ) (ctx : ParticipantContext)
  | read (call : ℕ)
  | lock (call : ℕ)
  | check (call : ℕ)
  | acquire (call : ℕ) (env : AuthEnv)
  | record (call : ℕ)
  | cancel (call : ℕ)
  | tick (later : ℤ)

namespace State

/-- A cached token that is still valid. -/
def cached (s : State) (cacheKey : String) : Option CachedToken :=
  (s.cache.get cacheKey).filter fun cached => decide (s.now < cached.expiresAt)

def enter (s : State) (call : ℕ) (c : Call) (phase : Phase) : State :=
  { s with calls := s.calls.insert call { c with phase } }

def finish (s : State) (call : ℕ) (c : Call) (result : Except VaultError String) : State :=
  { s with calls := s.calls.remove call, results := ⟨call, c.context, result⟩ :: s.results }

def unlock (s : State) : State := { s with writer := none }

end State

def next (s : State) : Label → Option State
  | .token call ctx =>
    match s.calls.get call with
    | some _ => none
    | none => some { s with calls := s.calls.insert call ⟨ctx, ctx.id, ctx.id, .reading⟩ }
  | .read call =>
    match s.calls.get call with
    | none => none
    | some c =>
      match c.phase, s.writer with
      | .reading, none =>
        match s.cached c.cacheKey with
        | some cached => some (s.finish call c (.ok cached.token))
        | none => some (s.enter call c .waiting)
      | _, _ => none
  | .lock call =>
    match s.calls.get call with
    | none => none
    | some c =>
      match c.phase, s.writer with
      | .waiting, none => some { s.enter call c .checking with writer := some call }
      | _, _ => none
  | .check call =>
    match s.calls.get call with
    | none => none
    | some c =>
      match c.phase with
      | .checking =>
        match s.cached c.cacheKey with
        | some cached => some (s.finish call c (.ok cached.token)).unlock
        | none => some (s.enter call c .exchanging)
      | _ => none
  | .acquire call env =>
    match s.calls.get call with
    | none => none
    | some c =>
      match c.phase with
      | .exchanging =>
        let s' := { s.unlock with exchanges := ⟨call, c.resource, env⟩ :: s.exchanges }
        match p.acquireToken env c.resource with
        | .ok auth =>
          match p.computeExpiry s.now auth.leaseDuration with
          | some expiresAt => some { s'.enter call c (.recording (.ok auth.clientToken)) with
              cache := s.cache.insert c.cacheKey ⟨auth.clientToken, expiresAt⟩ }
          -- a panic drops the guard and ends the call
          | none => some { s' with calls := s.calls.remove call }
        | .error e => some (s'.enter call c (.recording (.error e)))
      | _ => none
  | .record call =>
    match s.calls.get call with
    | none => none
    | some c =>
      match c.phase with
      | .recording (.ok token) => some { s.finish call c (.ok token) with
          health := s.health.recordSuccess
          recorded := false :: s.recorded }
      | .recording (.error e) => some { s.finish call c (.error e) with
          health := s.health.recordError e
          recorded := true :: s.recorded }
      | _ => none
  | .cancel call => some { s with
      calls := s.calls.remove call
      writer := if s.writer = some call then none else s.writer }
  | .tick later => if s.now ≤ later then some { s with now := later } else none

structure Started (s : State) : Prop where
  cache : s.cache = HashMap.empty
  health : s.health = {}
  writer : s.writer = none
  calls : s.calls = HashMap.empty
  exchanges : s.exchanges = []
  recorded : s.recorded = []
  results : s.results = []

def machine : Machine State Label where
  init := Started
  next := next p

/-! ## What a step can do -/

inductive Effect (p : ExchangingTokenProvider) (s : State) : Label → State → Prop
  | arrived (call : ℕ) (ctx : ParticipantContext) :
    Effect p s (.token call ctx) { s with
      calls := s.calls.insert call ⟨ctx, ctx.id, ctx.id, .reading⟩ }
  | hit {call : ℕ} {c : Call} {cached : CachedToken} (reading : s.calls.get call = some c)
      (phase : c.phase = .reading) (valid : s.cached c.cacheKey = some cached) :
      Effect p s (.read call) (s.finish call c (.ok cached.token))
  | missed {call : ℕ} {c : Call} (reading : s.calls.get call = some c) :
    Effect p s (.read call) (s.enter call c .waiting)
  | locked {call : ℕ} {c : Call} (waiting : s.calls.get call = some c) (free : s.writer = none) :
    Effect p s (.lock call) { s.enter call c .checking with writer := some call }
  | filled {call : ℕ} {c : Call} {cached : CachedToken} (checking : s.calls.get call = some c)
      (phase : c.phase = .checking) (valid : s.cached c.cacheKey = some cached) :
    Effect p s (.check call) (s.finish call c (.ok cached.token)).unlock
  | started {call : ℕ} {c : Call} (checking : s.calls.get call = some c)
      (phase : c.phase = .checking) (stale : s.cached c.cacheKey = none) :
      Effect p s (.check call) (s.enter call c .exchanging)
  | acquired {call : ℕ} {c : Call} {env : AuthEnv} {auth : AuthInfo} {expiresAt : ℤ}
      (exchanging : s.calls.get call = some c) (phase : c.phase = .exchanging)
      (ok : p.acquireToken env c.resource = .ok auth) :
    Effect p s (.acquire call env)
      { ({ s.unlock with exchanges := ⟨call, c.resource, env⟩ :: s.exchanges } : State).enter call c
          (.recording (.ok auth.clientToken)) with
        cache := s.cache.insert c.cacheKey ⟨auth.clientToken, expiresAt⟩ }
  | panicked {call : ℕ} {c : Call} {env : AuthEnv} (exchanging : s.calls.get call = some c)
      (phase : c.phase = .exchanging) :
    Effect p s (.acquire call env)
      { s.unlock with
        exchanges := ⟨call, c.resource, env⟩ :: s.exchanges
        calls := s.calls.remove call }
  | failed {call : ℕ} {c : Call} {env : AuthEnv} {e : VaultError}
      (exchanging : s.calls.get call = some c) (phase : c.phase = .exchanging)
      (error : p.acquireToken env c.resource = .error e) :
    Effect p s (.acquire call env)
      (({ s.unlock with exchanges := ⟨call, c.resource, env⟩ :: s.exchanges } : State).enter call c
        (.recording (.error e)))
  | succeeded {call : ℕ} {c : Call} {token : String} (recording : s.calls.get call = some c)
      (phase : c.phase = .recording (.ok token)) :
    Effect p s (.record call)
      { s.finish call c (.ok token) with
        health := s.health.recordSuccess, recorded := false :: s.recorded }
  | erred {call : ℕ} {c : Call} {e : VaultError} (recording : s.calls.get call = some c)
      (phase : c.phase = .recording (.error e)) :
    Effect p s (.record call)
      { s.finish call c (.error e) with
        health := s.health.recordError e, recorded := true :: s.recorded }
  | cancelled (call : ℕ) :
    Effect p s (.cancel call)
      { s with calls := s.calls.remove call,
               writer := if s.writer = some call then none else s.writer }
  | passed {later : ℤ} (monotone : s.now ≤ later) : Effect p s (.tick later) { s with now := later }

theorem effect_of_next {p : ExchangingTokenProvider} {s t : State} {l : Label}
    (hn : next p s l = some t) : Effect p s l t := by
  cases l with
  | token call ctx =>
    simp only [next] at hn
    split at hn
    · exact absurd hn (by simp)
    · exact Option.some.inj hn ▸ Effect.arrived call ctx
  | read call =>
    simp only [next] at hn
    split at hn
    · exact absurd hn (by simp)
    · rename_i c hcall
      split at hn
      · rename_i hphase _
        split at hn
        · rename_i cached hcached
          exact Option.some.inj hn ▸ Effect.hit hcall hphase hcached
        · exact Option.some.inj hn ▸ Effect.missed hcall
      · exact absurd hn (by simp)
  | lock call =>
    simp only [next] at hn
    split at hn
    · exact absurd hn (by simp)
    · rename_i c hcall
      split at hn
      · rename_i hwriter
        exact Option.some.inj hn ▸ Effect.locked hcall hwriter
      · exact absurd hn (by simp)
  | check call =>
    simp only [next] at hn
    split at hn
    · exact absurd hn (by simp)
    · rename_i c hcall
      split at hn
      · rename_i hphase
        split at hn
        · rename_i cached hcached
          exact Option.some.inj hn ▸ Effect.filled hcall hphase hcached
        · rename_i hcached
          exact Option.some.inj hn ▸ Effect.started hcall hphase hcached
      · exact absurd hn (by simp)
  | acquire call env =>
    simp only [next] at hn
    split at hn
    · exact absurd hn (by simp)
    · rename_i c hcall
      split at hn
      · rename_i hphase
        cases hresult : p.acquireToken env c.resource with
        | ok auth =>
          simp only [hresult] at hn
          split at hn
          · exact Option.some.inj hn ▸ Effect.acquired hcall hphase hresult
          · exact Option.some.inj hn ▸ Effect.panicked hcall hphase
        | error e =>
          simp only [hresult, Option.some.injEq] at hn
          exact hn ▸ Effect.failed hcall hphase hresult
      · exact absurd hn (by simp)
  | record call =>
    simp only [next] at hn
    split at hn
    · exact absurd hn (by simp)
    · rename_i c hcall
      split at hn
      · rename_i token hphase
        exact Option.some.inj hn ▸ Effect.succeeded hcall hphase
      · rename_i e hphase
        exact Option.some.inj hn ▸ Effect.erred hcall hphase
      · exact absurd hn (by simp)
  | cancel call => exact Option.some.inj hn ▸ Effect.cancelled call
  | tick later =>
    simp only [next] at hn
    split_ifs at hn with hlater
    exact Option.some.inj hn ▸ Effect.passed hlater

/-! ## What holds over a run -/

/-- Vault gave the token in the exchange. -/
def Exchange.Gave (p : ExchangingTokenProvider) (exchange : Exchange) (token : String) : Prop :=
  ∃ auth, p.acquireToken exchange.env exchange.resource = .ok auth ∧ auth.clientToken = token

/-- The token is from an exchange for the resource. -/
def Origin (p : ExchangingTokenProvider) (exchanges : List Exchange)
    (resource token : String) : Prop :=
  ∃ exchange ∈ exchanges, exchange.resource = resource ∧ exchange.Gave p token

/-- The call has just acquired the token itself. -/
def JustAcquired (p : ExchangingTokenProvider) (s : State) (call : ℕ) (ctx : ParticipantContext)
    (token : String) : Prop :=
  ∃ exchange ∈ s.exchanges, exchange.call = call ∧ exchange.resource = ctx.id ∧
    exchange.Gave p token

structure CallOk (p : ExchangingTokenProvider) (s : State) (call : ℕ) (c : Call) : Prop where
  cacheKey : c.cacheKey = c.context.id
  resource : c.resource = c.context.id
  locked : c.phase.locked = true → s.writer = some call
  stale : c.phase = .exchanging → s.cached c.context.id = none
  acquired : ∀ token, c.phase = .recording (.ok token) → JustAcquired p s call c.context token

def CallsOk (p : ExchangingTokenProvider) (s : State) : Prop :=
  ∀ call c, s.calls.get call = some c → CallOk p s call c

structure Inv (p : ExchangingTokenProvider) (s : State) : Prop where
  cache : ∀ key cached, s.cache.get key = some cached → Origin p s.exchanges key cached.token
  calls : CallsOk p s
  results : ∀ result ∈ s.results, ∀ token, result.result = .ok token →
    Origin p s.exchanges result.context.id token
  failures :
    s.health.consecutiveFailures.toNat = min (failuresSince some s.recorded) (UInt32.size - 1)
  lastError : s.health.lastError.isSome = true ↔ 0 < s.health.consecutiveFailures

section Step
variable {p : ExchangingTokenProvider} {s t : State} {call : ℕ} {c : Call}

theorem cached_eq_some {key : String} {cached : CachedToken} :
    s.cached key = some cached ↔ s.cache.get key = some cached ∧ s.now < cached.expiresAt := by
  simp [State.cached, Option.filter_eq_some_iff]

theorem cached_eq_none {key : String} :
    s.cached key = none ↔ ∀ cached, s.cache.get key = some cached → cached.expiresAt ≤ s.now := by
  simp [State.cached, Option.filter_eq_none_iff]

theorem Origin.mono {old new : List Exchange} {resource token : String}
    (h : Origin p old resource token) (hsub : old ⊆ new) : Origin p new resource token := by
  obtain ⟨exchange, hmem, hgave⟩ := h
  exact ⟨exchange, hsub hmem, hgave⟩

theorem saturatingSucc_toNat (n : UInt32) :
    (saturatingSucc n).toNat = min (n.toNat + 1) (UInt32.size - 1) := by
  have hn := n.toNat_lt
  unfold saturatingSucc
  split_ifs with hlt
  · rw [UInt32.toNat_add, show (1 : UInt32).toNat = 1 from rfl,
      Nat.mod_eq_of_lt (by simpa using hlt)]
    omega
  · simp only [UInt32.size] at hlt ⊢
    omega

/-- The other calls stay as they are, and the holder of the lock keeps it, and the cache with it. -/
structure Leaves (s t : State) (call : ℕ) : Prop where
  writer : ∀ other, other ≠ call → s.writer = some other → t.writer = some other ∧ t.cache = s.cache
  now : s.now ≤ t.now
  exchanges : s.exchanges ⊆ t.exchanges

theorem Leaves.same (hwriter : t.writer = s.writer) (hcache : t.cache = s.cache)
    (hnow : t.now = s.now) (hexchanges : t.exchanges = s.exchanges) : Leaves s t call where
  writer _ _ hheld := ⟨hwriter.trans hheld, hcache⟩
  now := hnow.ge
  exchanges := hexchanges ▸ List.Subset.refl _

/-- Nobody else holds the lock. -/
theorem CallOk.alone (h : CallOk p s call c) (hlocked : c.phase.locked = true) :
    ∀ other, other ≠ call → s.writer ≠ some other := by
  intro other hne heq
  rw [h.locked hlocked] at heq
  exact hne (Option.some.inj heq).symm

/-- The holder of the lock can write, and give it back. -/
theorem CallOk.leaves (h : CallOk p s call c) (hlocked : c.phase.locked = true)
    (hnow : t.now = s.now) (hexchanges : s.exchanges ⊆ t.exchanges) : Leaves s t call where
  writer other hne hheld := absurd hheld (h.alone hlocked other hne)
  now := hnow.ge
  exchanges := hexchanges

theorem CallOk.transfer (h : CallOk p s call c)
    (hwriter : s.writer = some call → t.writer = some call ∧ t.cache = s.cache)
    (hnow : s.now ≤ t.now) (hexchanges : s.exchanges ⊆ t.exchanges) : CallOk p t call c where
  cacheKey := h.cacheKey
  resource := h.resource
  locked hlocked := (hwriter (h.locked hlocked)).1
  stale hexchanging := by
    have hcache := (hwriter (h.locked (by rw [hexchanging]; rfl))).2
    rw [cached_eq_none, hcache]
    intro cached hget
    exact (cached_eq_none.mp (h.stale hexchanging) cached hget).trans hnow
  acquired token hrecording := by
    obtain ⟨exchange, hmem, hgave⟩ := h.acquired token hrecording
    exact ⟨exchange, hexchanges hmem, hgave⟩

theorem Inv.enter (h : Inv p s) {d : Call} (hcalls : t.calls = s.calls.insert call d)
    (hleaves : Leaves s t call) (hok : CallOk p t call d) : CallsOk p t := by
  intro other e hget
  rw [hcalls] at hget
  rcases HashMap.get_insert_eq_some hget with ⟨rfl, rfl⟩ | ⟨hne, hold⟩
  · exact hok
  · exact (h.calls other e hold).transfer (hleaves.writer other hne) hleaves.now hleaves.exchanges

theorem Inv.leave (h : Inv p s) (hcalls : t.calls = s.calls.remove call)
    (hleaves : Leaves s t call) : CallsOk p t := by
  intro other e hget
  rw [hcalls] at hget
  obtain ⟨hne, hold⟩ := HashMap.get_remove_eq_some hget
  exact (h.calls other e hold).transfer (hleaves.writer other hne) hleaves.now hleaves.exchanges

theorem Inv.hit (h : Inv p s) (hcall : s.calls.get call = some c) {cached : CachedToken}
    (hcached : s.cached c.cacheKey = some cached) :
    Origin p s.exchanges c.context.id cached.token := by
  rw [← (h.calls call c hcall).cacheKey]
  exact h.cache c.cacheKey cached (cached_eq_some.mp hcached).1

/-- A call ends with a token that is from an exchange for its context, or with an error. -/
theorem Inv.result (h : Inv p s) {result : Result} (horigin : ∀ token, result.result = .ok token →
    Origin p s.exchanges result.context.id token) :
      ∀ other ∈ result :: s.results, ∀ token, other.result = .ok token →
      Origin p s.exchanges other.context.id token := by
  intro other hmem
  rcases List.mem_cons.mp hmem with rfl | hold
  · exact horigin
  · exact h.results other hold

/-- A call that has found a valid token ends. -/
theorem Inv.serve (h : Inv p s) (hcall : s.calls.get call = some c) {cached : CachedToken}
    (hcached : s.cached c.cacheKey = some cached) {writer : Option ℕ}
    (hleaves : Leaves s { s.finish call c (.ok cached.token) with writer := writer } call) :
    Inv p { s.finish call c (.ok cached.token) with writer := writer } where
  cache := h.cache
  calls := h.leave rfl hleaves
  results := h.result fun _ htoken => Except.ok.inj htoken ▸ h.hit hcall hcached
  failures := h.failures
  lastError := h.lastError

/-- The end of an exchange, with the cache and the calls of the state after it. -/
theorem Inv.exchanged (h : Inv p s) (exchange : Exchange) {cache : HashMap String CachedToken}
    {calls : HashMap ℕ Call}
    (hcache : ∀ key cached, cache.get key = some cached → s.cache.get key = some cached ∨
      exchange.resource = key ∧ exchange.Gave p cached.token)
    (hcalls : CallsOk p { s.unlock with
      exchanges := exchange :: s.exchanges, cache := cache, calls := calls }) :
    Inv p { s.unlock with
      exchanges := exchange :: s.exchanges, cache := cache, calls := calls } where
  cache key cached hget := by
    rcases hcache key cached hget with hold | hnew
    · exact (h.cache key cached hold).mono (List.subset_cons_self _ _)
    · exact ⟨exchange, List.mem_cons_self, hnew⟩
  calls := hcalls
  results result hmem token htoken :=
    (h.results result hmem token htoken).mono (List.subset_cons_self _ _)
  failures := h.failures
  lastError := h.lastError

/-- A call that neither takes nor gives back the lock goes on to a phase without it, and with no
token. -/
theorem Inv.goes_on (h : Inv p s) (hcall : s.calls.get call = some c) {phase : Phase}
    (hfree : phase.locked = false) (hnone : ∀ token, phase ≠ .recording (.ok token)) :
    Inv p (s.enter call c phase) := by
  have hok := h.calls call c hcall
  refine { h with
    calls := h.enter rfl (.same rfl rfl rfl rfl) ⟨hok.cacheKey, hok.resource, ?_, ?_, ?_⟩ }
  · intro hlocked
    exact absurd (hfree.symm.trans hlocked) (by simp)
  · rintro rfl
    exact absurd hfree (by simp [Phase.locked])
  · intro token htoken
    exact absurd htoken (hnone token)

theorem Inv.lock (h : Inv p s) (hcall : s.calls.get call = some c) (hfree : s.writer = none) :
    Inv p { s.enter call c .checking with writer := some call } := by
  have hok := h.calls call c hcall
  refine { h with
    calls := h.enter rfl ⟨?_, le_rfl, List.Subset.refl _⟩
      ⟨hok.cacheKey, hok.resource, fun _ => rfl, by simp, by simp⟩ }
  intro other _ hheld
  exact absurd hheld (by simp [hfree])

theorem Inv.start (h : Inv p s) (hcall : s.calls.get call = some c) (hphase : c.phase = .checking)
    (hstale : s.cached c.cacheKey = none) : Inv p (s.enter call c .exchanging) := by
  have hok := h.calls call c hcall
  have hheld : s.writer = some call := hok.locked (hphase ▸ rfl)
  exact { h with
    calls := h.enter rfl (.same rfl rfl rfl rfl)
      ⟨hok.cacheKey, hok.resource, fun _ => hheld, fun _ => hok.cacheKey ▸ hstale, by simp⟩ }

theorem Inv.acquire (h : Inv p s) (hcall : s.calls.get call = some c)
    (hphase : c.phase = .exchanging) {env : AuthEnv} {auth : AuthInfo}
    (hauth : p.acquireToken env c.resource = .ok auth) (expiresAt : ℤ) :
    Inv p { ({ s.unlock with
        exchanges := ⟨call, c.resource, env⟩ :: s.exchanges } : State).enter call c
          (.recording (.ok auth.clientToken)) with
      cache := s.cache.insert c.cacheKey ⟨auth.clientToken, expiresAt⟩ } := by
  have hok := h.calls call c hcall
  have hlocked : c.phase.locked = true := hphase ▸ rfl
  have hgave : Exchange.Gave p ⟨call, c.resource, env⟩ auth.clientToken := ⟨auth, hauth, rfl⟩
  refine h.exchanged ⟨call, c.resource, env⟩ ?_ ?_
  · intro key cached hget
    rcases HashMap.get_insert_eq_some hget with ⟨rfl, rfl⟩ | ⟨-, hold⟩
    · exact Or.inr ⟨hok.resource.trans hok.cacheKey.symm, hgave⟩
    · exact Or.inl hold
  · refine h.enter rfl ?_ ⟨hok.cacheKey, hok.resource, by simp [Phase.locked], by simp, ?_⟩
    · exact hok.leaves hlocked rfl (List.subset_cons_self _ _)
    · intro token htoken
      obtain rfl := Except.ok.inj (Phase.recording.inj htoken)
      exact ⟨_, List.mem_cons_self, rfl, hok.resource, hgave⟩

theorem Inv.panic (h : Inv p s) (hcall : s.calls.get call = some c) (hphase : c.phase = .exchanging)
    (env : AuthEnv) : Inv p { s.unlock with
      exchanges := ⟨call, c.resource, env⟩ :: s.exchanges
      calls := s.calls.remove call } := by
  have hlocked : c.phase.locked = true := hphase ▸ rfl
  refine h.exchanged ⟨call, c.resource, env⟩ (fun _ _ => Or.inl) (h.leave rfl ?_)
  exact (h.calls call c hcall).leaves hlocked rfl (List.subset_cons_self _ _)

theorem Inv.fail (h : Inv p s) (hcall : s.calls.get call = some c) (hphase : c.phase = .exchanging)
    (env : AuthEnv) (e : VaultError) :
    Inv p (({ s.unlock with exchanges := ⟨call, c.resource, env⟩ ::
      s.exchanges } : State).enter call c (.recording (.error e))) := by
  have hok := h.calls call c hcall
  have hlocked : c.phase.locked = true := hphase ▸ rfl
  refine h.exchanged ⟨call, c.resource, env⟩ (fun _ _ => Or.inl) (h.enter rfl ?_ ?_)
  · exact hok.leaves hlocked rfl (List.subset_cons_self _ _)
  · exact ⟨hok.cacheKey, hok.resource, by simp [Phase.locked], by simp, by simp⟩

theorem Inv.succeed (h : Inv p s) (hcall : s.calls.get call = some c) {token : String}
    (hphase : c.phase = .recording (.ok token)) :
    Inv p { s.finish call c (.ok token) with
      health := s.health.recordSuccess
      recorded := false :: s.recorded } := by
  refine ⟨h.cache, h.leave rfl (.same rfl rfl rfl rfl), h.result ?_, ?_, ?_⟩
  · intro token' htoken
    obtain rfl := Except.ok.inj htoken
    obtain ⟨exchange, hmem, -, hgave⟩ := (h.calls call c hcall).acquired token hphase
    exact ⟨exchange, hmem, hgave⟩
  · rw [failuresSince_success rfl]
    rfl
  · simp [ProviderHealth.recordSuccess]

theorem Inv.err (h : Inv p s) (call : ℕ) (c : Call) (e : VaultError) :
    Inv p { s.finish call c (.error e) with
      health := s.health.recordError e
      recorded := true :: s.recorded } := by
  have hcount := saturatingSucc_toNat s.health.consecutiveFailures
  refine ⟨h.cache, h.leave rfl (.same rfl rfl rfl rfl), h.result (by simp), ?_, iff_of_true rfl ?_⟩
  · rw [failuresSince_failure rfl]
    rw [h.failures] at hcount
    refine hcount.trans ?_
    omega
  · refine UInt32.lt_iff_toNat_lt.mpr (lt_of_lt_of_eq ?_ hcount.symm)
    simp [UInt32.size]

theorem Inv.cancel (h : Inv p s) (call : ℕ) :
    Inv p { s with
      calls := s.calls.remove call
      writer := if s.writer = some call then none else s.writer } := by
  refine { h with calls := h.leave rfl ⟨?_, le_rfl, List.Subset.refl _⟩ }
  intro other hne hheld
  refine ⟨?_, rfl⟩
  rw [if_neg, hheld]
  rw [hheld]
  exact fun heq => hne (Option.some.inj heq)

theorem inv_step {l : Label} (h : Inv p s) (he : Effect p s l t) : Inv p t := by
  cases he with
  | arrived call ctx =>
    exact { h with calls := h.enter rfl (.same rfl rfl rfl rfl) ⟨rfl,
      rfl, by simp [Phase.locked], by simp, by simp⟩ }
  | hit reading phase valid => exact h.serve reading valid (.same rfl rfl rfl rfl)
  | missed reading => exact h.goes_on reading rfl (by simp)
  | locked waiting free => exact h.lock waiting free
  | @filled call c cached checking phase valid =>
    have hlocked : c.phase.locked = true := phase ▸ rfl
    exact h.serve checking valid ((h.calls call c checking).leaves hlocked rfl (List.Subset.refl _))
  | started checking phase stale => exact h.start checking phase stale
  | acquired exchanging phase ok => exact h.acquire exchanging phase ok _
  | panicked exchanging phase => exact h.panic exchanging phase _
  | failed exchanging phase error => exact h.fail exchanging phase _ _
  | succeeded recording phase => exact h.succeed recording phase
  | @erred call c e recording phase => exact h.err call c e
  | cancelled call => exact h.cancel call
  | passed monotone =>
    refine { h with calls := ?_ }
    intro call c hcall
    exact (h.calls call c hcall).transfer (fun hheld => ⟨hheld, rfl⟩) monotone (List.Subset.refl _)

theorem inv_of_reach (hreach : (machine p).Reach Machine.Any s) : Inv p s := by
  refine hreach.invariant (P := Inv p) ?_ fun a l b ha hn _ => inv_step ha (effect_of_next hn)
  intro s hinit
  constructor
  · simp [hinit.cache]
  · simp [CallsOk, hinit.calls]
  · simp [hinit.results]
  · simp [hinit.health, hinit.recorded, failuresSince]
  · simp [hinit.health]

/-- What is said of a step. -/
structure TokenStep (p : ExchangingTokenProvider) (s t : State) (l : Label) : Prop where
  returned : ∀ call ctx token, t.results = ⟨call, ctx, .ok token⟩ :: s.results →
    (∃ cached, s.cache.get ctx.id = some cached ∧ cached.token = token ∧ s.now < cached.expiresAt) ∨
      JustAcquired p s call ctx token
  exchanged : ∀ exchange, t.exchanges = exchange :: s.exchanges →
    l = .acquire exchange.call exchange.env ∧
    ∃ c, s.calls.get exchange.call = some c ∧ c.phase = .exchanging ∧
      exchange.resource = c.context.id
  cache : t.cache = s.cache ∨ ∃ call c env auth, l = .acquire call env ∧ s.calls.get call = some c ∧
    p.acquireToken env c.context.id = .ok auth

theorem tokenStep {l : Label} (h : Inv p s) (he : Effect p s l t) : TokenStep p s t l := by
  have hresults : ∀ {result : Result}, s.results ≠ result :: s.results := by simp
  have hexchanges : ∀ {exchange : Exchange}, s.exchanges ≠ exchange :: s.exchanges := by simp
  have hnot : ∀ {exchange : Exchange}, s.exchanges = exchange :: s.exchanges →
      l = .acquire exchange.call exchange.env ∧ ∃ c, s.calls.get exchange.call = some c ∧
        c.phase = .exchanging ∧
        exchange.resource = c.context.id :=
    fun hsame => absurd hsame hexchanges
  have hhit : ∀ {call c cached}, s.calls.get call = some c → s.cached c.cacheKey = some cached →
      ∃ found, s.cache.get c.context.id = some found ∧
        found.token = cached.token ∧ s.now < found.expiresAt := by
    intro call c cached hcall hcached
    obtain ⟨hget, hvalid⟩ := cached_eq_some.mp hcached
    exact ⟨cached, (h.calls call c hcall).cacheKey ▸ hget, rfl, hvalid⟩
  cases he with
  | hit reading phase valid =>
    refine ⟨?_, fun _ => hnot, Or.inl rfl⟩
    intro call ctx token hresult
    obtain ⟨rfl, rfl, hok⟩ := Result.mk.inj (List.cons.inj hresult).1
    exact Or.inl (Except.ok.inj hok ▸ hhit reading valid)
  | filled checking phase valid =>
    refine ⟨?_, fun _ => hnot, Or.inl rfl⟩
    intro call ctx token hresult
    obtain ⟨rfl, rfl, hok⟩ := Result.mk.inj (List.cons.inj hresult).1
    exact Or.inl (Except.ok.inj hok ▸ hhit checking valid)
  | @acquired call c env auth expiresAt exchanging phase ok =>
    have hok := h.calls call c exchanging
    refine ⟨fun _ _ _ hresult => absurd hresult hresults, ?_,
      Or.inr ⟨call, c, env, auth, rfl, exchanging, hok.resource ▸ ok⟩⟩
    intro exchange hexchange
    obtain rfl := (List.cons.inj hexchange).1
    exact ⟨rfl, c, exchanging, phase, hok.resource⟩
  | @panicked call c env exchanging phase =>
    refine ⟨fun _ _ _ hresult => absurd hresult hresults, ?_, Or.inl rfl⟩
    intro exchange hexchange
    obtain rfl := (List.cons.inj hexchange).1
    exact ⟨rfl, c, exchanging, phase, (h.calls call c exchanging).resource⟩
  | @failed call c env e exchanging phase error =>
    refine ⟨fun _ _ _ hresult => absurd hresult hresults, ?_, Or.inl rfl⟩
    intro exchange hexchange
    obtain rfl := (List.cons.inj hexchange).1
    exact ⟨rfl, c, exchanging, phase, (h.calls call c exchanging).resource⟩
  | @succeeded call c token recording phase =>
    refine ⟨?_, fun _ => hnot, Or.inl rfl⟩
    intro call' ctx token' hresult
    obtain ⟨rfl, rfl, hok⟩ := Result.mk.inj (List.cons.inj hresult).1
    exact Or.inr (Except.ok.inj hok ▸ (h.calls call c recording).acquired token phase)
  | erred recording phase =>
    refine ⟨?_, fun _ => hnot, Or.inl rfl⟩
    intro call ctx token hresult
    exact absurd (Result.mk.inj (List.cons.inj hresult).1).2.2 (by simp)
  | _ => exact ⟨fun _ _ _ hresult => absurd hresult hresults, fun _ => hnot, Or.inl rfl⟩

/-- Each context gets its own tokens, from one exchange at a time, and the counters count what is
recorded. -/
theorem tokens_bound_and_single_flighted (hreach : (machine p).Reach Machine.Any s) :
    (∀ result ∈ s.results, ∀ token, result.result = .ok token →
      Origin p s.exchanges result.context.id token) ∧
    (∀ call c, s.calls.get call = some c → c.phase = .exchanging →
      (∀ cached, s.cache.get c.context.id = some cached → cached.expiresAt ≤ s.now) ∧
        ∀ other d, s.calls.get other = some d → d.phase = .exchanging → other = call) ∧
    (s.health.consecutiveFailures.toNat = min (failuresSince some s.recorded) (UInt32.size - 1) ∧
      (s.health.lastError.isSome = true ↔ 0 < s.health.consecutiveFailures)) ∧
    ∀ l t, next p s l = some t → TokenStep p s t l := by
  have hinv := inv_of_reach hreach
  refine ⟨hinv.results, ?_, ⟨hinv.failures, hinv.lastError⟩, fun l t hn =>
    tokenStep hinv (effect_of_next hn)⟩
  intro call c hcall hexchanging
  have hok := hinv.calls call c hcall
  refine ⟨cached_eq_none.mp (hok.stale hexchanging), ?_⟩
  intro other d hother hexchanging'
  by_contra hne
  exact hok.alone (by rw [hexchanging]; rfl) other hne
    ((hinv.calls other d hother).locked (by rw [hexchanging']; rfl))

end Step

/-- Four fifths of a lease. -/
def exchangeProvider : ExchangingTokenProvider where
  vaultUrl := "http://vault:8200"
  exchangeUrl := "http://sts"
  audience := "vault"
  scope := "vault"
  subjectTokenFilePath := "/token"
  role := "provisioner"
  validSecs leaseDuration := leaseDuration.toNat * 4 / 5

example : new { RenewingTokenProvider.credentialsConfig with
    authConfig :=
  .tokenExchange "/token" "http://sts" "vault" "vault" none } exchangeProvider.validSecs =
      .ok exchangeProvider := rfl

def idle : State := ⟨HashMap.empty, {}, none, HashMap.empty, 0, [], [], []⟩

def firstCall : List Label :=
  [.token 0 { id := "ctx-1" }, .read 0, .lock 0, .check 0,
    .acquire 0 ⟨RenewingTokenProvider.hourly, .text "sa"⟩, .tick 5, .record 0]

def servedState : State := (machine exchangeProvider).final (fun _ _ _ => true) idle firstCall

theorem first_call_served : Origin exchangeProvider servedState.exchanges "ctx-1" "hvs.1" := by
  have hpath : (machine exchangeProvider).Path Machine.Any idle firstCall servedState :=
    Machine.path_final (fun _ _ _ _ => trivial) (by decide)
  have hserved : servedState.results = [⟨0, { id := "ctx-1" }, .ok "hvs.1"⟩] := rfl
  have hreach : (machine exchangeProvider).Reach Machine.Any servedState :=
    ⟨idle, firstCall, ⟨rfl, rfl, rfl, rfl, rfl, rfl, rfl⟩, hpath⟩
  refine (tokens_bound_and_single_flighted hreach).1 ⟨0, { id := "ctx-1" }, .ok "hvs.1"⟩
    ?_ "hvs.1" rfl
  rw [hserved]
  exact List.mem_cons_self

end ExchangingTokenProvider
end Facet.Vault
