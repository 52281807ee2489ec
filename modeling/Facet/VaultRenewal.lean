import Facet.VaultAuth
import Facet.Machine
import Facet.Streak

/-!
# Renewal of the Vault token

`RenewingTokenProvider` logs in once and starts `renewal_loop`, the only writer of the client
state. The loop is a machine whose steps are the await points of the source: the trigger or the
shutdown signal, the answer to renew-self, and the second log in. The events of a run are kept,
newest first.
-/
namespace Facet.Vault

structure VaultClientState where
  token : String
  lastCreated : ℤ
  lastRenewed : Option ℤ := none
  leaseDuration : UInt64
  lastError : Option String := none
  consecutiveFailures : UInt32 := 0
  healthThreshold : UInt32
  deriving DecidableEq, Repr

namespace VaultClientState

/-- The assertions that the tests compile. -/
def validate (state : VaultClientState) : Bool :=
  !state.token.isEmpty && decide (0 < state.leaseDuration) && decide (0 < state.healthThreshold) &&
    state.lastRenewed.all fun renewed => decide (state.lastCreated ≤ renewed)

def recordRenewalError (state : VaultClientState) (error : VaultError) : VaultClientState :=
  { state with
    consecutiveFailures := state.consecutiveFailures + 1, lastError := some error.message }

def updateOnSuccess (state : VaultClientState) (now : ℤ) : VaultClientState :=
  { state with lastRenewed := some now, consecutiveFailures := 0, lastError := none }

/-- The new token of `handle_token_expiration`. -/
def replaceToken (state : VaultClientState) (auth : AuthInfo) (now : ℤ) : VaultClientState :=
  { state with
    token := auth.clientToken
    leaseDuration := auth.leaseDuration
    lastCreated := now
    lastRenewed := none
    consecutiveFailures := 0
    lastError := none }

end VaultClientState

def contains (pattern body : String) : Bool := decide (pattern.toList <:+: body.toList)

def isAuthenticationError : VaultError → Bool
  | .authenticationError _ => true
  | _ => false

/-- `ε` is what a call of the authentication client meets. -/
structure TokenRenewer (ε : Type) where
  authenticate : ε → Except VaultError AuthInfo
  vaultUrl : String
  maxConsecutiveFailures : UInt32 := 10

namespace TokenRenewer
variable {ε : Type} (r : TokenRenewer ε)

def renewToken (send : HttpRequest → Except String HttpResponse) (token : String)
    (leaseDuration : UInt64) : Except VaultError Unit := do
  let request : HttpRequest :=
    { method := .post
      url := r.vaultUrl ++ "/v1/auth/token/renew-self"
      vaultToken := token
      json := some (.object [("increment", .string (toString leaseDuration ++ "s"))]) }
  let response ← (send request).mapError fun e =>
    VaultError.networkError ("Failed to renew token: " ++ e)
  if response.isSuccess = false then
    let body := response.text.getD ""
    let message := "Token renewal failed with status " ++ response.statusText ++ ": " ++ body
    -- an expired token is told by the text, whatever the status
    if contains "invalid token" body || contains "permission denied" body then
      throw (.authenticationError message)
    else
      throw (match response.status with
        | 403 => .permissionDenied message
        | _ => .networkError message)
  return ()

/-! ## The loop -/

inductive Phase
  | top
  | waiting (lastTtl : UInt64) (consecutiveFailures : UInt32)
  | renewing (token : String) (leaseDuration : UInt64)
  | authenticating
  | stopped
  deriving DecidableEq, Repr

inductive Event
  | triggerFailed (error : VaultError)
  | renewSelf (result : Except VaultError Unit)
  | authenticated (result : Except VaultError AuthInfo)

structure State where
  phase : Phase
  client : VaultClientState
  now : ℤ
  events : List Event

inductive Label (ε : Type)
  | check
  | trigger (result : Except VaultError Unit)
  | shutdown (signal : Bool)
  | response (send : HttpRequest → Except String HttpResponse)
  | authenticate (env : ε)
  | tick (later : ℤ)
  | abort

def next (s : State) : Label ε → Option State
  | .check =>
    match s.phase with
    | .top =>
      if r.maxConsecutiveFailures ≤ s.client.consecutiveFailures then
        some { s with phase := .stopped }
      else some { s with phase := .waiting s.client.leaseDuration s.client.consecutiveFailures }
    | _ => none
  | .trigger result =>
    match s.phase with
    | .waiting lastTtl _ =>
      match result with
      | .ok _ => some { s with phase := .renewing s.client.token lastTtl }
      | .error e => some { s with
          phase := .stopped
          client := s.client.recordRenewalError e
          events := .triggerFailed e :: s.events }
    | _ => none
  | .shutdown signal =>
    match s.phase with
    | .waiting _ _ => some { s with phase := if signal then .stopped else .top }
    | _ => none
  | .response send =>
    match s.phase with
    | .renewing token leaseDuration =>
      match r.renewToken send token leaseDuration with
      | .ok _ => some { s with
          phase := .top
          client := s.client.updateOnSuccess s.now
          events := .renewSelf (.ok ()) :: s.events }
      | .error e =>
        if isAuthenticationError e then
          some { s with phase := .authenticating, events := .renewSelf (.error e) :: s.events }
        else some { s with
          phase := .top
          client := s.client.recordRenewalError e
          events := .renewSelf (.error e) :: s.events }
    | _ => none
  | .authenticate env =>
    match s.phase with
    | .authenticating =>
      match r.authenticate env with
      | .ok auth => some { s with
          phase := .top
          client := s.client.replaceToken auth s.now
          events := .authenticated (.ok auth) :: s.events }
      | .error e => some { s with
          phase := .top
          client := s.client.recordRenewalError e
          events := .authenticated (.error e) :: s.events }
    | _ => none
  | .tick later => if s.now ≤ later then some { s with now := later } else none
  | .abort => some { s with phase := .stopped }

/-- The client state as `RenewingTokenProvider::new` builds it, at any time before the loop
starts. -/
structure Started (s : State) : Prop where
  phase : s.phase = .top
  events : s.events = []
  client : ∃ token leaseDuration healthThreshold created, created ≤ s.now ∧
    s.client = { token, lastCreated := created, leaseDuration, healthThreshold }

def renewalLoop : Machine State (Label ε) where
  init := Started
  next := next r

/-! ## What a step can do -/

/-- An attempt ends with one of these; an expired token does not end it. -/
def Event.failed : Event → Option Bool
  | .triggerFailed _ => some true
  | .renewSelf (.ok _) => some false
  | .renewSelf (.error e) => if isAuthenticationError e then none else some true
  | .authenticated (.ok _) => some false
  | .authenticated (.error _) => some true

/-- An attempt is waited for or under way. -/
def Phase.attempting : Phase → Bool
  | .waiting _ _ => true
  | .renewing _ _ => true
  | .authenticating => true
  | .top => false
  | .stopped => false

inductive Effect (r : TokenRenewer ε) (s : State) : Label ε → State → Prop
  | halted {l : Label ε} : Effect r s l { s with phase := .stopped }
  | passed {later : ℤ} (monotone : s.now ≤ later) : Effect r s (.tick later) { s with now := later }
  | asked (below : s.client.consecutiveFailures < r.maxConsecutiveFailures) (top : s.phase = .top) :
    Effect r s .check { s with
      phase := .waiting s.client.leaseDuration s.client.consecutiveFailures }
  | woken {lastTtl : UInt64} {failures : UInt32} (waiting : s.phase = .waiting lastTtl failures) :
    Effect r s (.shutdown false) { s with phase := .top }
  | triggered {lastTtl : UInt64} {failures : UInt32}
      (waiting : s.phase = .waiting lastTtl failures) :
    Effect r s (.trigger (.ok ())) { s with phase := .renewing s.client.token lastTtl }
  | broken {e : VaultError} (attempting : s.phase.attempting = true) :
    Effect r s (.trigger (.error e))
      { s with
        phase := .stopped, client := s.client.recordRenewalError e, events :=
          .triggerFailed e :: s.events }
  | renewed {send : HttpRequest → Except String HttpResponse} {token : String}
      {leaseDuration : UInt64} (renewing : s.phase = .renewing token leaseDuration)
      (ok : r.renewToken send token leaseDuration = .ok ()) :
    Effect r s (.response send)
      { s with
        phase := .top, client := s.client.updateOnSuccess s.now, events :=
          .renewSelf (.ok ()) :: s.events }
  | expired {send : HttpRequest → Except String HttpResponse} {token message : String}
      {leaseDuration : UInt64} (renewing : s.phase = .renewing token leaseDuration)
      (error : r.renewToken send token leaseDuration = .error (.authenticationError message)) :
    Effect r s (.response send)
      { s with
        phase := .authenticating, events :=
          .renewSelf (.error (.authenticationError message)) :: s.events }
  | refused {l : Label ε} {e : VaultError} {event : Event} (attempting : s.phase.attempting = true)
      (failed : event.failed = some true) (trigger : ∀ e', event ≠ .triggerFailed e')
      (authenticated : ∀ result, event = .authenticated result → s.phase = .authenticating) :
    Effect r s l { s with phase := .top, client := s.client.recordRenewalError e,
                          events := event :: s.events }
  | replaced {env : ε} {auth : AuthInfo} (authenticating : s.phase = .authenticating)
      (ok : r.authenticate env = .ok auth) :
    Effect r s (.authenticate env)
      { s with
        phase := .top
        client := s.client.replaceToken auth s.now
        events := .authenticated (.ok auth) :: s.events }

variable {r}

theorem isAuthenticationError_iff {e : VaultError} :
    isAuthenticationError e = true ↔ ∃ message, e = .authenticationError message := by
  cases e <;> simp [isAuthenticationError]

theorem effect_of_next {s t : State} {l : Label ε} (hn : next r s l = some t) : Effect r s l t := by
  cases l with
  | check =>
    simp only [next] at hn
    split at hn
    · rename_i htop
      split_ifs at hn with hmax
      · exact Option.some.inj hn ▸ Effect.halted
      · exact Option.some.inj hn ▸ Effect.asked (UInt32.not_le.mp hmax) htop
    · exact absurd hn (by simp)
  | trigger result =>
    simp only [next] at hn
    split at hn
    · rename_i lastTtl failures hwaiting
      cases result with
      | ok u => exact Option.some.inj hn ▸ Effect.triggered hwaiting
      | error e =>
        obtain rfl := Option.some.inj hn
        exact Effect.broken (hwaiting ▸ rfl)
    · exact absurd hn (by simp)
  | shutdown signal =>
    simp only [next] at hn
    split at hn
    · rename_i lastTtl failures hwaiting
      cases signal with
      | true => exact Option.some.inj hn ▸ Effect.halted
      | false => exact Option.some.inj hn ▸ Effect.woken hwaiting
    · exact absurd hn (by simp)
  | response send =>
    simp only [next] at hn
    split at hn
    · rename_i token leaseDuration hrenewing
      have hattempting : s.phase.attempting = true := hrenewing ▸ rfl
      cases hresult : r.renewToken send token leaseDuration with
      | ok u =>
        simp only [hresult, Option.some.injEq] at hn
        exact hn ▸ Effect.renewed hrenewing hresult
      | error e =>
        simp only [hresult] at hn
        split_ifs at hn with hauth
        · obtain ⟨message, rfl⟩ := isAuthenticationError_iff.mp hauth
          exact Option.some.inj hn ▸ Effect.expired hrenewing hresult
        · obtain rfl := Option.some.inj hn
          exact Effect.refused hattempting (by simp [Event.failed, hauth]) (by simp) (by simp)
    · exact absurd hn (by simp)
  | authenticate env =>
    simp only [next] at hn
    split at hn
    · rename_i hauthenticating
      have hattempting : s.phase.attempting = true := hauthenticating ▸ rfl
      cases hresult : r.authenticate env with
      | ok auth =>
        simp only [hresult, Option.some.injEq] at hn
        exact hn ▸ Effect.replaced hauthenticating hresult
      | error e =>
        simp only [hresult, Option.some.injEq] at hn
        subst hn
        exact Effect.refused hattempting rfl (by simp) fun _ _ => hauthenticating
    · exact absurd hn (by simp)
  | tick later =>
    simp only [next] at hn
    split_ifs at hn with hlater
    exact Option.some.inj hn ▸ Effect.passed hlater
  | abort => exact Option.some.inj hn ▸ Effect.halted

/-! ## The bookkeeping -/

def TriggerFailed (events : List Event) : Prop := ∃ e, Event.triggerFailed e ∈ events

/-- Renew-self has just failed with an `AuthenticationError`. -/
def Expired (events : List Event) : Prop :=
  ∃ message earlier, events = .renewSelf (.error (.authenticationError message)) :: earlier

/-- What is said of a state. -/
structure Bookkept (r : TokenRenewer ε) (s : State) : Prop where
  failures : s.client.consecutiveFailures.toNat = failuresSince Event.failed s.events
  bounded : s.client.consecutiveFailures ≤ r.maxConsecutiveFailures
  lastError : s.client.lastError.isSome = true ↔ 0 < s.client.consecutiveFailures
  lastRenewed : ∀ renewed, s.client.lastRenewed = some renewed → s.client.lastCreated ≤ renewed
  attempting : s.phase.attempting = true →
    s.client.consecutiveFailures < r.maxConsecutiveFailures ∧ ¬TriggerFailed s.events

/-- The fields that belong to the token. -/
def SameToken (a b : VaultClientState) : Prop :=
  a.token = b.token ∧ a.leaseDuration = b.leaseDuration ∧ a.lastCreated = b.lastCreated

/-- What is said of a step; an event is an outcome of the attempt under way. -/
structure BookkeptStep (r : TokenRenewer ε) (s t : State) : Prop where
  kept : t.client ≠ s.client → ∃ event, t.events = event :: s.events ∧ event.failed ≠ none
  replaced : ¬SameToken s.client t.client → ∃ auth, t.events = .authenticated (.ok auth) :: s.events
  authenticated : ∀ result, t.events = .authenticated result :: s.events → Expired s.events
  failed : ∀ event, t.events = event :: s.events → event.failed = some true →
    SameToken s.client t.client ∧ t.client.lastRenewed = s.client.lastRenewed
  attempted : ∀ event, t.events = event :: s.events →
    s.client.consecutiveFailures < r.maxConsecutiveFailures ∧ ¬TriggerFailed s.events

structure Inv (r : TokenRenewer ε) (s : State) : Prop extends Bookkept r s where
  created : s.client.lastCreated ≤ s.now
  expired : s.phase = .authenticating → Expired s.events
  stopped : TriggerFailed s.events → s.phase = .stopped

section Step
variable {s t : State}

theorem SameToken.refl (a : VaultClientState) : SameToken a a := ⟨rfl, rfl, rfl⟩

theorem not_triggerFailed_cons {event : Event} {events : List Event}
    (hevent : ∀ e, event ≠ .triggerFailed e) (hnot : ¬TriggerFailed events) :
    ¬TriggerFailed (event :: events) := by
  intro hfailed
  obtain ⟨e, he⟩ := hfailed
  rcases List.mem_cons.mp he with hhead | htail
  · exact hevent e hhead.symm
  · exact hnot ⟨e, htail⟩

/-- Below the maximum the increment does not wrap, and does not pass the maximum. -/
theorem toNat_succ_of_lt {n m : UInt32}
    (h : n < m) : (n + 1).toNat = n.toNat + 1 ∧ n + 1 ≤ m ∧ 0 < n + 1 := by
  have hm := m.toNat_lt
  have hlt : n.toNat < m.toNat := UInt32.lt_iff_toNat_lt.mp h
  have hsucc : (n + 1).toNat = n.toNat + 1 := by
    rw [UInt32.toNat_add]
    exact Nat.mod_eq_of_lt (by simp; omega)
  refine ⟨hsucc, UInt32.le_iff_toNat_le.mpr (by omega), UInt32.lt_iff_toNat_lt.mpr ?_⟩
  rw [hsucc]
  exact Nat.succ_pos _

theorem Inv.leave (h : Inv r s) {phase : Phase} (hphase : phase.attempting = false)
    (hstopped : TriggerFailed s.events → phase = .stopped) : Inv r { s with phase := phase } where
  failures := h.failures
  bounded := h.bounded
  lastError := h.lastError
  lastRenewed := h.lastRenewed
  attempting hattempting := absurd (hphase ▸ hattempting) (by simp)
  created := h.created
  expired hauthenticating := by
    obtain rfl : phase = .authenticating := hauthenticating
    exact absurd hphase (by simp [Phase.attempting])
  stopped := hstopped

theorem Inv.record (h : Inv r s) {phase : Phase} {e : VaultError} {event : Event}
    (hattempting : s.phase.attempting = true) (hfailed : event.failed = some true)
    (hphase : phase = .stopped ∨ phase = .top ∧ ∀ e', event ≠ .triggerFailed e') :
    Inv r { s with phase := phase, client := s.client.recordRenewalError e,
                   events := event :: s.events } := by
  obtain ⟨hbelow, hnot⟩ := h.attempting hattempting
  obtain ⟨hsucc, hle, hpos⟩ := toNat_succ_of_lt hbelow
  constructor
  · constructor
    · rw [failuresSince_failure hfailed, ← h.failures]
      exact hsucc
    · exact hle
    · exact iff_of_true rfl hpos
    · exact h.lastRenewed
    · intro hattempting'
      rcases hphase with rfl | ⟨rfl, -⟩
      · exact absurd hattempting' (by simp [Phase.attempting])
      · exact absurd hattempting' (by simp [Phase.attempting])
  · exact h.created
  · intro hauthenticating
    rcases hphase with rfl | ⟨rfl, -⟩
    · exact absurd hauthenticating (by simp)
    · exact absurd hauthenticating (by simp)
  · intro htrigger
    rcases hphase with hstopped | ⟨-, hevent⟩
    · exact hstopped
    · exact absurd htrigger (not_triggerFailed_cons hevent hnot)

theorem Inv.succeed (h : Inv r s) {client : VaultClientState} {event : Event}
    (hattempting : s.phase.attempting = true) (hevent : event.failed = some false)
    (hfailures : client.consecutiveFailures = 0) (herror : client.lastError = none)
    (hcreated : client.lastCreated ≤ s.now)
    (hrenewed : ∀ renewed, client.lastRenewed = some renewed → client.lastCreated ≤ renewed) :
    Inv r { s with phase := .top, client := client, events := event :: s.events } := by
  have hnot := (h.attempting hattempting).2
  constructor
  · constructor
    · simp [hfailures, failuresSince_success hevent]
    · rw [hfailures]
      exact UInt32.zero_le
    · simp [hfailures, herror]
    · exact hrenewed
    · intro hattempting'
      exact absurd hattempting' (by simp [Phase.attempting])
  · exact hcreated
  · intro hauthenticating
    exact absurd hauthenticating (by simp)
  · intro htrigger
    refine absurd htrigger (not_triggerFailed_cons ?_ hnot)
    rintro e rfl
    exact absurd hevent (by simp [Event.failed])

theorem inv_step {l : Label ε} (h : Inv r s) (he : Effect r s l t) : Inv r t := by
  cases he with
  | halted => exact h.leave rfl fun _ => rfl
  | passed monotone =>
    exact { h with created := h.created.trans monotone }
  | asked below top =>
    refine { h with attempting := ?_, expired := by simp, stopped := ?_ }
    · intro _
      refine ⟨below, ?_⟩
      intro htrigger
      exact absurd (h.stopped htrigger) (by simp [top])
    · intro htrigger
      exact absurd (h.stopped htrigger) (by simp [top])
  | woken waiting =>
    refine h.leave rfl ?_
    intro htrigger
    exact absurd (h.stopped htrigger) (by simp [waiting])
  | triggered waiting =>
    refine { h with attempting := fun _ => h.attempting (waiting ▸ rfl), expired := by simp,
                    stopped := ?_ }
    intro htrigger
    exact absurd (h.stopped htrigger) (by simp [waiting])
  | broken attempting => exact h.record attempting rfl (Or.inl rfl)
  | renewed renewing ok =>
    refine h.succeed (renewing ▸ rfl) rfl rfl rfl h.created ?_
    intro renewed hrenewed
    obtain rfl := Option.some.inj hrenewed
    exact h.created
  | @expired send token message leaseDuration renewing error =>
    obtain ⟨hbelow, hnot⟩ := h.attempting (renewing ▸ rfl)
    have hnot' : ¬TriggerFailed (.renewSelf (.error (.authenticationError message)) :: s.events) :=
      not_triggerFailed_cons (by simp) hnot
    refine { h with
      failures := ?_
      attempting := fun _ => ⟨hbelow, hnot'⟩
      expired := fun _ => ⟨message, s.events, rfl⟩
      stopped := fun htrigger => absurd htrigger hnot' }
    rw [failuresSince_neither rfl]
    exact h.failures
  | refused attempting failed trigger
      authenticated => exact h.record attempting failed (Or.inr ⟨rfl, trigger⟩)
  | replaced authenticating ok =>
    refine h.succeed (authenticating ▸ rfl) rfl rfl rfl le_rfl ?_
    intro renewed hrenewed
    exact absurd hrenewed (by simp [VaultClientState.replaceToken])

theorem inv_of_reach (hreach : (renewalLoop r).Reach Machine.Any s) : Inv r s := by
  refine hreach.invariant (P := Inv r) ?_ fun a l b ha hn _ => inv_step ha (effect_of_next hn)
  intro s hinit
  obtain ⟨token, leaseDuration, healthThreshold, created, hcreated, hclient⟩ := hinit.client
  constructor
  · constructor
    · simp [hclient, hinit.events, failuresSince]
    · rw [hclient]
      exact UInt32.zero_le
    · simp [hclient]
    · simp [hclient]
    · simp [hinit.phase, Phase.attempting]
  · simpa [hclient] using hcreated
  · simp [hinit.phase]
  · simp [TriggerFailed, hinit.events]

/-- A step that ends an attempt, or finds the token expired. -/
theorem Inv.bookkept_of_event (h : Inv r s) {event : Event} (hevents : t.events = event :: s.events)
    (hattempting : s.phase.attempting = true) (hkept : event.failed = none → t.client = s.client)
    (htoken : SameToken s.client t.client ∨ ∃ auth, event = .authenticated (.ok auth))
    (hauthenticated : ∀ result, event = .authenticated result → s.phase = .authenticating)
    (hfailed : event.failed = some true → t.client.lastRenewed = s.client.lastRenewed) :
    BookkeptStep r s t where
  kept hchanged := ⟨event, hevents, fun hnone => hchanged (hkept hnone)⟩
  replaced hchanged := by
    rcases htoken with hsame | ⟨auth, rfl⟩
    · exact absurd hsame hchanged
    · exact ⟨auth, hevents⟩
  authenticated result hresult :=
    h.expired (hauthenticated result (List.cons.inj (hevents.symm.trans hresult)).1)
  failed event' hevent' hfailed' := by
    obtain rfl := (List.cons.inj (hevents.symm.trans hevent')).1
    rcases htoken with hsame | ⟨auth, rfl⟩
    · exact ⟨hsame, hfailed hfailed'⟩
    · exact absurd hfailed' (by simp [Event.failed])
  attempted _ _ := h.attempting hattempting

theorem bookkeptStep {l : Label ε} (h : Inv r s) (he : Effect r s l t) : BookkeptStep r s t := by
  cases he with
  | broken attempting =>
    exact h.bookkept_of_event rfl attempting (by simp [Event.failed]) (Or.inl
      (SameToken.refl _)) (by simp) fun _ => rfl
  | renewed renewing ok =>
    exact h.bookkept_of_event rfl (renewing
      ▸ rfl) (by simp [Event.failed]) (Or.inl (SameToken.refl _)) (by simp)
      (by simp [Event.failed])
  | expired renewing error =>
    exact h.bookkept_of_event rfl (renewing ▸ rfl) (fun _ => rfl) (Or.inl (SameToken.refl _))
      (by simp) fun _ => rfl
  | refused attempting failed trigger authenticated =>
    exact h.bookkept_of_event rfl attempting (by simp [failed]) (Or.inl (SameToken.refl _))
      authenticated fun _ => rfl
  | @replaced env auth authenticating ok =>
    exact h.bookkept_of_event rfl (authenticating ▸ rfl) (by simp [Event.failed])
      (Or.inr ⟨auth, rfl⟩)
      (fun _ _ => authenticating) (by simp [Event.failed])
  | _ =>
    have hsame : ∀ {event : Event}, s.events ≠ event :: s.events := by simp
    exact ⟨fun hchanged => absurd rfl hchanged, fun hchanged => absurd (SameToken.refl _) hchanged,
      fun _ hresult => absurd hresult hsame, fun _ hevent => absurd hevent hsame,
      fun _ hevent => absurd hevent hsame⟩

/-- The state of a renewing provider is kept in order over every run of the loop. -/
theorem renewal_bookkeeping (hreach : (renewalLoop r).Reach Machine.Any s) :
    Bookkept r s ∧ ∀ l t, next r s l = some t → BookkeptStep r s t := by
  have hinv := inv_of_reach hreach
  exact ⟨hinv.toBookkept, fun l t hn => bookkeptStep hinv (effect_of_next hn)⟩

end Step

/-- Vault cannot be reached. -/
def unreachedRenewer : TokenRenewer Unit where
  authenticate _ := .error (.networkError "connection refused")
  vaultUrl := "http://vault:8200"

def unreachedStart : State where
  phase := .top
  client := { token := "hvs.1", lastCreated := 0, leaseDuration := 3600, healthThreshold := 3 }
  now := 0
  events := []

def unreachedState : State :=
  (renewalLoop unreachedRenewer).final (fun _ _ _ => true) unreachedStart
    [.check, .trigger (.ok ()), .tick 30, .response fun _ => .error "connection refused"]

theorem unreached_bookkept : Bookkept unreachedRenewer unreachedState ∧
    unreachedState.client.consecutiveFailures = 1 := by
  have hpath : (renewalLoop unreachedRenewer).Path Machine.Any unreachedStart _ unreachedState :=
    Machine.path_final (fun _ _ _ _ => trivial) (by decide)
  refine ⟨(renewal_bookkeeping ⟨unreachedStart, _, ⟨rfl, rfl, ?_⟩, hpath⟩).1, by decide⟩
  exact ⟨"hvs.1", 3600, 3, 0, le_rfl, rfl⟩

end TokenRenewer
end Facet.Vault
