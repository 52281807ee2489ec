import Facet.Vault
import Facet.FlowCleanup
import Facet.TokenClient

/-!
# Signalling during a refresh

The record of one flow in `VaultTokenStore`. `get_token` reads it, takes the lock, reads it
again, calls the provider and updates it, where the update is a read and a write of the
vault. `on_started` saves the record and `cleanup_tokens` removes it, both without the lock.
Every request to the vault is a step, and any number of calls and events take their steps in
any order.
-/
namespace Facet.Vault.Race
open Client Siglet Renewable Lock

structure Setup (σ : Type) where
  store : VaultTokenStore σ
  api : TokenClientApi
  handler : SigletDataFlowHandler
  manager : JwtTokenManager

/-- Where a `get_token` stands. `updateReading` and `updateWriting` are the two requests of
`update_token`. -/
inductive Phase
  | fetching
  | checking (data : TokenData)
  | locking (endpoint : String)
  | refetching (endpoint : String)
  | rechecking (endpoint : String) (data : TokenData)
  | refreshing (endpoint : String) (request : RefreshRequest)
  | updateReading (endpoint : String) (refreshed : RefreshedTokenData)
  | updateWriting (endpoint : String) (refreshed : RefreshedTokenData) (current : VaultTokenRecord)
  | returning (result : TokenResult)

structure Call where
  owner : String
  phase : Phase

/-- Where an event of the flow stands. -/
inductive Handling
  | saving (data : TokenData)
  | revoking (flow : DataFlow)
  | removing (flow : DataFlow)

/-- What happened, newest first: `saved` and `removed` are events of the flow that changed the
record, `handled` is the end of any other. -/
inductive Event
  | refetched (call : ℕ) (data : TokenData)
  | answered (call : ℕ) (request : RefreshRequest) (refreshed : RefreshedTokenData)
  | updated (call : ℕ) (record : VaultTokenRecord)
  | got (call : ℕ) (result : Except TokenError TokenResult)
  | saved (data : TokenData)
  | removed
  | handled (result : Except HandlerError Unit)

def Event.isSignal : Event → Bool
  | .saved _ | .removed => true
  | _ => false

structure State (σ : Type) where
  vault : σ
  renewable : InnerStore
  locks : LockTable
  now : ℤ
  calls : HashMap ℕ Call
  events : HashMap ℕ Handling
  pendingUnlocks : List String
  history : List Event
  nextId : ℕ

/-- `otherFlows` is whatever other events do to the renewable-token store. -/
inductive Label
  | getToken (owner : String)
  | onStarted (now : ℤ) (flow : DataFlow)
  | cleanup (flow : DataFlow)
  | step (call : ℕ)
  | answered (call : ℕ) (result : Except TokenError RefreshedTokenData)
  | handle (event : ℕ)
  | otherFlows (renewable : InnerStore)
  | unlock (owner : String)
  | tick (elapsed : ℕ)

section Steps
variable {σ : Type}

namespace State

def log (s : State σ) (ev : Event) : State σ := { s with history := ev :: s.history }

def goto (s : State σ) (c : ℕ) (owner : String) (phase : Phase) : State σ :=
  { s with calls := s.calls.insert c ⟨owner, phase⟩ }

/-- The call returns without a guard in scope. -/
def finish (s : State σ) (c : ℕ) (result : Except TokenError TokenResult) : State σ :=
  { s with calls := s.calls.remove c, history := .got c result :: s.history }

/-- The call returns and drops its guard. -/
def leave (s : State σ) (c : ℕ) (owner : String)
    (result : Except TokenError TokenResult) : State σ :=
  { s.finish c result with pendingUnlocks := owner :: s.pendingUnlocks }

def handling (s : State σ) (e : ℕ) (h : Handling) : State σ :=
  { s with events := s.events.insert e h }

def handled (s : State σ) (e : ℕ) (ev : Event) : State σ :=
  { s with events := s.events.remove e, history := ev :: s.history }

end State

variable (setup : Setup σ)

/-- One step of call `c`; a call that waits for the refresh endpoint takes none by itself. -/
def stepCall (s : State σ) (c : ℕ) (owner : String) : Phase → Option (State σ)
  | .fetching =>
    let (found, vault) := setup.store.getToken setup.api.pc setup.api.identifier s.vault
    match found with
    | .ok data => some ({ s with vault := vault }.goto c owner (.checking data))
    | .error e => some ({ s with vault := vault }.finish c (.error e))
  | .checking data =>
    if setup.api.isValid s.now data then some (s.finish c (.ok ⟨data.token, data.endpoint⟩))
    else some (s.goto c owner (.locking data.endpoint))
  | .locking endpoint =>
    let (acquired, locks) := lock setup.api.lockTimeout s.now s.locks setup.api.identifier owner
    match acquired with
    | .ok _ => some ({ s with locks := locks }.goto c owner (.refetching endpoint))
    | .error e => some ({ s with locks := locks }.finish c (.error (TokenClientApi.lockFailure e)))
  | .refetching endpoint =>
    let (found, vault) := setup.store.getToken setup.api.pc setup.api.identifier s.vault
    match found with
    | .ok data =>
      some (({ s with vault := vault }.log (.refetched c data)).goto c owner
        (.rechecking endpoint data))
    | .error e => some ({ s with vault := vault }.leave c owner (.error e))
  | .rechecking endpoint data =>
    if setup.api.isValid s.now data then some (s.leave c owner (.ok ⟨data.token, endpoint⟩))
    else some (s.goto c owner (.refreshing endpoint (setup.api.refreshRequest data)))
  | .refreshing _ _ => none
  | .updateReading endpoint refreshed =>
    let (found, vault) :=
      setup.store.readRecord { id := setup.api.pc.id } setup.api.identifier s.vault
    match found with
    | .ok current =>
      some ({ s with vault := vault }.goto c owner (.updateWriting endpoint refreshed current))
    | .error e => some ({ s with vault := vault }.leave c owner (.error e))
  | .updateWriting endpoint refreshed current =>
    let record := current.refresh refreshed
    let (written, vault) :=
      setup.store.writeRecord { id := setup.api.pc.id } setup.api.identifier record s.vault
    match written with
    | .ok () => some (({ s with vault := vault }.log (.updated c record)).goto c owner
        (.returning ⟨refreshed.token, endpoint⟩))
    | .error e => some ({ s with vault := vault }.leave c owner (.error e))
  | .returning result => some (s.leave c owner (.ok result))

/-- One step of an event: the save of `on_started`, the revocation and the removal of
`cleanup_tokens`. -/
def stepEvent (s : State σ) (e : ℕ) : Handling → State σ
  | .saving data =>
    let (saved, vault) := setup.store.saveToken data s.vault
    match saved with
    | .ok () => { s with vault := vault }.handled e (.saved data)
    | .error err => { s with vault := vault }.handled e
        (.handled (.error (.generic ("Failed to save token: " ++ err.message))))
  | .revoking flow =>
    let (revoked, renewable) :=
      setup.manager.revokeToken s.renewable (buildParticipantContext flow) flow.id
    match revoked with
    | .ok () => { s with renewable := renewable }.handled e (.handled (.ok ()))
    | .error (.tokenNotFound _) => { s with renewable := renewable }.handling e (.removing flow)
    | .error err => { s with renewable := renewable }.handled e
        (.handled (.error (.generic ("Failed to revoke token: " ++ err.message))))
  | .removing flow =>
    let (removed, vault) :=
      setup.store.removeToken (buildParticipantContext flow).id flow.id s.vault
    match removed with
    | .ok () => { s with vault := vault }.handled e .removed
    | .error err => { s with vault := vault }.handled e
        (.handled (.error (.generic ("Failed to remove token: " ++ err.message))))

/-- The flow whose record the calls are about. -/
def Setup.Concerns (flow : DataFlow) : Prop :=
  flow.participantContextId = setup.api.pc.id ∧ flow.id = setup.api.identifier

instance (flow : DataFlow) : Decidable (setup.Concerns flow) := instDecidableAnd

def next (s : State σ) : Label → Option (State σ)
  | .getToken owner => some { s.goto s.nextId owner .fetching with nextId := s.nextId + 1 }
  | .onStarted now flow =>
    if setup.Concerns flow then
      match setup.handler.startedData now flow with
      | .error e => some (s.log (.handled (.error e)))
      | .ok none => some (s.log (.handled (.ok ())))
      | .ok (some data) => some { s.handling s.nextId (.saving data) with nextId := s.nextId + 1 }
    else none
  | .cleanup flow =>
    if setup.Concerns flow then
      some { s.handling s.nextId (.revoking flow) with nextId := s.nextId + 1 }
    else none
  | .step c =>
    match s.calls.get c with
    | some call => stepCall setup s c call.owner call.phase
    | none => none
  | .answered c result =>
    match s.calls.get c with
    | some ⟨owner, .refreshing endpoint request⟩ =>
      match result with
      | .ok refreshed =>
        some ((s.log (.answered c request refreshed)).goto c owner
          (.updateReading endpoint refreshed))
      | .error e => some (s.leave c owner (.error e))
    | _ => none
  | .handle e =>
    match s.events.get e with
    | some handling => some (stepEvent setup s e handling)
    | none => none
  | .otherFlows renewable => some { s with renewable := renewable }
  | .unlock owner =>
    if owner ∈ s.pendingUnlocks then
      some { s with
        locks := (unlock s.locks setup.api.identifier owner).2
        pendingUnlocks := s.pendingUnlocks.erase owner }
    else none
  | .tick elapsed => some { s with now := s.now + elapsed }

/-- Nothing is under way yet; the vault, the locks and the renewable tokens may be anything. -/
def machine : Machine (State σ) Label where
  init s :=
    s.calls = HashMap.empty ∧ s.events = HashMap.empty ∧ s.pendingUnlocks = [] ∧ s.history = []
  next := next setup

end Steps

/-! ## What the vault is assumed to do with one secret -/

/-- The secret of one record: a request that succeeds has its effect and one that fails has none. -/
structure Register {σ : Type} (store : VaultTokenStore σ) (pc identifier : String) where
  secret : σ → Option String
  resolve_keeps : ∀ (context : ParticipantContext) (v : σ), context.id = pc →
    secret (store.vaultClient.resolveSecret context (store.key identifier) v).2 = secret v
  resolve_ok : ∀ (context : ParticipantContext) (v : σ) (json : String), context.id = pc →
    (store.vaultClient.resolveSecret context (store.key identifier) v).1 = .ok json →
      secret v = some json
  store_ok : ∀ (context : ParticipantContext) (v : σ) (json : String), context.id = pc →
    (store.vaultClient.storeSecret context (store.key identifier) json v).1 = .ok () →
    secret (store.vaultClient.storeSecret context (store.key identifier) json v).2 = some json
  store_error : ∀ (context : ParticipantContext) (v : σ) (json : String) (e : VaultError),
    context.id = pc →
    (store.vaultClient.storeSecret context (store.key identifier) json v).1 = .error e →
    secret (store.vaultClient.storeSecret context (store.key identifier) json v).2 = secret v
  remove_ok : ∀ (context : ParticipantContext) (v : σ), context.id = pc →
    (store.vaultClient.removeSecret context (store.key identifier) v).1 = .ok () →
    secret (store.vaultClient.removeSecret context (store.key identifier) v).2 = none
  remove_error : ∀ (context : ParticipantContext) (v : σ) (e : VaultError), context.id = pc →
    (store.vaultClient.removeSecret context (store.key identifier) v).1 = .error e →
    secret (store.vaultClient.removeSecret context (store.key identifier) v).2 = secret v
  /-- A record is read back from the JSON it was written as. -/
  codec : ∀ record json, store.toJson record = .ok json → store.fromJson json = .ok record

namespace Register
variable {σ : Type} {store : VaultTokenStore σ} {pc identifier : String}
  (reg : Register store pc identifier)

def record (v : σ) : Option VaultTokenRecord :=
  (reg.secret v).bind fun json => (store.fromJson json).toOption

theorem secret_readRecord (context : ParticipantContext) (hcontext : context.id = pc) (v : σ) :
    reg.secret (store.readRecord context identifier v).2 = reg.secret v :=
  reg.resolve_keeps context v hcontext

theorem record_of_readRecord (context : ParticipantContext) (hcontext : context.id = pc) {v : σ}
    {found : VaultTokenRecord} (hread : (store.readRecord context identifier v).1 = .ok found) :
    reg.record v = some found := by
  obtain ⟨json, hjson, hfound⟩ := bind_eq_ok.mp hread
  have hsecret := reg.resolve_ok context v json hcontext (mapError_eq_ok.mp hjson)
  have hparse : store.fromJson json = .ok found := mapError_eq_ok.mp hfound
  simp only [record, hsecret, Option.bind_some, hparse]
  rfl

theorem getToken_keeps (context : ParticipantContext) (hcontext : context.id = pc) (v : σ) :
    reg.secret (store.getToken context identifier v).2 = reg.secret v :=
  reg.resolve_keeps context v hcontext

theorem record_of_getToken (context : ParticipantContext) (hcontext : context.id = pc) {v : σ}
    {data : TokenData} (hget : (store.getToken context identifier v).1 = .ok data) :
    ∃ found, reg.record v = some found ∧ data = found.data pc identifier := by
  unfold VaultTokenStore.getToken at hget
  cases hread : (store.readRecord context identifier v).1 with
  | error e =>
    simp only [hread] at hget
    exact absurd hget (by simp [Except.map])
  | ok found =>
    simp only [hread] at hget
    refine ⟨found, reg.record_of_readRecord context hcontext hread, ?_⟩
    rw [← hcontext]
    exact (Except.ok.inj hget).symm

theorem record_of_writeRecord (context : ParticipantContext) (hcontext : context.id = pc) {v : σ}
    {written : VaultTokenRecord}
    (hwrite : (store.writeRecord context identifier written v).1 = .ok ()) :
    reg.record (store.writeRecord context identifier written v).2 = some written := by
  unfold VaultTokenStore.writeRecord at hwrite ⊢
  cases hjson : store.serialize written with
  | error e =>
    simp only [hjson] at hwrite
    exact absurd hwrite (by simp)
  | ok json =>
    simp only [hjson] at hwrite ⊢
    have hparse := reg.codec written json (mapError_eq_ok.mp hjson)
    have hsecret := reg.store_ok context v json hcontext (mapError_eq_ok.mp hwrite)
    simp only [record, hsecret, Option.bind_some, hparse]
    rfl

theorem secret_of_writeRecord_error (context : ParticipantContext) (hcontext : context.id = pc)
    {v : σ} {written : VaultTokenRecord} {e : TokenError}
    (hwrite : (store.writeRecord context identifier written v).1 = .error e) :
    reg.secret (store.writeRecord context identifier written v).2 = reg.secret v := by
  unfold VaultTokenStore.writeRecord at hwrite ⊢
  cases hjson : store.serialize written with
  | error e => rfl
  | ok json =>
    simp only [hjson] at hwrite ⊢
    cases hstore : (store.vaultClient.storeSecret context (store.key identifier) json v).1 with
    | error e' => exact reg.store_error context v json e' hcontext hstore
    | ok u =>
      rw [hstore] at hwrite
      exact absurd hwrite (by simp [Except.mapError])

theorem secret_of_removeToken {participantContext : String} (hpc : participantContext = pc) {v : σ}
    (hremove : (store.removeToken participantContext identifier v).1 = .ok ()) :
    reg.secret (store.removeToken participantContext identifier v).2 = none :=
  reg.remove_ok { id := participantContext } v hpc (mapError_eq_ok.mp hremove)

theorem secret_of_removeToken_error {participantContext : String} (hpc : participantContext = pc)
    {v : σ} {e : TokenError}
    (hremove : (store.removeToken participantContext identifier v).1 = .error e) :
    reg.secret (store.removeToken participantContext identifier v).2 = reg.secret v := by
  unfold VaultTokenStore.removeToken at hremove ⊢
  cases hresult :
    (store.vaultClient.removeSecret { id := participantContext } (store.key identifier) v).1 with
  | error e' => exact reg.remove_error { id := participantContext } v e' hpc hresult
  | ok u =>
    simp only [hresult] at hremove
    exact absurd hremove (by simp [Except.mapError])

end Register

/-! ## What is kept -/

/-- The events since the last event of the flow that changed the record. -/
def since (history : List Event) : List Event := history.takeWhile fun ev => !ev.isSignal

/-- The records that come from the saved one by refreshes: each takes the answer to a request made
with such a record and keeps the other fields of such a record. -/
inductive Derived (api : TokenClientApi) (events : List Event) (saved : VaultTokenRecord) :
    VaultTokenRecord → Prop
  | saved : Derived api events saved saved
  | refreshed {used current : VaultTokenRecord} {c : ℕ} {refreshed : RefreshedTokenData}
      (hused : Derived api events saved used) (hcurrent : Derived api events saved current)
      (hanswer : .answered c (api.refreshRequest (used.data api.pc.id api.identifier)) refreshed ∈
        events) :
      Derived api events saved (current.refresh refreshed)

section Property
variable {σ : Type} (setup : Setup σ)
  (reg : Register setup.store setup.api.pc.id setup.api.identifier)

/-- A removed record is absent, and a saved one is replaced only by what was derived from it
since. -/
structure Kept (s : State σ) : Prop where
  removed : s.history.find? Event.isSignal = some .removed → reg.secret s.vault = none
  saved : ∀ data, s.history.find? Event.isSignal = some (.saved data) →
    ∃ record, reg.record s.vault = some record ∧
      Derived setup.api (since s.history) (vaultRecord data) record

/-- The record has not been saved or removed since the call re-fetched it. -/
def Current (s : State σ) (c : ℕ) : Prop := ∃ data, .refetched c data ∈ since s.history

/-- A refresh writes its update only if the record has not been saved or removed since it re-fetched
it. -/
def CurrentWrites (s : State σ) (l : Label) (_ : State σ) : Prop :=
  ∀ c owner endpoint refreshed current, l = .step c →
    s.calls.get c = some ⟨owner, .updateWriting endpoint refreshed current⟩ → Current s c

/-- What a call has in hand comes from the saved record. -/
def Phase.Derives (api : TokenClientApi) (events : List Event) (saved : VaultTokenRecord)
    (c : ℕ) : Phase → Prop
  | .rechecking _ data =>
    ∃ used, Derived api events saved used ∧ data = used.data api.pc.id api.identifier
  | .refreshing _ request => ∃ used, Derived api events saved used ∧
      request = api.refreshRequest (used.data api.pc.id api.identifier)
  | .updateReading _ refreshed => ∃ used, Derived api events saved used ∧
      .answered c (api.refreshRequest (used.data api.pc.id api.identifier)) refreshed ∈ events
  | .updateWriting _ refreshed current =>
    Derived api events saved current ∧ ∃ used, Derived api events saved used ∧
      .answered c (api.refreshRequest (used.data api.pc.id api.identifier)) refreshed ∈ events
  | _ => True

/-- The event is about the record of the calls. -/
def Handling.Concerns : Handling → Prop
  | .saving data =>
    data.participantContext = setup.api.pc.id ∧ data.identifier = setup.api.identifier
  | .revoking flow | .removing flow => setup.Concerns flow

structure Inv (s : State σ) : Prop extends Kept setup reg s where
  unread : s.history.find? Event.isSignal = some .removed → ∀ c, ¬ Current s c
  derives : ∀ data, s.history.find? Event.isSignal = some (.saved data) →
    ∀ c call, s.calls.get c = some call →
    Current s c → call.phase.Derives setup.api (since s.history) (vaultRecord data) c
  concerned : ∀ e handling, s.events.get e = some handling → handling.Concerns setup

end Property

theorem Derived.mono {api : TokenClientApi} {events events' : List Event}
    {saved record : VaultTokenRecord} (h : Derived api events saved record)
    (hsub : events ⊆ events') : Derived api events' saved record := by
  induction h with
  | saved => exact .saved
  | refreshed _ _ hanswer ihused ihcurrent => exact .refreshed ihused ihcurrent (hsub hanswer)

theorem Phase.Derives.mono {api : TokenClientApi} {events events' : List Event}
    {saved : VaultTokenRecord} {c : ℕ} {phase : Phase} (h : phase.Derives api events saved c)
    (hsub : events ⊆ events') : phase.Derives api events' saved c := by
  cases phase with
  | rechecking endpoint data =>
    obtain ⟨used, hused, hdata⟩ := h
    exact ⟨used, hused.mono hsub, hdata⟩
  | refreshing endpoint request =>
    obtain ⟨used, hused, hrequest⟩ := h
    exact ⟨used, hused.mono hsub, hrequest⟩
  | updateReading endpoint refreshed =>
    obtain ⟨used, hused, hanswer⟩ := h
    exact ⟨used, hused.mono hsub, hsub hanswer⟩
  | updateWriting endpoint refreshed current =>
    obtain ⟨hcurrent, used, hused, hanswer⟩ := h
    exact ⟨hcurrent.mono hsub, used, hused.mono hsub, hsub hanswer⟩
  | _ => trivial

/-! ## Moves -/

/-- The phases in which a call has nothing in hand that it could write. -/
def Phase.bare : Phase → Bool
  | .fetching | .checking _ | .locking _ | .refetching _ | .returning _ => true
  | _ => false

theorem Phase.derives_of_bare {api : TokenClientApi} {events : List Event}
    {saved : VaultTokenRecord} {c : ℕ} {phase : Phase} (h : phase.bare = true) :
    phase.Derives api events saved c := by
  cases phase with
  | fetching | checking _ | locking _ | refetching _ | returning _ => trivial
  | rechecking _ _ | refreshing _ _ | updateReading _ _ | updateWriting _ _ _ =>
    exact absurd h (by simp [Phase.bare])

section Moves
variable {σ : Type} (setup : Setup σ)
  (reg : Register setup.store setup.api.pc.id setup.api.identifier)

/-- The new phase of call `d`, given the events of the step. -/
inductive Advance (s : State σ) (evs : List Event) (d : ℕ) : Phase → Prop
  | bare {phase : Phase} (h : phase.bare = true) : Advance s evs d phase
  | refetched {endpoint : String} {data : TokenData} (logged : .refetched d data ∈ evs) :
      Advance s evs d (.rechecking endpoint data)
  | rechecked {owner endpoint : String} {data : TokenData}
      (call : s.calls.get d = some ⟨owner, .rechecking endpoint data⟩) :
      Advance s evs d (.refreshing endpoint (setup.api.refreshRequest data))
  | answered {owner endpoint : String} {request : RefreshRequest} {refreshed : RefreshedTokenData}
      (call : s.calls.get d = some ⟨owner, .refreshing endpoint request⟩)
      (logged : .answered d request refreshed ∈ evs) :
      Advance s evs d (.updateReading endpoint refreshed)
  | read {owner endpoint : String} {refreshed : RefreshedTokenData} {current : VaultTokenRecord}
      (call : s.calls.get d = some ⟨owner, .updateReading endpoint refreshed⟩)
      (found : reg.record s.vault = some current) :
      Advance s evs d (.updateWriting endpoint refreshed current)

/-- What a step does to the record. -/
inductive Effect (s : State σ) (l : Label) (t : State σ) (evs : List Event) : Prop
  | quiet (secret : reg.secret t.vault = reg.secret s.vault)
      (plain : ∀ ev ∈ evs, ev.isSignal = false)
  | updated {c : ℕ} {owner endpoint : String} {refreshed : RefreshedTokenData}
      {current : VaultTokenRecord} (label : l = .step c)
      (call : s.calls.get c = some ⟨owner, .updateWriting endpoint refreshed current⟩)
      (record : reg.record t.vault = some (current.refresh refreshed))
      (plain : ∀ ev ∈ evs, ev.isSignal = false)
  | saved (data : TokenData) (record : reg.record t.vault = some (vaultRecord data))
      (logged : evs = [.saved data])
  | removed (secret : reg.secret t.vault = none) (logged : evs = [.removed])

structure Move (s : State σ) (l : Label) (t : State σ) (evs : List Event) : Prop where
  history : t.history = evs ++ s.history
  calls : ∀ d call, t.calls.get d = some call → s.calls.get d = some call ∨
    Advance setup reg s evs d call.phase
  refetched : ∀ d data, .refetched d data ∈ evs → ∃ found, reg.record s.vault = some found ∧
    data = found.data setup.api.pc.id setup.api.identifier ∧
    ∀ call, t.calls.get d = some call → ∃ endpoint, call.phase = .rechecking endpoint data
  events : ∀ e handling, t.events.get e = some handling → s.events.get e = some handling ∨
    handling.Concerns setup
  effect : Effect setup reg s l t evs

end Moves

section Invariant
variable {σ : Type} {setup : Setup σ}
  {reg : Register setup.store setup.api.pc.id setup.api.identifier}
  {s t : State σ} {l : Label} {evs : List Event}

theorem since_append (hplain : ∀ ev ∈ evs, ev.isSignal = false) (history : List Event) :
    since (evs ++ history) = evs ++ since history := by
  unfold since
  rw [List.takeWhile_append_of_pos]
  intro ev hev
  rw [hplain ev hev]
  rfl

theorem find_append (hplain : ∀ ev ∈ evs, ev.isSignal = false) (history : List Event) :
    (evs ++ history).find? Event.isSignal = history.find? Event.isSignal := by
  have hnone : evs.find? Event.isSignal = none := by
    rw [List.find?_eq_none]
    intro ev hev
    rw [hplain ev hev]
    exact Bool.false_ne_true
  rw [List.find?_append, hnone, Option.none_or]

theorem record_eq_of_secret (hsecret : reg.secret t.vault = reg.secret s.vault) :
    reg.record t.vault = reg.record s.vault := by
  unfold Register.record
  rw [hsecret]

theorem Kept.derived (h : Kept setup reg s) {data : TokenData}
    (hlast : s.history.find? Event.isSignal = some (.saved data)) {found : VaultTokenRecord}
    (hfound : reg.record s.vault = some found) :
    Derived setup.api (since s.history) (vaultRecord data) found := by
  obtain ⟨record, hrecord, hderived⟩ := h.saved data hlast
  rwa [Option.some.inj (hfound.symm.trans hrecord)]

theorem Move.current (hm : Move setup reg s l t evs) (hplain : ∀ ev ∈ evs, ev.isSignal = false)
    {c : ℕ} (hcurrent : Current t c) :
    Current s c ∨ ∃ data, .refetched c data ∈ evs := by
  obtain ⟨data, hdata⟩ := hcurrent
  rw [hm.history, since_append hplain, List.mem_append] at hdata
  rcases hdata with hnew | hold
  · exact Or.inr ⟨data, hnew⟩
  · exact Or.inl ⟨data, hold⟩

theorem Inv.derives_step (h : Inv setup reg s) (hm : Move setup reg s l t evs)
    (hplain : ∀ ev ∈ evs, ev.isSignal = false) {data : TokenData}
    (hlast : s.history.find? Event.isSignal = some (.saved data)) {c : ℕ} {call : Call}
    (hc : t.calls.get c = some call) (hcurrent : Current t c) :
    call.phase.Derives setup.api (since t.history) (vaultRecord data) c := by
  have hsince : since t.history = evs ++ since s.history := by rw [hm.history, since_append hplain]
  rw [hsince]
  by_cases hnew : ∃ read, .refetched c read ∈ evs
  · obtain ⟨read, hread⟩ := hnew
    obtain ⟨found, hfound, hdata, hphase⟩ := hm.refetched c read hread
    obtain ⟨endpoint, hphase⟩ := hphase call hc
    rw [hphase]
    exact ⟨found, (h.derived hlast hfound).mono (List.subset_append_right _ _), hdata⟩
  · have hbefore : Current s c := (hm.current hplain hcurrent).resolve_right hnew
    rcases hm.calls c call hc with hsame | hadvance
    · exact (h.derives data hlast c call hsame hbefore).mono (List.subset_append_right _ _)
    · obtain ⟨owner, phase⟩ := call
      cases hadvance with
      | bare hbare => exact Phase.derives_of_bare hbare
      | refetched hlogged => exact absurd ⟨_, hlogged⟩ hnew
      | rechecked hcall =>
        obtain ⟨used, hused, hdata⟩ := h.derives data hlast c _ hcall hbefore
        exact ⟨used, hused.mono (List.subset_append_right _ _),
          congrArg setup.api.refreshRequest hdata⟩
      | answered hcall hlogged =>
        obtain ⟨used, hused, hrequest⟩ := h.derives data hlast c _ hcall hbefore
        exact ⟨used, hused.mono (List.subset_append_right _ _),
          hrequest ▸ List.mem_append_left _ hlogged⟩
      | read hcall hfound =>
        obtain ⟨used, hused, hanswer⟩ := h.derives data hlast c _ hcall hbefore
        exact ⟨(h.derived hlast hfound).mono (List.subset_append_right _ _), used,
          hused.mono (List.subset_append_right _ _), List.mem_append_right _ hanswer⟩

theorem Inv.unread_step (h : Inv setup reg s) (hm : Move setup reg s l t evs)
    (hplain : ∀ ev ∈ evs, ev.isSignal = false)
    (hlast : s.history.find? Event.isSignal = some .removed) (c : ℕ) : ¬ Current t c := by
  intro hcurrent
  rcases hm.current hplain hcurrent with hbefore | ⟨data, hdata⟩
  · exact h.unread hlast c hbefore
  · obtain ⟨found, hfound, -⟩ := hm.refetched c data hdata
    rw [Register.record, h.removed hlast] at hfound
    exact absurd hfound (by simp)

theorem Inv.plain_step (h : Inv setup reg s) (hm : Move setup reg s l t evs)
    (hplain : ∀ ev ∈ evs, ev.isSignal = false) (hkept : Kept setup reg t) : Inv setup reg t where
  toKept := hkept
  unread := by
    intro hlast
    rw [hm.history, find_append hplain] at hlast
    exact h.unread_step hm hplain hlast
  derives := by
    intro data hlast c call hc hcurrent
    rw [hm.history, find_append hplain] at hlast
    exact h.derives_step hm hplain hlast hc hcurrent
  concerned := by
    intro e handling he
    rcases hm.events e handling he with hsame | hconcerns
    · exact h.concerned e handling hsame
    · exact hconcerns

theorem Inv.signal_step {ev : Event} (h : Inv setup reg s) (hm : Move setup reg s l t [ev])
    (hsignal : ev.isSignal = true) (hkept : Kept setup reg t) : Inv setup reg t := by
  have hnone : ∀ c, ¬ Current t c := by
    intro c hcurrent
    obtain ⟨data, hdata⟩ := hcurrent
    rw [hm.history, since, List.singleton_append,
      List.takeWhile_cons_of_neg (by simp [hsignal])] at hdata
    exact absurd hdata (by simp)
  refine ⟨hkept, fun _ => hnone, fun _ _ c _ _ hcurrent => absurd hcurrent (hnone c), ?_⟩
  intro e handling he
  rcases hm.events e handling he with hsame | hconcerns
  · exact h.concerned e handling hsame
  · exact hconcerns

theorem Inv.move (h : Inv setup reg s) (hm : Move setup reg s l t evs) (hok : CurrentWrites s l t) :
    Inv setup reg t := by
  cases hm.effect with
  | quiet hsecret hplain =>
    refine h.plain_step hm hplain ⟨?_, ?_⟩
    · intro hlast
      rw [hm.history, find_append hplain] at hlast
      rw [hsecret]
      exact h.removed hlast
    · intro data hlast
      rw [hm.history, find_append hplain] at hlast
      obtain ⟨record, hrecord, hderived⟩ := h.saved data hlast
      refine ⟨record, (record_eq_of_secret hsecret).trans hrecord, ?_⟩
      rw [hm.history, since_append hplain]
      exact hderived.mono (List.subset_append_right _ _)
  | @updated c owner endpoint refreshed current hlabel hcall hrecord hplain =>
    have hcurrent := hok c owner endpoint refreshed current hlabel hcall
    refine h.plain_step hm hplain ⟨?_, ?_⟩
    · intro hlast
      rw [hm.history, find_append hplain] at hlast
      exact absurd hcurrent (h.unread hlast c)
    · intro data hlast
      rw [hm.history, find_append hplain] at hlast
      obtain ⟨hderived, used, hused, hanswer⟩ := h.derives data hlast c _ hcall hcurrent
      refine ⟨_, hrecord, ?_⟩
      rw [hm.history, since_append hplain]
      exact (Derived.refreshed hused hderived hanswer).mono (List.subset_append_right _ _)
  | saved data hrecord hlogged =>
    subst hlogged
    refine h.signal_step hm rfl ⟨?_, ?_⟩
    · intro hlast
      rw [hm.history] at hlast
      exact absurd hlast (by simp [Event.isSignal])
    · intro data' hlast
      rw [hm.history] at hlast
      obtain rfl : data = data' := by simpa [Event.isSignal] using hlast
      exact ⟨_, hrecord, .saved⟩
  | removed hsecret hlogged =>
    subst hlogged
    refine h.signal_step hm rfl ⟨fun _ => hsecret, ?_⟩
    intro data hlast
    rw [hm.history] at hlast
    exact absurd hlast (by simp [Event.isSignal])

end Invariant
/-! ## Every step is a move -/

section NextMove
variable {σ : Type} {setup : Setup σ}
  {reg : Register setup.store setup.api.pc.id setup.api.identifier}
  {s t : State σ} {l : Label} {evs : List Event} {c : ℕ} {owner : String}

theorem move_goto {phase : Phase} (hcalls : t.calls = s.calls.insert c ⟨owner, phase⟩)
    (hevents : t.events = s.events) (hhistory : t.history = evs ++ s.history)
    (hadvance : Advance setup reg s evs c phase) (hread : ∀ d data, .refetched d data ∉ evs)
    (heffect : Effect setup reg s l t evs) : Move setup reg s l t evs where
  history := hhistory
  calls := by
    intro d call hd
    rw [hcalls] at hd
    rcases HashMap.get_insert_eq_some hd with ⟨rfl, rfl⟩ | ⟨-, hsame⟩
    · exact Or.inr hadvance
    · exact Or.inl hsame
  refetched := fun d data hlogged => absurd hlogged (hread d data)
  events := by
    intro e handling he
    rw [hevents] at he
    exact Or.inl he
  effect := heffect

theorem move_of_calls (hcalls : ∀ d call, t.calls.get d = some call → s.calls.get d = some call)
    (hevents : ∀ e handling, t.events.get e = some handling → s.events.get e = some handling ∨
      handling.Concerns setup)
    (hhistory : t.history = evs ++ s.history) (hread : ∀ d data, .refetched d data ∉ evs)
    (heffect : Effect setup reg s l t evs) : Move setup reg s l t evs :=
  ⟨hhistory, fun d call hd => Or.inl (hcalls d call hd),
    fun d data hlogged => absurd hlogged (hread d data), hevents, heffect⟩

theorem move_ended (result : Except TokenError TokenResult) (hcalls : t.calls = s.calls.remove c)
    (hevents : t.events = s.events) (hhistory : t.history = .got c result :: s.history)
    (hsecret : reg.secret t.vault = reg.secret s.vault) : Move setup reg s l t [.got c result] := by
  refine move_of_calls ?_ ?_ hhistory (by simp) (.quiet hsecret (by simp [Event.isSignal]))
  · intro d call hd
    rw [hcalls] at hd
    exact (HashMap.get_remove_eq_some hd).2
  · intro e handling he
    rw [hevents] at he
    exact Or.inl he

theorem move_stepCall {phase : Phase} (hc : s.calls.get c = some ⟨owner, phase⟩)
    (hstep : stepCall setup s c owner phase = some t) :
    ∃ evs, Move setup reg s (.step c) t evs := by
  cases phase with
  | fetching =>
    have hkeeps := reg.getToken_keeps setup.api.pc rfl s.vault
    simp only [stepCall] at hstep
    split at hstep
    · obtain rfl := Option.some.inj hstep
      exact ⟨[], move_goto rfl rfl rfl (.bare rfl) (by simp) (.quiet hkeeps (by simp))⟩
    · obtain rfl := Option.some.inj hstep
      exact ⟨_, move_ended _ rfl rfl rfl hkeeps⟩
  | checking data =>
    simp only [stepCall] at hstep
    split_ifs at hstep
    · obtain rfl := Option.some.inj hstep
      exact ⟨_, move_ended _ rfl rfl rfl rfl⟩
    · obtain rfl := Option.some.inj hstep
      exact ⟨[], move_goto rfl rfl rfl (.bare rfl) (by simp) (.quiet rfl (by simp))⟩
  | locking endpoint =>
    simp only [stepCall] at hstep
    split at hstep
    · obtain rfl := Option.some.inj hstep
      exact ⟨[], move_goto rfl rfl rfl (.bare rfl) (by simp) (.quiet rfl (by simp))⟩
    · obtain rfl := Option.some.inj hstep
      exact ⟨_, move_ended _ rfl rfl rfl rfl⟩
  | refetching endpoint =>
    have hkeeps := reg.getToken_keeps setup.api.pc rfl s.vault
    simp only [stepCall] at hstep
    split at hstep
    · rename_i data hget
      obtain rfl := Option.some.inj hstep
      obtain ⟨found, hfound, hdata⟩ := reg.record_of_getToken setup.api.pc rfl hget
      refine ⟨[.refetched c data], ?_⟩
      refine ⟨rfl, ?_, ?_, fun _ _ he => Or.inl he, .quiet hkeeps (by simp [Event.isSignal])⟩
      · intro d call hd
        rcases HashMap.get_insert_eq_some hd with ⟨rfl, rfl⟩ | ⟨-, hsame⟩
        · exact Or.inr (.refetched (by simp))
        · exact Or.inl hsame
      · intro d read hlogged
        obtain ⟨rfl, rfl⟩ : d = c ∧ read = data := by simpa using hlogged
        refine ⟨found, hfound, hdata, ?_⟩
        intro call hd
        rcases HashMap.get_insert_eq_some hd with ⟨-, rfl⟩ | ⟨hne, -⟩
        · exact ⟨endpoint, rfl⟩
        · exact absurd rfl hne
    · obtain rfl := Option.some.inj hstep
      exact ⟨_, move_ended _ rfl rfl rfl hkeeps⟩
  | rechecking endpoint data =>
    simp only [stepCall] at hstep
    split_ifs at hstep
    · obtain rfl := Option.some.inj hstep
      exact ⟨_, move_ended _ rfl rfl rfl rfl⟩
    · obtain rfl := Option.some.inj hstep
      exact ⟨[], move_goto rfl rfl rfl (.rechecked hc) (by simp) (.quiet rfl (by simp))⟩
  | refreshing endpoint request => exact absurd hstep (by simp [stepCall])
  | updateReading endpoint refreshed =>
    have hkeeps := reg.secret_readRecord { id := setup.api.pc.id } rfl s.vault
    simp only [stepCall] at hstep
    split at hstep
    · rename_i current hread
      obtain rfl := Option.some.inj hstep
      exact ⟨[], move_goto rfl rfl rfl
        (.read hc (reg.record_of_readRecord { id := setup.api.pc.id } rfl hread)) (by simp)
        (.quiet hkeeps (by simp))⟩
    · obtain rfl := Option.some.inj hstep
      exact ⟨_, move_ended _ rfl rfl rfl hkeeps⟩
  | updateWriting endpoint refreshed current =>
    simp only [stepCall] at hstep
    split at hstep
    · rename_i hwrite
      obtain rfl := Option.some.inj hstep
      exact ⟨[.updated c (current.refresh refreshed)], move_goto rfl rfl rfl (.bare rfl) (by simp)
        (.updated rfl hc (reg.record_of_writeRecord { id := setup.api.pc.id } rfl hwrite)
          (by simp [Event.isSignal]))⟩
    · rename_i e hwrite
      obtain rfl := Option.some.inj hstep
      exact ⟨_, move_ended _ rfl rfl rfl
        (reg.secret_of_writeRecord_error { id := setup.api.pc.id } rfl hwrite)⟩
  | returning result =>
    obtain rfl := Option.some.inj hstep
    exact ⟨_, move_ended _ rfl rfl rfl rfl⟩

theorem startedData_key {h : SigletDataFlowHandler} {now : ℤ} {flow : DataFlow} {data : TokenData}
    (hdata : h.startedData now flow = .ok (some data)) :
    data.participantContext = flow.participantContextId ∧ data.identifier = flow.id := by
  unfold SigletDataFlowHandler.startedData at hdata
  cases haddress : flow.dataAddress with
  | none =>
    rw [haddress] at hdata
    exact absurd hdata (by simp)
  | some address =>
    simp only [haddress, bind_eq_ok, pure, Except.pure, Except.ok.injEq, Option.some.injEq] at hdata
    obtain ⟨_, -, _, -, rfl⟩ := hdata
    exact ⟨rfl, rfl⟩

theorem concerns_insert {e : ℕ} {handling : Handling} (hconcerns : handling.Concerns setup) (d : ℕ)
    (other : Handling) (hd : (s.events.insert e handling).get d = some other) :
    s.events.get d = some other ∨ other.Concerns setup := by
  rcases HashMap.get_insert_eq_some hd with ⟨-, rfl⟩ | ⟨-, hsame⟩
  · exact Or.inr hconcerns
  · exact Or.inl hsame

theorem move_idle (hcalls : t.calls = s.calls) (hevents : t.events = s.events)
    (hhistory : t.history = s.history) (hsecret : reg.secret t.vault = reg.secret s.vault) :
    Move setup reg s l t [] := by
  refine move_of_calls (fun d call hd => hcalls ▸ hd) ?_ hhistory (by simp)
    (.quiet hsecret (by simp))
  intro e handling he
  exact Or.inl (hevents ▸ he)

theorem move_waiting {e : ℕ} {handling : Handling} (hconcerns : handling.Concerns setup)
    (hcalls : t.calls = s.calls) (hevents : t.events = s.events.insert e handling)
    (hhistory : t.history = s.history) (hsecret : reg.secret t.vault = reg.secret s.vault) :
    Move setup reg s l t [] := by
  refine move_of_calls (fun d call hd => hcalls ▸ hd) ?_ hhistory (by simp)
    (.quiet hsecret (by simp))
  intro d other hd
  rw [hevents] at hd
  exact concerns_insert hconcerns d other hd

theorem move_answered (result : Except HandlerError Unit) (hcalls : t.calls = s.calls)
    (hevents : t.events = s.events) (hhistory : t.history = .handled result :: s.history)
    (hsecret : reg.secret t.vault = reg.secret s.vault) :
    Move setup reg s l t [.handled result] := by
  refine move_of_calls (fun d call hd => hcalls ▸ hd) ?_ hhistory (by simp)
    (.quiet hsecret (by simp [Event.isSignal]))
  intro e handling he
  exact Or.inl (hevents ▸ he)

theorem move_handled {e : ℕ} {ev : Event} (hcalls : t.calls = s.calls)
    (hevents : t.events = s.events.remove e) (hhistory : t.history = ev :: s.history)
    (hread : ∀ d data, ev ≠ .refetched d data) (heffect : Effect setup reg s l t [ev]) :
    Move setup reg s l t [ev] := by
  refine move_of_calls (fun d call hd => hcalls ▸ hd) ?_ hhistory ?_ heffect
  · intro d handling hd
    rw [hevents] at hd
    exact Or.inl (HashMap.get_remove_eq_some hd).2
  · intro d data hlogged
    exact hread d data (List.mem_singleton.mp hlogged).symm

theorem move_stepEvent {e : ℕ} {handling : Handling} (hconcerns : handling.Concerns setup) :
    ∃ evs, Move setup reg s l (stepEvent setup s e handling) evs := by
  cases handling with
  | saving data =>
    obtain ⟨hpc, hid⟩ := hconcerns
    have hsave : setup.store.saveToken data s.vault =
        setup.store.writeRecord { id := data.participantContext }
        setup.api.identifier (vaultRecord data) s.vault := by rw [← hid]; rfl
    simp only [stepEvent]
    split
    · rename_i hwrite
      rw [hsave] at hwrite
      refine ⟨_, move_handled rfl rfl rfl nofun (.saved data ?_ rfl)⟩
      rw [hsave]
      exact reg.record_of_writeRecord _ hpc hwrite
    · rename_i err hwrite
      rw [hsave] at hwrite
      refine ⟨_, move_handled rfl rfl rfl nofun (.quiet ?_ (by simp [Event.isSignal]))⟩
      rw [hsave]
      exact reg.secret_of_writeRecord_error _ hpc hwrite
  | revoking flow =>
    have hremoving : (Handling.removing flow).Concerns setup := hconcerns
    simp only [stepEvent]
    split
    · exact ⟨_, move_handled rfl rfl rfl nofun (.quiet rfl (by simp [Event.isSignal]))⟩
    · exact ⟨[], move_waiting hremoving rfl rfl rfl rfl⟩
    · exact ⟨_, move_handled rfl rfl rfl nofun (.quiet rfl (by simp [Event.isSignal]))⟩
  | removing flow =>
    obtain ⟨hpc, hid⟩ := hconcerns
    simp only [stepEvent, hid]
    split
    · rename_i hok
      exact ⟨_, move_handled rfl rfl rfl nofun (.removed (reg.secret_of_removeToken hpc hok) rfl)⟩
    · rename_i err herror
      exact ⟨_, move_handled rfl rfl rfl nofun
        (.quiet (reg.secret_of_removeToken_error hpc herror) (by simp [Event.isSignal]))⟩

theorem next_move (h : Inv setup reg s) (hnext : next setup s l = some t) :
    ∃ evs, Move setup reg s l t evs := by
  cases l with
  | getToken owner =>
    obtain rfl := Option.some.inj hnext
    exact ⟨[], move_goto rfl rfl rfl (.bare rfl) (by simp) (.quiet rfl (by simp))⟩
  | onStarted now flow =>
    simp only [next] at hnext
    split_ifs at hnext with hconcerns
    split at hnext
    · obtain rfl := Option.some.inj hnext
      exact ⟨[.handled _], move_answered _ rfl rfl rfl rfl⟩
    · obtain rfl := Option.some.inj hnext
      exact ⟨[.handled _], move_answered _ rfl rfl rfl rfl⟩
    · rename_i data hdata
      obtain rfl := Option.some.inj hnext
      obtain ⟨hpc, hid⟩ := startedData_key hdata
      have hsaving : (Handling.saving data).Concerns setup :=
        ⟨hpc.trans hconcerns.1, hid.trans hconcerns.2⟩
      exact ⟨[], move_waiting hsaving rfl rfl rfl rfl⟩
  | cleanup flow =>
    simp only [next] at hnext
    split_ifs at hnext with hconcerns
    obtain rfl := Option.some.inj hnext
    have hrevoking : (Handling.revoking flow).Concerns setup := hconcerns
    exact ⟨[], move_waiting hrevoking rfl rfl rfl rfl⟩
  | step c =>
    simp only [next] at hnext
    split at hnext
    · rename_i call hc
      exact move_stepCall hc hnext
    · exact absurd hnext (by simp)
  | answered c result =>
    simp only [next] at hnext
    split at hnext
    · rename_i owner endpoint request hc
      split at hnext
      · obtain rfl := Option.some.inj hnext
        exact ⟨[.answered c request _], move_goto rfl rfl rfl (.answered hc (by simp)) (by simp)
          (.quiet rfl (by simp [Event.isSignal]))⟩
      · obtain rfl := Option.some.inj hnext
        exact ⟨_, move_ended _ rfl rfl rfl rfl⟩
    · exact absurd hnext (by simp)
  | handle e =>
    simp only [next] at hnext
    split at hnext
    · rename_i handling he
      obtain rfl := Option.some.inj hnext
      exact move_stepEvent (h.concerned e handling he)
    · exact absurd hnext (by simp)
  | otherFlows renewable =>
    obtain rfl := Option.some.inj hnext
    exact ⟨[], move_idle rfl rfl rfl rfl⟩
  | unlock owner =>
    simp only [next] at hnext
    split_ifs at hnext
    obtain rfl := Option.some.inj hnext
    exact ⟨[], move_idle rfl rfl rfl rfl⟩
  | tick elapsed =>
    obtain rfl := Option.some.inj hnext
    exact ⟨[], move_idle rfl rfl rfl rfl⟩

end NextMove
/-- In every run in which refreshes write only what is current, a removed record stays absent until
the next `on_started`, and a saved one is replaced only by what was derived from it. -/
theorem signalled_record_kept {σ : Type} {setup : Setup σ}
    (reg : Register setup.store setup.api.pc.id setup.api.identifier) {s : State σ}
    (hreach : Machine.Reach (machine setup) CurrentWrites s) : Kept setup reg s := by
  have hinv : Inv setup reg s := by
    refine hreach.invariant ?_ ?_
    · intro s₀ hinit
      obtain ⟨hcalls, hevents, -, hhistory⟩ := hinit
      have hnone : s₀.history.find? Event.isSignal = none := by rw [hhistory]; rfl
      refine ⟨⟨?_, ?_⟩, ?_, ?_, ?_⟩
      · intro hlast
        exact absurd (hnone.symm.trans hlast) (by simp)
      · intro data hlast
        exact absurd (hnone.symm.trans hlast) (by simp)
      · intro hlast
        exact absurd (hnone.symm.trans hlast) (by simp)
      · intro data hlast
        exact absurd (hnone.symm.trans hlast) (by simp)
      · intro e handling he
        rw [hevents] at he
        exact absurd he (by simp)
    · intro a l b ha hnext hok
      obtain ⟨evs, hmove⟩ := next_move ha hnext
      exact ha.move hmove hok
  exact hinv.toKept

/-! ## Runs over the in-memory vault -/

def memoryRegister (store : VaultTokenStore (HashMap String String))
    (hclient : store.vaultClient = MemoryVaultClient)
    (hcodec : ∀ record json, store.toJson record = .ok json → store.fromJson json = .ok record)
    (pc identifier : String) : Register store pc identifier where
  secret v := v.get (pc ++ "/" ++ store.key identifier)
  resolve_keeps := by
    intro context v hcontext
    rw [hclient]
    rfl
  resolve_ok := by
    intro context v json hcontext hok
    subst hcontext
    rw [hclient] at hok
    exact okOr_eq_ok.mp hok
  store_ok := by
    intro context v json hcontext hok
    subst hcontext
    rw [hclient]
    exact (HashMap.get_insert _ _ _ _).trans (if_pos rfl)
  store_error := by
    intro context v json e hcontext herror
    rw [hclient] at herror
    exact absurd herror (by simp [MemoryVaultClient])
  remove_ok := by
    intro context v hcontext hok
    subst hcontext
    rw [hclient]
    exact (HashMap.get_remove _ _ _).trans (if_pos rfl)
  remove_error := by
    intro context v e hcontext herror
    rw [hclient] at herror
    exact absurd herror (by simp [MemoryVaultClient])
  codec := hcodec

/-- A codec for the records of a table, each under the text of its document. -/
def tableStore (table : HashMap String VaultTokenRecord) :
    VaultTokenStore (HashMap String String) where
  vaultClient := MemoryVaultClient
  toJson record :=
    okOr ((table.entries.find? fun entry => entry.2 = record).map Prod.fst) "unknown record"
  fromJson json := okOr (table.get json) "unknown document"

theorem tableStore_codec (table : HashMap String VaultTokenRecord) (record : VaultTokenRecord)
    (json : String) (hjson : (tableStore table).toJson record = .ok json) :
    (tableStore table).fromJson json = .ok record := by
  obtain ⟨entry, hentry, rfl⟩ := Option.map_eq_some_iff.mp (okOr_eq_ok.mp hjson)
  obtain rfl : entry.2 = record := by simpa using List.find?_some hentry
  exact okOr_eq_ok.mpr (table.get_eq_some_iff.mpr (List.mem_of_find?_eq_some hentry))

/-- The record of `demoFlow`, and what becomes of it after one refresh. -/
def demoRecord : VaultTokenRecord :=
  ⟨"did:web:consumer", "did:web:provider", "access", "refresh", 3600000, "https://provider/token",
    "https://provider/data"⟩

def demoRefreshed : RefreshedTokenData := ⟨"access2", "refresh2", 7200000, "https://provider/token"⟩

/-- The flow is started again, with another endpoint. -/
def movedFlow : DataFlow :=
  { demoFlow with dataAddress := some { demoAddress with endpoint := "https://moved/data" } }

def demoSetup : Setup (HashMap String String) where
  store := tableStore (((HashMap.empty.insert "saved" demoRecord).insert "refreshed"
    (demoRecord.refresh demoRefreshed)).insert "moved"
      { demoRecord with endpoint := "https://moved/data", expiresAt := 7200000 })
  api := { pc := { id := "pc" }, identifier := "flow", lockTimeout := 30000 }
  handler := demoHandler
  manager := demoManager

def demoRegister : Register demoSetup.store demoSetup.api.pc.id demoSetup.api.identifier :=
  memoryRegister _ rfl (tableStore_codec _) _ _

/-- The clock is at the expiry of the record. -/
def demoStart : State (HashMap String String) where
  vault := HashMap.empty
  renewable := InnerStore.empty
  locks := HashMap.empty
  now := 3600000
  calls := HashMap.empty
  events := HashMap.empty
  pendingUnlocks := []
  history := []
  nextId := 0

/-- `on_started` saves the record and a `get_token` refreshes it up to the read of its update. -/
def reading : List Label :=
  [.onStarted 0 demoFlow, .handle 0, .getToken "flow", .step 1, .step 1, .step 1, .step 1, .step 1,
    .answered 1 (.ok demoRefreshed), .step 1]

def reach (labels : List Label) : State (HashMap String String) :=
  (machine demoSetup).final (fun _ _ _ => true) demoStart labels

theorem reach_run {labels : List Label}
    (h : ((machine demoSetup).run (fun _ _ _ => true) demoStart labels).isSome = true) :
    Machine.Reach (machine demoSetup) Machine.Any (reach labels) :=
  ⟨demoStart, labels, ⟨rfl, rfl, rfl, rfl⟩, Machine.path_final (fun _ _ _ _ => trivial) h⟩

def movedData : TokenData where
  identifier := "flow"
  participantContext := "pc"
  participantId := "did:web:consumer"
  counterPartyId := "did:web:provider"
  token := "access"
  refreshToken := "refresh"
  expiresAt := 7200000
  refreshEndpoint := "https://provider/token"
  endpoint := "https://moved/data"

def Event.isRemoved : Event → Bool
  | .removed => true
  | _ => false

theorem Event.eq_removed {ev : Option Event} (h : ev.any Event.isRemoved = true) :
    ev = some .removed := by
  obtain ⟨e, rfl, hremoved⟩ := (Option.any_eq_true _ _).mp h
  cases e with
  | removed => rfl
  | _ => exact absurd hremoved (by simp [Event.isRemoved])

def Event.savedData : Event → Option TokenData
  | .saved data => some data
  | _ => none

theorem Event.eq_saved {ev : Option Event} {data : TokenData}
    (h : ev.bind Event.savedData = some data) : ev = some (.saved data) := by
  obtain ⟨e, rfl, hdata⟩ := Option.bind_eq_some_iff.mp h
  cases e with
  | saved found => rw [Option.some.inj hdata]
  | _ => exact absurd hdata (by simp [Event.savedData])

def Event.isAnswer : Event → Bool
  | .answered .. => true
  | _ => false

theorem Derived.eq_saved {api : TokenClientApi} {events : List Event}
    {saved record : VaultTokenRecord} (h : Derived api events saved record)
    (hnone : events.any Event.isAnswer = false) : record = saved := by
  cases h with
  | saved => rfl
  | refreshed _ _ hanswer =>
    have hany : events.any Event.isAnswer = true := List.any_eq_true.mpr ⟨_, hanswer, rfl⟩
    exact absurd (hnone.symm.trans hany) Bool.false_ne_true

/-- Between the read and the write of the update the flow is terminated. -/
def resurrected : State (HashMap String String) :=
  reach (reading ++ [.cleanup demoFlow, .handle 2, .handle 2, .step 1])

/-- Between the read and the write of the update the flow is started again. -/
def overwritten : State (HashMap String String) :=
  reach (reading ++ [.onStarted 3600 movedFlow, .handle 2, .step 1])

/-- The write brings the removed record back, or puts the old endpoint in place of the new one. -/
theorem update_races_with_signalling :
    (Machine.Reach (machine demoSetup) Machine.Any resurrected ∧
      ¬ Kept demoSetup demoRegister resurrected) ∧
    Machine.Reach (machine demoSetup) Machine.Any overwritten ∧
    ¬ Kept demoSetup demoRegister overwritten := by
  refine ⟨⟨reach_run (by decide), fun hkept => ?_⟩, reach_run (by decide), fun hkept => ?_⟩
  · exact absurd (hkept.removed (Event.eq_removed (by decide))) (by decide)
  · obtain ⟨record, hrecord, hderived⟩ := hkept.saved movedData (Event.eq_saved (by decide))
    have hold : demoRegister.record overwritten.vault =
        some (demoRecord.refresh demoRefreshed) := by decide
    obtain rfl : demoRecord.refresh demoRefreshed = record :=
      Option.some.inj (hold.symm.trans hrecord)
    exact absurd (hderived.eq_saved (by decide)) (by decide)

def currentCheck {σ : Type} (s : State σ) (l : Label) (_ : State σ) : Bool :=
  match l with
  | .step c =>
    match s.calls.get c with
    | some ⟨_, .updateWriting ..⟩ => (since s.history).any fun ev =>
        match ev with
        | .refetched d _ => d == c
        | _ => false
    | _ => true
  | _ => true

theorem currentWrites_of_check {σ : Type} (s : State σ) (l : Label) (t : State σ)
    (h : currentCheck s l t = true) : CurrentWrites s l t := by
  intro c owner endpoint refreshed current hl hc
  subst hl
  simp only [currentCheck, hc, List.any_eq_true] at h
  obtain ⟨ev, hev, hread⟩ := h
  cases ev with
  | refetched d data =>
    obtain rfl : d = c := by simpa using hread
    exact ⟨data, hev⟩
  | _ => exact absurd hread (by simp)

def quietly (labels : List Label) : State (HashMap String String) :=
  (machine demoSetup).final currentCheck demoStart labels

/-- The flow is terminated after the refresh: the record is gone. -/
theorem record_gone_after_refresh :
    demoRegister.secret
      (quietly (reading ++ [.step 1, .cleanup demoFlow, .handle 2, .handle 2, .step 1])).vault =
        none := by
  have hreach : Machine.Reach (machine demoSetup) CurrentWrites
      (quietly (reading ++ [.step 1, .cleanup demoFlow, .handle 2, .handle 2, .step 1])) :=
    ⟨demoStart, _, ⟨rfl, rfl, rfl, rfl⟩, Machine.path_final currentWrites_of_check
      (by decide +kernel)⟩
  exact (signalled_record_kept demoRegister hreach).removed (Event.eq_removed (by decide))

end Facet.Vault.Race
