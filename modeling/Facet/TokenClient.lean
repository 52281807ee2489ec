import Facet.TokenStore
import Facet.LockManager
import Facet.Machine

/-!
# The token client

`get_token`, `save_token` and `delete_token` of `TokenClientApi` for one participant
context and identifier, over the in-memory lock manager and token store. Each `await`
ends a step: a call in flight stands in one of the phases below, and any number of
calls take their steps in any order. Dropping a guard spawns its unlock, which is a
step of its own.
-/
namespace Facet.Client
open Lock

/-- The configured client together with the record that its calls are about. -/
structure TokenClientApi where
  pc : ParticipantContext
  identifier : String
  lockTimeout : ℤ
  refreshBeforeExpiryMs : ℤ := 5000

structure TokenResult where
  token : String
  endpoint : String
  deriving DecidableEq, Repr

/-- The arguments of `TokenClient::refresh_token`. -/
structure RefreshRequest where
  participantContext : ParticipantContext
  endpointIdentifier : String
  accessToken : String
  refreshToken : String
  refreshEndpoint : String
  deriving DecidableEq, Repr

namespace TokenClientApi

def key (api : TokenClientApi) : String × String := (api.pc.id, api.identifier)

/-- The token need not be refreshed yet. -/
def isValid (api : TokenClientApi) (now : ℤ) (data : TokenData) : Bool :=
  decide (now < data.expiresAt - api.refreshBeforeExpiryMs)

/-- The participant is identified by what the store says, not by the caller's context. -/
def refreshRequest (api : TokenClientApi) (data : TokenData) : RefreshRequest where
  participantContext := { id := api.pc.id, identifier := data.participantId }
  endpointIdentifier := data.counterPartyId
  accessToken := data.token
  refreshToken := data.refreshToken
  refreshEndpoint := data.refreshEndpoint

def lockFailure (e : LockError) : TokenError :=
  .generalError ("Failed to acquire lock: " ++ e.message)

end TokenClientApi

/-- Where a call stands: what it does next and the local variables it still needs. -/
inductive Phase
  | fetching
  | checking (data : TokenData)
  | locking (endpoint : String)
  | refetching (endpoint : String)
  | rechecking (endpoint : String) (data : TokenData)
  | refreshing (endpoint : String) (request : RefreshRequest)
  | updating (endpoint : String) (refreshed : RefreshedTokenData)
  | returning (result : TokenResult)
  | saveLocking (data : TokenData)
  | saving (data : TokenData)
  | deleteLocking
  | deleting
  deriving DecidableEq, Repr

namespace Phase

/-- The call has the guard in scope. -/
def holds : Phase → Bool
  | .refetching _ | .rechecking .. | .refreshing .. | .updating .. | .returning _ | .saving _
  | .deleting => true
  | _ => false

def isGet : Phase → Bool
  | .saveLocking _ | .saving _ | .deleteLocking | .deleting => false
  | _ => true

/-- The data that a `save_token` call is going to store. -/
def toSave : Phase → Option TokenData
  | .saveLocking data | .saving data => some data
  | _ => none

end Phase

structure Call where
  owner : String
  phase : Phase
  deriving DecidableEq, Repr

/-- What calls did, newest first: `got` and `failed` end a call, as `saved` and `removed` do. -/
inductive Event
  | locked (call : ℕ)
  | refreshCalled (call : ℕ) (request : RefreshRequest)
  | updated (call : ℕ) (refreshed : RefreshedTokenData)
  | got (call : ℕ) (result : Except TokenError TokenResult)
  | saved (call : ℕ) (data : TokenData)
  | removed (call : ℕ)
  | failed (call : ℕ) (error : TokenError)

def Event.call : Event → ℕ
  | .locked c | .refreshCalled c _ | .updated c _ | .got c _ | .saved c _ | .removed c
  | .failed c _ => c

def Event.writes : Event → Bool
  | .updated .. | .saved .. | .removed _ => true
  | _ => false

/-- `guards` are the guards in the scope of running calls, `pendingUnlocks` the owners of
dropped guards whose unlock has not run. Call numbers are never used again. -/
structure State where
  tokens : MemoryTokenStore
  locks : LockTable
  now : ℤ
  calls : HashMap ℕ Call
  guards : List (ℕ × String)
  pendingUnlocks : List String
  history : List Event
  nextCall : ℕ

inductive Label
  | getToken (owner : String)
  | saveToken (data : TokenData) (owner : String)
  | deleteToken (owner : String)
  | step (call : ℕ)
  | answered (call : ℕ) (result : Except TokenError RefreshedTokenData)
  | unlock (owner : String)
  | tick (elapsed : ℕ)

namespace State

def start (s : State) (owner : String) (phase : Phase) : State :=
  { s with calls := s.calls.insert s.nextCall ⟨owner, phase⟩, nextCall := s.nextCall + 1 }

def goto (s : State) (c : ℕ) (owner : String) (phase : Phase) : State :=
  { s with calls := s.calls.insert c ⟨owner, phase⟩ }

def log (s : State) (ev : Event) : State := { s with history := ev :: s.history }

/-- A call returns; `ev` is its outcome. -/
def finish (s : State) (c : ℕ) (ev : Event) : State :=
  { s with calls := s.calls.remove c, history := ev :: s.history }

def takeGuard (s : State) (c : ℕ) (owner : String) : State :=
  { s with guards := (c, owner) :: s.guards }

def dropGuard (s : State) (c : ℕ) (owner : String) : State :=
  { s with guards := s.guards.erase (c, owner), pendingUnlocks := owner :: s.pendingUnlocks }

end State

/-- `lock` with the error a caller of it reports: on success the call moves on with the guard. -/
def lockThen (api : TokenClientApi) (s : State) (c : ℕ) (identifier owner : String) (phase : Phase)
    (acquired : State → State) (refused : TokenError → Event) : State :=
  let result := lock api.lockTimeout s.now s.locks identifier owner
  match result.1 with
  | .ok _ => acquired (({ s with locks := result.2 }.takeGuard c owner).goto c owner phase)
  | .error e => { s with locks := result.2 }.finish c (refused (TokenClientApi.lockFailure e))

/-- One step of call `c`; a call that waits for the refresh endpoint takes none by itself. -/
def stepCall (api : TokenClientApi) (s : State) (c : ℕ) (owner : String) : Phase → Option State
  | .fetching =>
    let result := s.tokens.getToken s.now api.pc api.identifier
    match result.1 with
    | .ok data => some ({ s with tokens := result.2 }.goto c owner (.checking data))
    | .error e => some ({ s with tokens := result.2 }.finish c (.got c (.error e)))
  | .checking data =>
    if api.isValid s.now data then some (s.finish c (.got c (.ok ⟨data.token, data.endpoint⟩)))
    else some (s.goto c owner (.locking data.endpoint))
  | .locking endpoint =>
    some (lockThen api s c api.identifier owner (.refetching endpoint) (·.log (.locked c)) fun e =>
      .got c (.error e))
  | .refetching endpoint =>
    let result := s.tokens.getToken s.now api.pc api.identifier
    match result.1 with
    | .ok data => some ({ s with tokens := result.2 }.goto c owner (.rechecking endpoint data))
    | .error e =>
      some (({ s with tokens := result.2 }.dropGuard c owner).finish c (.got c (.error e)))
  | .rechecking endpoint data =>
    if api.isValid s.now data then
      some ((s.dropGuard c owner).finish c (.got c (.ok ⟨data.token, endpoint⟩)))
    else
      let request := api.refreshRequest data
      some ((s.log (.refreshCalled c request)).goto c owner (.refreshing endpoint request))
  | .refreshing _ _ => none
  | .updating endpoint refreshed =>
    let result := s.tokens.updateToken s.now api.pc.id api.identifier refreshed
    match result.1 with
    | .ok () => some (({ s with tokens := result.2 }.log (.updated c refreshed)).goto c owner
        (.returning ⟨refreshed.token, endpoint⟩))
    | .error e =>
      some (({ s with tokens := result.2 }.dropGuard c owner).finish c (.got c (.error e)))
  | .returning result => some ((s.dropGuard c owner).finish c (.got c (.ok result)))
  | .saveLocking data =>
    some (lockThen api s c data.identifier owner (.saving data) id (.failed c))
  | .saving data =>
    some (({ s with tokens := s.tokens.saveToken s.now data }.dropGuard c owner).finish c
      (.saved c data))
  | .deleteLocking =>
    some (lockThen api s c api.identifier owner .deleting id (.failed c))
  | .deleting =>
    let result := s.tokens.removeToken api.pc.id api.identifier
    match result.1 with
    | .ok () => some (({ s with tokens := result.2 }.dropGuard c owner).finish c (.removed c))
    | .error e => some (({ s with tokens := result.2 }.dropGuard c owner).finish c (.failed c e))

def next (api : TokenClientApi) (s : State) : Label → Option State
  | .getToken owner => some (s.start owner .fetching)
  | .saveToken data owner =>
    if data.participantContext = api.pc.id ∧ data.identifier = api.identifier then
      some (s.start owner (.saveLocking data))
    else none
  | .deleteToken owner => some (s.start owner .deleteLocking)
  | .step c =>
    match s.calls.get c with
    | some call => stepCall api s c call.owner call.phase
    | none => none
  | .answered c result =>
    match s.calls.get c with
    | some ⟨owner, .refreshing endpoint _⟩ =>
      match result with
      | .ok refreshed => some (s.goto c owner (.updating endpoint refreshed))
      | .error e => some ((s.dropGuard c owner).finish c (.got c (.error e)))
    | _ => none
  | .unlock owner =>
    if owner ∈ s.pendingUnlocks then
      some { s with
        locks := (unlock s.locks api.identifier owner).2
        pendingUnlocks := s.pendingUnlocks.erase owner }
    else none
  | .tick elapsed => some { s with now := s.now + elapsed }

/-- Nobody is active yet; the store may hold a record of the client, filed under its context. -/
def machine (api : TokenClientApi) : Machine State Label where
  init s := s.locks.get api.identifier = none ∧ s.calls = HashMap.empty ∧ s.guards = [] ∧
    s.pendingUnlocks = [] ∧ s.history = [] ∧
    ∀ data, s.tokens.dataAt api.key = some data → data.participantContext = api.pc.id
  next := next api

end Facet.Client
