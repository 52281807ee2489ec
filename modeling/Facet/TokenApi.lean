import Facet.AuthMiddleware
import Facet.TokenClientRuns

/-!
# The token API

Requests for the tokens of participants behind the authentication of the API, over the token client
with the in-memory lock manager and token store. Any number of requests take their steps in any
order, among writes of the signaling API to the same store. A step of one participant's call leaves
alone what the others have, and is the same without them.
-/
namespace Facet.Siglet.TokenApi
open Client Lock
open Server (JsonWebToken AuthError Jwk pathParamPcId buildTokenApiAuthLayer call)

/-! ## Requests and responses -/

inductive ResponseBody
  | token (token endpoint : String)
  | error (message : String)
  | text (message : String)
  | empty
  deriving DecidableEq, Repr

structure Response where
  status : ℕ
  body : ResponseBody
  deriving DecidableEq, Repr

/-- `TokenApiError::into_response`. -/
def intoResponse : TokenError → Response
  | .tokenNotFound _ => ⟨404, .error "Token not found"⟩
  | .notAuthorized message => ⟨401, .error message⟩
  | .invalid => ⟨401, .error "Invalid token"⟩
  | .verificationError e => ⟨401, .error e.message⟩
  | _ => ⟨500, .error "Internal server error"⟩

inductive Handler
  | getToken
  | deleteToken
  deriving DecidableEq, Repr

/-- The first phase of the call that the handler makes. -/
def Handler.phase : Handler → Phase
  | .getToken => .fetching
  | .deleteToken => .deleteLocking

/-- The two parameters of the path, which the handler turns into a context, an identifier and an
owner. -/
structure Route where
  participantContextId : String
  id : String
  deriving DecidableEq, Repr

def Route.params (route : Route) : HashMap String String :=
  (HashMap.empty.insert pathParamPcId route.participantContextId).insert "id" route.id

/-- `now` and `fetchJwks` are the time and the key set when the token of the request is verified. -/
structure Request (lib : JsonWebToken) where
  handler : Handler
  route : Route
  authorization : Option String
  now : ℤ
  fetchJwks : String → Except AuthError (List (Jwk lib.KeyParameters))

/-- What the handler answers when its call ends. -/
def response : Event → Option Response
  | .got _ (.ok result) => some ⟨200, .token result.token result.endpoint⟩
  | .got _ (.error e) | .failed _ e => some (intoResponse e)
  | .removed _ => some ⟨204, .empty⟩
  | _ => none

/-! ## The API -/

structure TokenApiHandler where
  lockTimeout : ℤ
  refreshBeforeExpiryMs : ℤ := 5000

/-- The token client as a handler calls it. -/
def TokenApiHandler.tokenClientApi (h : TokenApiHandler) (route : Route) : TokenClientApi where
  pc := { id := route.participantContextId }
  identifier := route.id
  lockTimeout := h.lockTimeout
  refreshBeforeExpiryMs := h.refreshBeforeExpiryMs

/-- `routes` are the requests that have arrived, `refused` the answers of the authentication. -/
structure State where
  client : Client.State
  routes : HashMap ℕ Route
  refused : List (ℕ × Response)

/-- `saved` and `removed` are writes of the signaling API, which go to the store directly. -/
inductive Label (lib : JsonWebToken)
  | arrive (c : ℕ) (request : Request lib)
  | step (c : ℕ)
  | answered (c : ℕ) (result : Except TokenError RefreshedTokenData)
  | unlock (identifier : String)
  | tick (elapsed : ℕ)
  | saved (data : TokenData)
  | removed (participantContext identifier : String)

section Api
variable {lib : JsonWebToken} (h : TokenApiHandler) (cfg : TokenApiAuthConfig)

/-- The router: the layer of the configuration, then the handler, whose lock is owned by the
identifier. -/
def arrive (s : State) (c : ℕ) (request : Request lib) : State :=
  let layer := buildTokenApiAuthLayer (fun _ _ => request.fetchJwks) cfg
  match call lib request.now layer (.ok request.route.params) request.authorization with
  | .response status message =>
    { s with
      routes := s.routes.insert c request.route, refused :=
        (c, ⟨status, .text message⟩) :: s.refused }
  | .inner _ =>
    { s with
      routes := s.routes.insert c request.route
      client := s.client.goto c request.route.id request.handler.phase }

def next (s : State) : Label lib → Option State
  | .arrive c request => if s.routes.containsKey c then none else some (arrive cfg s c request)
  | .step c => (s.routes.get c).bind fun route =>
    (Client.next (h.tokenClientApi route) s.client (.step c)).map fun client =>
      { s with client := client }
  | .answered c result => (s.routes.get c).bind fun route =>
    (Client.next (h.tokenClientApi route) s.client (.answered c result)).map fun client =>
      { s with client := client }
  | .unlock identifier =>
    (Client.next (h.tokenClientApi ⟨"", identifier⟩) s.client (.unlock identifier)).map
        fun client =>
      { s with client := client }
  | .tick elapsed => some { s with client := { s.client with now := s.client.now + elapsed } }
  | .saved data =>
    some { s with
      client := { s.client with tokens := s.client.tokens.saveToken s.client.now data } }
  | .removed pc identifier =>
    some { s with
      client := { s.client with tokens := (s.client.tokens.removeToken pc identifier).2 } }

/-- The store may hold tokens; there are no locks and no requests yet. -/
def machine (lib : JsonWebToken) (h : TokenApiHandler) (cfg : TokenApiAuthConfig) :
    Machine State (Label lib) where
  init s :=
    s.client.locks = HashMap.empty ∧ s.client.calls = HashMap.empty ∧ s.client.history = [] ∧
      s.routes = HashMap.empty ∧ s.refused = []
  next := next h cfg

/-- The request got this answer. -/
def State.Answered (s : State) (c : ℕ) (answer : Response) : Prop :=
  (c, answer) ∈ s.refused ∨ ∃ ev ∈ s.client.history, ev.call = c ∧ response ev = some answer

end Api

/-! ## What a call sees of the store -/

section Store
variable (tokens : MemoryTokenStore) (now : ℤ) (pc identifier : String)

theorem getToken_eq (context : ParticipantContext) : (tokens.getToken now context identifier).1 =
    okOr ((tokens.dataAt (context.id, identifier)).filter fun data =>
      data.participantContext = context.id) (.tokenNotFound identifier) := by
  rcases tokens.getToken_cases now context identifier with ⟨hnone, he⟩ | ⟨data, hdata, hpc, he⟩
  · rw [he, hnone, okOr]
  · rw [he, hdata, Option.filter_some, if_pos (by simpa using hpc), okOr]

theorem updateToken_eq (data : RefreshedTokenData) : (tokens.updateToken now pc identifier data).1 =
    (okOr (tokens.dataAt (pc, identifier)) (.tokenNotFound identifier)).map fun _ => () := by
  rcases tokens.updateToken_cases now pc identifier data with ⟨hnone, he⟩ | ⟨old, hold, he, -⟩
  · rw [he, hnone]
    rfl
  · rw [he, hold]
    rfl

theorem dataAt_updateToken (data : RefreshedTokenData) (key : String × String) :
    (tokens.updateToken now pc identifier data).2.dataAt key =
      if key = (pc, identifier) then (tokens.dataAt key).map (·.refresh data)
      else tokens.dataAt key := by
  rcases tokens.updateToken_cases now pc identifier data with ⟨hnone, he⟩ | ⟨old, hold, -, hafter⟩
  · rw [he]
    split_ifs with hkey
    · rw [hkey, hnone, Option.map_none]
    · rfl
  · rw [hafter]
    split_ifs with hkey
    · rw [hkey, hold, Option.map_some]
    · rfl

theorem removeToken_eq : (tokens.removeToken pc identifier).1 =
    (okOr (tokens.dataAt (pc, identifier)) (.tokenNotFound identifier)).map fun _ => () := by
  rcases tokens.removeToken_cases pc identifier with ⟨hnone, he⟩ | ⟨old, hold, he, -⟩
  · rw [he, hnone]
    rfl
  · rw [he, hold]
    rfl

theorem dataAt_removeToken (key : String × String) :
    (tokens.removeToken pc identifier).2.dataAt key =
      if key = (pc, identifier) then none else tokens.dataAt key := by
  rcases tokens.removeToken_cases pc identifier with ⟨hnone, he⟩ | ⟨old, -, -, hafter⟩
  · rw [he]
    split_ifs with hkey
    · rw [hkey, hnone]
    · rfl
  · exact hafter key

end Store

/-! ## The lock -/

/-- Every lock is owned by its own identifier, as all requests take them. -/
def SelfOwned (locks : LockTable) : Prop :=
  ∀ id record, locks.get id = some record → record.owner = id

theorem selfOwned_lock {timeout now : ℤ} {locks : LockTable} (h : SelfOwned locks) (id : String) :
    (lock timeout now locks id id).1 = .ok ⟨id, id⟩ ∧
      SelfOwned (lock timeout now locks id id).2 := by
  have hother : ∀ other record, other ≠ id →
      (lock timeout now locks id id).2.get other = some record →
      record.owner = other := by
    intro other record hne hget
    rw [lock_get_of_ne hne] at hget
    exact h other record hget
  rcases lock_cases timeout now locks id id with
    ⟨-, hok, hget⟩ | ⟨r, -, ho, hok, hget⟩ | ⟨r, hlive, ho, -, -⟩
  · refine ⟨hok, fun other record hrecord => ?_⟩
    by_cases hne : other = id
    · rw [hne, hget, Option.some.injEq] at hrecord
      rw [← hrecord, hne]
    · exact hother other record hne hrecord
  · refine ⟨hok, fun other record hrecord => ?_⟩
    by_cases hne : other = id
    · rw [hne, hget, Option.some.injEq] at hrecord
      rw [← hrecord, hne]
      exact ho
    · exact hother other record hne hrecord
  · exact absurd (h id r (liveRecord_eq_some.mp hlive).1) ho

theorem selfOwned_unlock {locks : LockTable} (h : SelfOwned locks) (id : String) :
    SelfOwned (unlock locks id id).2 := by
  intro other record hrecord
  by_cases hne : other = id
  · subst hne
    rcases unlock_cases locks other other with ⟨hnone, he⟩ | ⟨r, -, -, he⟩ | ⟨r, hr, ho, -, hget⟩
    · rw [he, hnone] at hrecord
      exact absurd hrecord (by simp)
    · rw [he] at hrecord
      exact h other record hrecord
    · rw [hget] at hrecord
      split_ifs at hrecord
      rw [← Option.some.inj hrecord]
      exact ho
  · rw [unlock_get_of_ne hne] at hrecord
    exact h other record hrecord

/-! ## The part of one participant -/

/-- `t` has what `s` has of the participant: its tokens, its calls and what became of them. -/
structure Shadow (p : String) (own : ℕ → Prop) (s t : Client.State) : Prop where
  now : t.now = s.now
  tokens : ∀ id, t.tokens.dataAt (p, id) = s.tokens.dataAt (p, id)
  calls : ∀ c, own c → t.calls.get c = s.calls.get c
  history : ∀ ev, ev ∈ t.history ↔ ev ∈ s.history ∧ own ev.call
  locks : SelfOwned s.locks
  locks' : SelfOwned t.locks

namespace Shadow
variable {p : String} {own : ℕ → Prop} {s t : Client.State}

theorem goto (h : Shadow p own s t) (c : ℕ) (owner : String) (phase : Phase) :
    Shadow p own (s.goto c owner phase) (t.goto c owner phase) :=
  { h with calls := fun d hd => by simp only [Client.State.goto, HashMap.get_insert, h.calls d hd] }

theorem goto_left (h : Shadow p own s t) {c : ℕ} (hc : ¬ own c) (owner : String) (phase : Phase) :
    Shadow p own (s.goto c owner phase) t :=
  { h with
    calls := by
      intro d hd
      have hne : d ≠ c := fun he => hc (he ▸ hd)
      simp only [Client.State.goto, HashMap.get_insert, if_neg hne, h.calls d hd] }

theorem log (h : Shadow p own s t) (ev : Event) (hev : own ev.call) :
    Shadow p own (s.log ev) (t.log ev) :=
  { h with
    history := by
      intro e
      simp only [Client.State.log, List.mem_cons, h.history e]
      constructor
      · rintro (rfl | ⟨hmem, hown⟩)
        · exact ⟨Or.inl rfl, hev⟩
        · exact ⟨Or.inr hmem, hown⟩
      · rintro ⟨rfl | hmem, hown⟩
        · exact Or.inl rfl
        · exact Or.inr ⟨hmem, hown⟩ }

theorem log_left (h : Shadow p own s t) (ev : Event) (hev : ¬ own ev.call) :
    Shadow p own (s.log ev) t :=
  { h with
    history := by
      intro e
      simp only [Client.State.log, List.mem_cons, h.history e]
      constructor
      · rintro ⟨hmem, hown⟩
        exact ⟨Or.inr hmem, hown⟩
      · rintro ⟨rfl | hmem, hown⟩
        · exact absurd hown hev
        · exact ⟨hmem, hown⟩ }

theorem remove (h : Shadow p own s t) (c : ℕ) :
    Shadow p own { s with calls := s.calls.remove c } { t with calls := t.calls.remove c } :=
  { h with calls := fun d hd => by simp only [HashMap.get_remove, h.calls d hd] }

theorem remove_left (h : Shadow p own s t) {c : ℕ} (hc : ¬ own c) :
    Shadow p own { s with calls := s.calls.remove c } t :=
  { h with
    calls := by
      intro d hd
      have hne : d ≠ c := fun he => hc (he ▸ hd)
      simp only [HashMap.get_remove, if_neg hne, h.calls d hd] }

theorem finish (h : Shadow p own s t) {c : ℕ} {ev : Event} (hev : own ev.call) :
    Shadow p own (s.finish c ev) (t.finish c ev) :=
  (h.remove c).log ev hev

theorem finish_left (h : Shadow p own s t) {c : ℕ} {ev : Event} (hc : ¬ own c)
    (hev : ¬ own ev.call) : Shadow p own (s.finish c ev) t :=
  (h.remove_left hc).log_left ev hev

theorem dropGuard (h : Shadow p own s t) (c : ℕ) (owner : String) :
    Shadow p own (s.dropGuard c owner) (t.dropGuard c owner) := { h with }

theorem dropGuard_left (h : Shadow p own s t) (c : ℕ) (owner : String) :
    Shadow p own (s.dropGuard c owner) t :=
  { h with }

theorem locked (h : Shadow p own s t) {locks locks' : LockTable} (hs : SelfOwned locks)
    (ht : SelfOwned locks') (c : ℕ) (owner : String) :
    Shadow p own ({ s with locks := locks }.takeGuard c owner)
      ({ t with locks := locks' }.takeGuard c owner) :=
  { h with locks := hs, locks' := ht }

theorem locked_left (h : Shadow p own s t) {locks : LockTable} (hs : SelfOwned locks) (c : ℕ)
    (owner : String) : Shadow p own ({ s with locks := locks }.takeGuard c owner) t :=
  { h with locks := hs }

theorem stored (h : Shadow p own s t) {tokens tokens' : MemoryTokenStore}
    (htokens : ∀ id, tokens'.dataAt (p, id) = tokens.dataAt (p, id)) :
    Shadow p own { s with tokens := tokens } { t with tokens := tokens' } :=
  { h with tokens := htokens }

/-- A call that has just arrived belongs to the participant. -/
theorem widen (h : Shadow p own s t) {own' : ℕ → Prop} {c : ℕ} (hown : ∀ d, own' d ↔ own d ∨ d = c)
    (hevents : ∀ ev ∈ s.history, ev.call ≠ c) (hs : s.calls.get c = none)
    (ht : t.calls.get c = none) : Shadow p own' s t :=
  { h with
    calls := by
      intro d hd
      rcases (hown d).mp hd with hd | rfl
      · exact h.calls d hd
      · rw [hs, ht]
    history := by
      intro ev
      rw [h.history, hown]
      constructor
      · rintro ⟨hmem, hev⟩
        exact ⟨hmem, Or.inl hev⟩
      · rintro ⟨hmem, hev | hc⟩
        · exact ⟨hmem, hev⟩
        · exact absurd hc (hevents ev hmem) }

theorem stored_left (h : Shadow p own s t) {tokens : MemoryTokenStore}
    (htokens : ∀ id, tokens.dataAt (p, id) = s.tokens.dataAt (p, id)) :
    Shadow p own { s with tokens := tokens } t :=
  { h with tokens := fun id => (h.tokens id).trans (htokens id).symm }

end Shadow

section Steps
variable {p : String} {own : ℕ → Prop} {s t : Client.State} {api : TokenClientApi}
  {c : ℕ} {owner : String}

/-- Taking the lock succeeds, so the call goes on. -/
theorem lockThen_eq (hs : SelfOwned s.locks) (howner : owner = api.identifier) (phase : Phase)
    (acquired : Client.State → Client.State) (refused : TokenError → Event) :
    lockThen api s c api.identifier owner phase acquired refused =
      acquired
        (({ s with locks := (lock api.lockTimeout s.now s.locks api.identifier owner).2 }.takeGuard
          c owner).goto c owner phase) := by
  subst howner
  unfold lockThen
  simp only [(selfOwned_lock hs api.identifier).1]

namespace Shadow

/-! What a call of the participant reads and writes -/

theorem dataAt_key (h : Shadow p own s t) (hpc : api.pc.id = p) :
    t.tokens.dataAt (api.pc.id, api.identifier) = s.tokens.dataAt (api.pc.id, api.identifier) := by
  rw [hpc]
  exact h.tokens api.identifier

theorem getToken_fst (h : Shadow p own s t) (hpc : api.pc.id = p) :
    (t.tokens.getToken t.now api.pc api.identifier).1 =
      (s.tokens.getToken s.now api.pc api.identifier).1 := by
  rw [getToken_eq, getToken_eq, h.dataAt_key hpc]

theorem getToken_snd (h : Shadow p own s t) :
    Shadow p own { s with tokens := (s.tokens.getToken s.now api.pc api.identifier).2 }
      { t with tokens := (t.tokens.getToken t.now api.pc api.identifier).2 } := by
  refine h.stored fun id => ?_
  rw [MemoryTokenStore.dataAt_getToken, MemoryTokenStore.dataAt_getToken]
  exact h.tokens id

theorem updateToken_fst (h : Shadow p own s t) (hpc : api.pc.id = p)
    (refreshed : RefreshedTokenData) :
    (t.tokens.updateToken t.now api.pc.id api.identifier refreshed).1 =
      (s.tokens.updateToken s.now api.pc.id api.identifier refreshed).1 := by
  rw [updateToken_eq, updateToken_eq, h.dataAt_key hpc]

theorem updateToken_snd (h : Shadow p own s t) (refreshed : RefreshedTokenData) :
    Shadow p own { s with
      tokens := (s.tokens.updateToken s.now api.pc.id api.identifier refreshed).2 }
      { t with tokens := (t.tokens.updateToken t.now api.pc.id api.identifier refreshed).2 } := by
  refine h.stored fun id => ?_
  rw [dataAt_updateToken, dataAt_updateToken, h.tokens id]

theorem removeToken_fst (h : Shadow p own s t) (hpc : api.pc.id = p) :
    (t.tokens.removeToken api.pc.id api.identifier).1 =
      (s.tokens.removeToken api.pc.id api.identifier).1 := by
  rw [removeToken_eq, removeToken_eq, h.dataAt_key hpc]

theorem removeToken_snd (h : Shadow p own s t) :
    Shadow p own { s with tokens := (s.tokens.removeToken api.pc.id api.identifier).2 }
      { t with tokens := (t.tokens.removeToken api.pc.id api.identifier).2 } := by
  refine h.stored fun id => ?_
  rw [dataAt_removeToken, dataAt_removeToken, h.tokens id]

theorem acquire (h : Shadow p own s t) (howner : owner = api.identifier) (c : ℕ) (phase : Phase) :
    Shadow p own
      (({ s with locks := (lock api.lockTimeout s.now s.locks api.identifier owner).2 }.takeGuard
        c owner).goto c owner
      phase)
    (({ t with locks := (lock api.lockTimeout t.now t.locks api.identifier owner).2 }.takeGuard
      c owner).goto c owner phase) := by
  subst howner
  exact (h.locked (selfOwned_lock h.locks _).2 (selfOwned_lock h.locks' _).2 c _).goto c _ phase

end Shadow

/-- What a step makes of the first state, the same step makes of the second. -/
def Mirrored (p : String) (own : ℕ → Prop) (api : TokenClientApi) (c : ℕ) (owner : String)
    (phase : Phase) (s t : Client.State) : Prop :=
  ∀ s', stepCall api s c owner phase = some s' → ∃ t', stepCall api t c owner phase = some t' ∧
    Shadow p own s' t'

theorem own_fetching (h : Shadow p own s t) (hc : own c) (hpc : api.pc.id = p) :
    Mirrored p own api c owner .fetching s t := by
  intro s' hstep
  simp only [stepCall, h.getToken_fst hpc] at hstep ⊢
  cases hr : (s.tokens.getToken s.now api.pc api.identifier).1 with
  | ok data =>
    simp only [hr, Option.some.injEq] at hstep ⊢
    exact ⟨_, rfl, hstep ▸ h.getToken_snd.goto c owner _⟩
  | error e =>
    simp only [hr, Option.some.injEq] at hstep ⊢
    exact ⟨_, rfl, hstep ▸ h.getToken_snd.finish hc⟩

theorem own_checking (h : Shadow p own s t) (hc : own c) (data : TokenData) :
    Mirrored p own api c owner (.checking data) s t := by
  intro s' hstep
  simp only [stepCall, h.now] at hstep ⊢
  cases hv : api.isValid s.now data with
  | true =>
    simp only [hv, if_true, Option.some.injEq] at hstep ⊢
    exact ⟨_, rfl, hstep ▸ h.finish hc⟩
  | false =>
    simp only [hv, Bool.false_eq_true, if_false, Option.some.injEq] at hstep ⊢
    exact ⟨_, rfl, hstep ▸ h.goto c owner _⟩

theorem own_locking (h : Shadow p own s t) (hc : own c) (howner : owner = api.identifier)
    (endpoint : String) : Mirrored p own api c owner (.locking endpoint) s t := by
  intro s' hstep
  simp only [stepCall, lockThen_eq h.locks howner, lockThen_eq h.locks' howner,
    Option.some.injEq] at hstep ⊢
  exact ⟨_, rfl, hstep ▸ (h.acquire howner c (.refetching endpoint)).log (.locked c) hc⟩

theorem own_refetching (h : Shadow p own s t) (hc : own c) (hpc : api.pc.id = p)
    (endpoint : String) : Mirrored p own api c owner (.refetching endpoint) s t := by
  intro s' hstep
  simp only [stepCall, h.getToken_fst hpc] at hstep ⊢
  cases hr : (s.tokens.getToken s.now api.pc api.identifier).1 with
  | ok data =>
    simp only [hr, Option.some.injEq] at hstep ⊢
    exact ⟨_, rfl, hstep ▸ h.getToken_snd.goto c owner _⟩
  | error e =>
    simp only [hr, Option.some.injEq] at hstep ⊢
    exact ⟨_, rfl, hstep ▸ (h.getToken_snd.dropGuard c owner).finish hc⟩

theorem own_rechecking (h : Shadow p own s t) (hc : own c) (endpoint : String) (data : TokenData) :
    Mirrored p own api c owner (.rechecking endpoint data) s t := by
  intro s' hstep
  simp only [stepCall, h.now] at hstep ⊢
  cases hv : api.isValid s.now data with
  | true =>
    simp only [hv, if_true, Option.some.injEq] at hstep ⊢
    exact ⟨_, rfl, hstep ▸ (h.dropGuard c owner).finish hc⟩
  | false =>
    simp only [hv, Bool.false_eq_true, if_false, Option.some.injEq] at hstep ⊢
    exact ⟨_, rfl, hstep ▸ (h.log (.refreshCalled c (api.refreshRequest data)) hc).goto c owner _⟩

theorem own_updating (h : Shadow p own s t) (hc : own c) (hpc : api.pc.id = p) (endpoint : String)
    (refreshed : RefreshedTokenData) :
    Mirrored p own api c owner (.updating endpoint refreshed) s t := by
  intro s' hstep
  simp only [stepCall, h.updateToken_fst hpc refreshed] at hstep ⊢
  cases hr : (s.tokens.updateToken s.now api.pc.id api.identifier refreshed).1 with
  | ok u =>
    simp only [hr, Option.some.injEq] at hstep ⊢
    exact ⟨_, rfl,
      hstep ▸ ((h.updateToken_snd refreshed).log (.updated c refreshed) hc).goto c owner _⟩
  | error e =>
    simp only [hr, Option.some.injEq] at hstep ⊢
    exact ⟨_, rfl, hstep ▸ ((h.updateToken_snd refreshed).dropGuard c owner).finish hc⟩

theorem own_deleting (h : Shadow p own s t) (hc : own c) (hpc : api.pc.id = p) :
    Mirrored p own api c owner .deleting s t := by
  intro s' hstep
  simp only [stepCall, h.removeToken_fst hpc] at hstep ⊢
  cases hr : (s.tokens.removeToken api.pc.id api.identifier).1 with
  | ok u =>
    simp only [hr, Option.some.injEq] at hstep ⊢
    exact ⟨_, rfl, hstep ▸ (h.removeToken_snd.dropGuard c owner).finish hc⟩
  | error e =>
    simp only [hr, Option.some.injEq] at hstep ⊢
    exact ⟨_, rfl, hstep ▸ (h.removeToken_snd.dropGuard c owner).finish hc⟩

/-- A step of a call of the participant, which finds the same tokens. -/
theorem own_step (h : Shadow p own s t) (hc : own c) (hpc : api.pc.id = p)
    (howner : owner = api.identifier) {phase : Phase} (hsave : phase.toSave = none) :
    Mirrored p own api c owner phase s t := by
  cases phase with
  | fetching => exact own_fetching h hc hpc
  | checking data => exact own_checking h hc data
  | locking endpoint => exact own_locking h hc howner endpoint
  | refetching endpoint => exact own_refetching h hc hpc endpoint
  | rechecking endpoint data => exact own_rechecking h hc endpoint data
  | refreshing endpoint request => exact fun s' hstep => absurd hstep (by simp [stepCall])
  | updating endpoint refreshed => exact own_updating h hc hpc endpoint refreshed
  | returning result =>
    intro s' hstep
    simp only [stepCall, Option.some.injEq] at hstep ⊢
    exact ⟨_, rfl, hstep ▸ (h.dropGuard c owner).finish hc⟩
  | saveLocking data => exact absurd hsave (by simp [Phase.toSave])
  | saving data => exact absurd hsave (by simp [Phase.toSave])
  | deleteLocking =>
    intro s' hstep
    simp only [stepCall, lockThen_eq h.locks howner, lockThen_eq h.locks' howner,
      Option.some.injEq] at hstep ⊢
    exact ⟨_, rfl, hstep ▸ h.acquire howner c .deleting⟩
  | deleting => exact own_deleting h hc hpc

/-- The answer of the refresh endpoint to a call of the participant. -/
theorem own_answered (h : Shadow p own s t) (hc : own c)
    {result : Except TokenError RefreshedTokenData} {s' : Client.State}
    (hstep : Client.next api s (.answered c result) = some s') :
    ∃ t', Client.next api t (.answered c result) = some t' ∧ Shadow p own s' t' := by
  simp only [Client.next, h.calls c hc] at hstep ⊢
  cases hcall : s.calls.get c with
  | none => simp [hcall] at hstep
  | some call =>
    obtain ⟨owner, phase⟩ := call
    cases phase with
    | refreshing endpoint request =>
      cases result with
      | ok refreshed =>
        simp only [hcall, Option.some.injEq] at hstep ⊢
        exact ⟨_, rfl, hstep ▸ h.goto c owner _⟩
      | error e =>
        simp only [hcall, Option.some.injEq] at hstep ⊢
        exact ⟨_, rfl, hstep ▸ (h.dropGuard c owner).finish hc⟩
    | _ => simp [hcall] at hstep

/-! What a call of another participant leaves alone -/

theorem other_fetching (h : Shadow p own s t) (hc : ¬ own c) {s' : Client.State}
    (hstep : stepCall api s c owner .fetching = some s') : Shadow p own s' t := by
  have hgot :
      Shadow p own { s with tokens := (s.tokens.getToken s.now api.pc api.identifier).2 } t :=
    h.stored_left fun id => MemoryTokenStore.dataAt_getToken _ _ _ _ _
  simp only [stepCall] at hstep
  cases hr : (s.tokens.getToken s.now api.pc api.identifier).1 with
  | ok data =>
    simp only [hr, Option.some.injEq] at hstep
    exact hstep ▸ hgot.goto_left hc owner _
  | error e =>
    simp only [hr, Option.some.injEq] at hstep
    exact hstep ▸ hgot.finish_left hc hc

theorem other_refetching (h : Shadow p own s t) (hc : ¬ own c) {endpoint : String}
    {s' : Client.State} (hstep : stepCall api s c owner (.refetching endpoint) = some s') :
    Shadow p own s' t := by
  have hgot :
      Shadow p own { s with tokens := (s.tokens.getToken s.now api.pc api.identifier).2 } t :=
    h.stored_left fun id => MemoryTokenStore.dataAt_getToken _ _ _ _ _
  simp only [stepCall] at hstep
  cases hr : (s.tokens.getToken s.now api.pc api.identifier).1 with
  | ok data =>
    simp only [hr, Option.some.injEq] at hstep
    exact hstep ▸ hgot.goto_left hc owner _
  | error e =>
    simp only [hr, Option.some.injEq] at hstep
    exact hstep ▸ (hgot.dropGuard_left c owner).finish_left hc hc

theorem other_updating (h : Shadow p own s t) (hc : ¬ own c) (hpc : api.pc.id ≠ p)
    {endpoint : String} {refreshed : RefreshedTokenData} {s' : Client.State}
    (hstep : stepCall api s c owner (.updating endpoint refreshed) = some s') :
    Shadow p own s' t := by
  have hupdated : ∀ id,
      (s.tokens.updateToken s.now api.pc.id api.identifier refreshed).2.dataAt (p, id) =
      s.tokens.dataAt (p, id) := by
    intro id
    rw [dataAt_updateToken, if_neg fun he => hpc (Prod.mk.inj he).1.symm]
  simp only [stepCall] at hstep
  cases hr : (s.tokens.updateToken s.now api.pc.id api.identifier refreshed).1 with
  | ok u =>
    simp only [hr, Option.some.injEq] at hstep
    exact hstep ▸ ((h.stored_left hupdated).log_left (.updated c refreshed) hc).goto_left hc owner _
  | error e =>
    simp only [hr, Option.some.injEq] at hstep
    exact hstep ▸ ((h.stored_left hupdated).dropGuard_left c owner).finish_left hc hc

theorem other_deleting (h : Shadow p own s t) (hc : ¬ own c) (hpc : api.pc.id ≠ p)
    {s' : Client.State} (hstep : stepCall api s c owner .deleting = some s') :
    Shadow p own s' t := by
  have hremoved : ∀ id, (s.tokens.removeToken api.pc.id api.identifier).2.dataAt (p, id) =
      s.tokens.dataAt (p, id) := by
    intro id
    rw [dataAt_removeToken, if_neg fun he => hpc (Prod.mk.inj he).1.symm]
  simp only [stepCall] at hstep
  cases hr : (s.tokens.removeToken api.pc.id api.identifier).1 with
  | ok u =>
    simp only [hr, Option.some.injEq] at hstep
    exact hstep ▸ ((h.stored_left hremoved).dropGuard_left c owner).finish_left hc hc
  | error e =>
    simp only [hr, Option.some.injEq] at hstep
    exact hstep ▸ ((h.stored_left hremoved).dropGuard_left c owner).finish_left hc hc

/-- A step of another participant's call leaves alone what the participant has. -/
theorem other_step (h : Shadow p own s t) (hc : ¬ own c) (hpc : api.pc.id ≠ p)
    (howner : owner = api.identifier) {phase : Phase} (hsave : phase.toSave = none)
    {s' : Client.State} (hstep : stepCall api s c owner phase = some s') : Shadow p own s' t := by
  have hlock : ∀ phase', Shadow p own
      (({ s with locks := (lock api.lockTimeout s.now s.locks api.identifier owner).2 }.takeGuard
        c owner).goto c owner phase') t := by
    intro phase'
    subst howner
    exact (h.locked_left (selfOwned_lock h.locks _).2 c _).goto_left hc _ phase'
  cases phase with
  | fetching => exact other_fetching h hc hstep
  | checking data =>
    simp only [stepCall] at hstep
    split_ifs at hstep
    · exact Option.some.inj hstep ▸ h.finish_left hc hc
    · exact Option.some.inj hstep ▸ h.goto_left hc owner _
  | locking endpoint =>
    simp only [stepCall, lockThen_eq h.locks howner, Option.some.injEq] at hstep
    exact hstep ▸ (hlock (.refetching endpoint)).log_left (.locked c) hc
  | refetching endpoint => exact other_refetching h hc hstep
  | rechecking endpoint data =>
    simp only [stepCall] at hstep
    split_ifs at hstep
    · exact Option.some.inj hstep ▸ (h.dropGuard_left c owner).finish_left hc hc
    · exact Option.some.inj hstep ▸
        (h.log_left (.refreshCalled c (api.refreshRequest data)) hc).goto_left hc owner _
  | refreshing endpoint request => simp [stepCall] at hstep
  | updating endpoint refreshed => exact other_updating h hc hpc hstep
  | returning result =>
    simp only [stepCall, Option.some.injEq] at hstep
    exact hstep ▸ (h.dropGuard_left c owner).finish_left hc hc
  | saveLocking data => exact absurd hsave (by simp [Phase.toSave])
  | saving data => exact absurd hsave (by simp [Phase.toSave])
  | deleteLocking =>
    simp only [stepCall, lockThen_eq h.locks howner, Option.some.injEq] at hstep
    exact hstep ▸ hlock .deleting
  | deleting => exact other_deleting h hc hpc hstep

theorem other_answered (h : Shadow p own s t) (hc : ¬ own c)
    {result : Except TokenError RefreshedTokenData} {s' : Client.State}
    (hstep : Client.next api s (.answered c result) = some s') : Shadow p own s' t := by
  simp only [Client.next] at hstep
  cases hcall : s.calls.get c with
  | none => simp [hcall] at hstep
  | some call =>
    obtain ⟨owner, phase⟩ := call
    cases phase with
    | refreshing endpoint request =>
      cases result with
      | ok refreshed =>
        simp only [hcall, Option.some.injEq] at hstep
        exact hstep ▸ h.goto_left hc owner _
      | error e =>
        simp only [hcall, Option.some.injEq] at hstep
        exact hstep ▸ (h.dropGuard_left c owner).finish_left hc hc
    | _ => simp [hcall] at hstep

/-- A step of a running call starts none, keeps the owner of each, and turns none into one that
saves. -/
theorem calls_of_move {l : Client.Label} (hm : Move api s l t) (hl : l.starts = none) {d : ℕ}
    {call' : Call} (hd : t.calls.get d = some call') : ∃ call, s.calls.get d = some call ∧
      call'.owner = call.owner ∧ (call.phase.toSave = none → call'.phase.toSave = none) := by
  have hinsert : ∀ (c : ℕ) (owner : String) (phase phase' : Phase),
      s.calls.get c = some ⟨owner, phase⟩ →
      (phase.toSave = none → phase'.toSave = none) →
        (s.calls.insert c ⟨owner, phase'⟩).get d = some call' →
      ∃ call, s.calls.get d = some call ∧ call'.owner = call.owner ∧
        (call.phase.toSave = none → call'.phase.toSave = none) := by
    intro c owner phase phase' hc hsave hg
    rcases HashMap.get_insert_eq_some hg with ⟨rfl, rfl⟩ | ⟨-, hg⟩
    · exact ⟨_, hc, rfl, hsave⟩
    · exact ⟨_, hg, rfl, id⟩
  cases hm with
  | start owner phase label => exact absurd (hl.symm.trans label) (by simp)
  | walk c owner phase phase' tokens running holds data sees save =>
    exact hinsert c owner phase phase' running (fun _ => save) hd
  | call c owner endpoint data running =>
    exact hinsert c owner _ (.refreshing endpoint (api.refreshRequest data)) running
      (fun _ => rfl) hd
  | update c owner endpoint refreshed old tokens running =>
    exact hinsert c owner _ (.returning ⟨refreshed.token, endpoint⟩) running (fun _ => rfl) hd
  | acquire c owner phase phase' history label running free waits holds ok save =>
    refine hinsert c owner phase phase' running (fun hnone =>
      Option.eq_none_iff_forall_ne_some.mpr fun data he => ?_) hd
    exact absurd (hnone.symm.trans (save data he)) (by simp)
  | leave c => exact ⟨_, (HashMap.get_remove_eq_some hd).2, rfl, id⟩
  | refuse c => exact ⟨_, (HashMap.get_remove_eq_some hd).2, rfl, id⟩
  | release c => exact ⟨_, (HashMap.get_remove_eq_some hd).2, rfl, id⟩
  | unlock => exact ⟨_, hd, rfl, id⟩
  | tick => exact ⟨_, hd, rfl, id⟩

/-- What a step adds to the history is about a call that was running. -/
theorem event_of_move {l : Client.Label} (hm : Move api s l t) (hl : l.starts = none) {ev : Event}
    (hev : ev ∈ t.history) : ev ∈ s.history ∨ ∃ call, s.calls.get ev.call = some call := by
  rcases hm.history_cases with hh | ⟨new, hh⟩
  · exact Or.inl (hh ▸ hev)
  · rw [hh] at hev
    rcases List.mem_cons.mp hev with rfl | hev
    · refine Or.inr ?_
      cases hm.event hh with
      | locked c o e now =>
        obtain ⟨call, hcall, -⟩ := calls_of_move hm hl now
        exact ⟨call, hcall⟩
      | refreshCalled c o e request data was => exact ⟨_, was⟩
      | updated c o e refreshed was => exact ⟨_, was⟩
      | ended ev o phase ends was => exact ⟨_, was⟩
    · exact Or.inl hev

end Steps

end Facet.Siglet.TokenApi
