import Facet.TokenIssuance

/-!
# Interleaved renewals

Any number of `renew`, `generate_pair` and `revoke_token` calls interleave. A renewal
is three steps: the lookup of its refresh token, the verification and signing, and the
store's compare-and-swap. A generation is two: preparing the pair and saving it. Each
returned result is recorded in the history, newest first.
-/
namespace Facet.Renewable.Interleaved
open InnerStore

/-- Where a call in flight stands. -/
inductive Call
  | verifying (boundToken refreshToken : String) (entry : RenewableTokenEntry)
  | updating (refreshToken : String) (entry newEntry : RenewableTokenEntry)
      (pair : RenewableTokenPair)
  | saving (entry : RenewableTokenEntry) (pair : RenewableTokenPair)

/-- What the call has prepared and not stored yet. -/
def Call.prepared : Call → Option Issue
  | .verifying _ _ _ => none
  | .updating _ _ newEntry pair => some ⟨newEntry, pair.refreshToken⟩
  | .saving entry pair => some ⟨entry, pair.refreshToken⟩

/-- The refresh token a renewal presented, with the entry found for it. -/
def Call.presented : Call → Option Issue
  | .verifying _ refreshToken entry => some ⟨entry, refreshToken⟩
  | .updating refreshToken entry _ _ => some ⟨entry, refreshToken⟩
  | .saving _ _ => none

inductive Event
  | generated (call : ℕ) (issue : Issue)
  | renewed (call : ℕ) (old new : Issue)
  | failed (call : ℕ) (error : TokenError)
  | revoked (flowId : String)

def Event.issue : Event → Option Issue
  | .generated _ issue => some issue
  | .renewed _ _ new => some new
  | _ => none

/-- The refresh token that a successful renewal consumed. -/
def Event.exchanged : Event → Option String
  | .renewed _ old _ => some old.refreshToken
  | _ => none

def Event.generatedFor (flowId : String) : Event → Bool
  | .generated _ issue => decide (issue.entry.flowId = flowId)
  | _ => false

structure State where
  store : InnerStore
  calls : HashMap ℕ Call
  history : List Event
  jtis : List String
  refreshTokens : List String

def State.issued (s : State) : List Issue := s.history.filterMap Event.issue

def State.pending (s : State) (c : ℕ) : Option Issue := (s.calls.get c).bind Call.prepared

/-- How many `generate_pair` calls have saved a pair for the flow. -/
def State.generations (s : State) (flowId : String) : ℕ :=
  s.history.countP (Event.generatedFor flowId)

inductive Label
  | renew (call : ℕ) (boundToken refreshToken : String)
  | verify (call : ℕ) (env : CallEnv)
  | update (call : ℕ)
  | generatePair (call : ℕ) (env : CallEnv) (pc : ParticipantContext) (subject : String)
      (claims : HashMap String Value) (flowId : String)
  | save (call : ℕ)
  | revokeToken (pc : ParticipantContext) (flowId : String)

def State.fail (s : State) (call : ℕ) (e : TokenError) : State :=
  { s with calls := s.calls.remove call, history := .failed call e :: s.history }

def State.drawing (s : State) (env : CallEnv) : State :=
  { s with jtis := env.jti :: s.jtis, refreshTokens := env.refreshToken :: s.refreshTokens }

def next (m : JwtTokenManager) (s : State) : Label → Option State
  | .renew call boundToken refreshToken =>
    match s.calls.get call with
    | some _ => none
    | none =>
      match m.renewLookup s.store refreshToken with
      | .ok entry =>
        some { s with calls := s.calls.insert call (.verifying boundToken refreshToken entry) }
      | .error e => some (s.fail call e)
  | .verify call env =>
    match s.calls.get call with
    | some (.verifying boundToken refreshToken entry) =>
      match m.renewPrepare env entry boundToken with
      | .ok (newEntry, pair) => some { s.drawing env with
          calls := s.calls.insert call (.updating refreshToken entry newEntry pair) }
      | .error e => some ((s.drawing env).fail call e)
    | _ => none
  | .update call =>
    match s.calls.get call with
    | some (.updating refreshToken entry newEntry pair) =>
      let result := m.renewUpdate s.store refreshToken newEntry pair
      match result.1 with
      | .ok pair => some { s with
          store := result.2
          calls := s.calls.remove call
          history :=
            .renewed call ⟨entry, refreshToken⟩ ⟨newEntry, pair.refreshToken⟩ :: s.history }
      | .error e => some ({ s with store := result.2 }.fail call e)
    | _ => none
  | .generatePair call env pc subject claims flowId =>
    match s.calls.get call with
    | some _ => none
    | none =>
      match m.preparePair env pc subject claims flowId with
      | .ok (entry, pair) =>
        some { s.drawing env with calls := s.calls.insert call (.saving entry pair) }
      | .error e => some ((s.drawing env).fail call e)
  | .save call =>
    match s.calls.get call with
    | some (.saving entry pair) => some { s with
        store := s.store.save entry
        calls := s.calls.remove call
        history := .generated call ⟨entry, pair.refreshToken⟩ :: s.history }
    | _ => none
  | .revokeToken pc flowId =>
    let result := m.revokeToken s.store pc flowId
    match result.1 with
    | .ok () => some { s with store := result.2, history := .revoked flowId :: s.history }
    | .error _ => some { s with store := result.2 }

def machine (m : JwtTokenManager) : Machine State Label where
  init s := s.store = InnerStore.empty ∧ s.calls = HashMap.empty ∧ s.history = []
  next := next m

/-- Random values never repeat. -/
def FreshDraws (s : State) (l : Label) (_ : State) : Prop :=
  match l with
  | .verify _ env => env.jti ∉ s.jtis ∧ env.refreshToken ∉ s.refreshTokens
  | .generatePair _ env _ _ _ _ => env.jti ∉ s.jtis ∧ env.refreshToken ∉ s.refreshTokens
  | _ => True

/-! ## What a step can do

Steps either work on calls in flight and leave the store alone, or are one of the
three atomic store operations. -/

/-- A call ends or moves on without touching the store, possibly after drawing values. -/
structure Quiet (m : JwtTokenManager) (s : State) (l : Label) (t : State) : Prop where
  store_eq : t.store = s.store
  history_eq : t.history = s.history ∨ ∃ c e, t.history = .failed c e :: s.history
  presented : ∀ c call i, t.calls.get c = some call → call.presented = some i →
    (∃ call', s.calls.get c = some call' ∧ call'.presented = some i) ∨
      s.store.entriesByHash.get (m.hash i.refreshToken) = some i.entry
  flow : ∀ c r entry newEntry pair, t.calls.get c = some (.updating r entry newEntry pair) →
    s.calls.get c = some (.updating r entry newEntry pair) ∨ newEntry.flowId = entry.flowId
  pending : (∀ c i, t.pending c = some i → s.pending c = some i) ∧ s.jtis ⊆ t.jtis ∧
      s.refreshTokens ⊆ t.refreshTokens ∨
    ∃ c i, t.pending = Function.update s.pending c (some i) ∧ t.jtis = i.entry.id :: s.jtis ∧
      t.refreshTokens = i.refreshToken :: s.refreshTokens ∧
      i.entry.hashedRefreshToken = m.hash i.refreshToken ∧
      (FreshDraws s l t → i.entry.id ∉ s.jtis ∧ i.refreshToken ∉ s.refreshTokens)

theorem pending_insert (s : State) (c : ℕ) (call : Call) :
    (fun d => ((s.calls.insert c call).get d).bind Call.prepared) =
      Function.update s.pending c call.prepared := by
  funext d
  by_cases hd : d = c
  · subst hd
    simp
  · simp [State.pending, hd]

theorem pending_remove (s : State) (c : ℕ) :
    (fun d => ((s.calls.remove c).get d).bind Call.prepared) =
      Function.update s.pending c none := by
  funext d
  by_cases hd : d = c
  · subst hd
    simp
  · simp [State.pending, hd]

section Steps
variable {m : JwtTokenManager} {s t : State}

theorem quiet_fail {l : Label} {c : ℕ} {e : TokenError} {u : State}
    (hs : u.store = s.store) (hc : u.calls = s.calls) (hh : u.history = s.history)
    (hj : s.jtis ⊆ u.jtis) (hr : s.refreshTokens ⊆ u.refreshTokens) : Quiet m s l (u.fail c e) where
  store_eq := hs
  history_eq := Or.inr ⟨c, e, by simp [State.fail, hh]⟩
  presented := by
    intro d call i hd hi
    simp only [State.fail, hc, HashMap.get_remove] at hd
    split_ifs at hd
    exact Or.inl ⟨call, hd, hi⟩
  flow := by
    intro d r entry newEntry pair hd
    simp only [State.fail, hc, HashMap.get_remove] at hd
    split_ifs at hd
    exact Or.inl hd
  pending := by
    refine Or.inl ⟨?_, hj, hr⟩
    intro d i hd
    simp only [State.pending, State.fail, hc, HashMap.get_remove] at hd ⊢
    split_ifs at hd
    · simp at hd
    · exact hd

/-- A call that moves on. -/
theorem quiet_goto {l : Label} {c : ℕ} {call : Call} {u : State} (hs : u.store = s.store)
    (hh : u.history = s.history) (hc : u.calls = s.calls.insert c call)
    (hpresented : ∀ i, call.presented = some i →
      (∃ call', s.calls.get c = some call' ∧ call'.presented = some i) ∨
      s.store.entriesByHash.get (m.hash i.refreshToken) = some i.entry)
    (hflow : ∀ r entry newEntry pair, call = .updating r entry newEntry pair →
      newEntry.flowId = entry.flowId)
    (hpending : (∀ c i, u.pending c = some i → s.pending c = some i) ∧ s.jtis ⊆ u.jtis ∧
        s.refreshTokens ⊆ u.refreshTokens ∨
      ∃ c i, u.pending = Function.update s.pending c (some i) ∧ u.jtis = i.entry.id :: s.jtis ∧
        u.refreshTokens = i.refreshToken :: s.refreshTokens ∧
        i.entry.hashedRefreshToken = m.hash i.refreshToken ∧
        (FreshDraws s l u → i.entry.id ∉ s.jtis ∧ i.refreshToken ∉ s.refreshTokens)) :
          Quiet m s l u where
  store_eq := hs
  history_eq := Or.inl hh
  presented := by
    intro d other i hd hi
    rw [hc] at hd
    rcases HashMap.get_insert_eq_some hd with ⟨rfl, rfl⟩ | ⟨-, hsame⟩
    · exact hpresented i hi
    · exact Or.inl ⟨other, hsame, hi⟩
  flow := by
    intro d r entry newEntry pair hd
    rw [hc] at hd
    rcases HashMap.get_insert_eq_some hd with ⟨-, hcall⟩ | ⟨-, hsame⟩
    · exact Or.inr (hflow r entry newEntry pair hcall.symm)
    · exact Or.inl hsame
  pending := hpending

/-- A call that moves on with an issue made from drawn values. -/
theorem quiet_drawn {l : Label} {c : ℕ} {call : Call} {env : CallEnv} {i : Issue}
    (hprepared : call.prepared = some i) (hid : i.entry.id = env.jti)
    (hhash : i.entry.hashedRefreshToken = m.hash env.refreshToken)
    (hrefresh : i.refreshToken = env.refreshToken)
    (hpresented : ∀ i, call.presented = some i →
      (∃ call', s.calls.get c = some call' ∧ call'.presented = some i) ∨
      s.store.entriesByHash.get (m.hash i.refreshToken) = some i.entry)
    (hflow : ∀ r entry newEntry pair, call = .updating r entry newEntry pair →
      newEntry.flowId = entry.flowId)
    (hfresh : FreshDraws s l { s.drawing env with calls := s.calls.insert c call } →
      env.jti ∉ s.jtis ∧ env.refreshToken ∉ s.refreshTokens) :
    Quiet m s l { s.drawing env with calls := s.calls.insert c call } := by
  refine quiet_goto rfl rfl rfl hpresented hflow (Or.inr ⟨c, i, ?_, ?_, ?_, ?_, ?_⟩)
  · rw [← hprepared]
    exact pending_insert s c call
  · simp [State.drawing, hid]
  · simp [State.drawing, hrefresh]
  · rw [hhash, hrefresh]
  · rw [hid, hrefresh]
    exact hfresh

/-! ### One step of each kind -/

theorem next_renew {c : ℕ} {b r : String} (h : next m s (.renew c b r) = some t) :
    (∃ e, t = s.fail c e) ∨ ∃ entry, m.renewLookup s.store r = .ok entry ∧
      t = { s with calls := s.calls.insert c (.verifying b r entry) } := by
  simp only [next] at h
  cases hc : s.calls.get c with
  | some call => simp [hc] at h
  | none =>
    cases hl : m.renewLookup s.store r with
    | error e =>
      simp only [hc, hl, Option.some.injEq] at h
      exact Or.inl ⟨e, h.symm⟩
    | ok entry =>
      simp only [hc, hl, Option.some.injEq] at h
      exact Or.inr ⟨entry, rfl, h.symm⟩

theorem next_verify {c : ℕ} {env : CallEnv} (h : next m s (.verify c env) = some t) :
    (∃ e, t = (s.drawing env).fail c e) ∨ ∃ b r entry newEntry pair,
      s.calls.get c = some (.verifying b r entry) ∧
      m.renewPrepare env entry b = .ok (newEntry, pair) ∧
      t = { s.drawing env with calls := s.calls.insert c (.updating r entry newEntry pair) } := by
  simp only [next] at h
  cases hc : s.calls.get c with
  | none => simp [hc] at h
  | some call =>
    cases call with
    | updating r entry newEntry pair => simp [hc] at h
    | saving entry pair => simp [hc] at h
    | verifying b r entry =>
      cases hp : m.renewPrepare env entry b with
      | error e =>
        simp only [hc, hp, Option.some.injEq] at h
        exact Or.inl ⟨e, h.symm⟩
      | ok prepared =>
        obtain ⟨newEntry, pair⟩ := prepared
        simp only [hc, hp, Option.some.injEq] at h
        exact Or.inr ⟨b, r, entry, newEntry, pair, rfl, hp, h.symm⟩

theorem next_update {c : ℕ} (h : next m s (.update c) = some t) :
    (∃ e, t = s.fail c e) ∨ ∃ r entry newEntry pair old,
      s.calls.get c = some (.updating r entry newEntry pair) ∧
      s.store.entriesByHash.get (m.hash r) = some old ∧ t = { s with
        store := (s.store.update (m.hash r) newEntry).2
        calls := s.calls.remove c
        history := .renewed c ⟨entry, r⟩ ⟨newEntry, pair.refreshToken⟩ :: s.history } := by
  simp only [next] at h
  cases hc : s.calls.get c with
  | none => simp [hc] at h
  | some call =>
    cases call with
    | verifying b r entry => simp [hc] at h
    | saving entry pair => simp [hc] at h
    | updating r entry newEntry pair =>
      rcases update_cases s.store (m.hash r) newEntry with ⟨-, hu⟩ | ⟨old, hg, hu⟩
      · simp only [hc, JwtTokenManager.renewUpdate, hu, Option.some.injEq] at h
        exact Or.inl ⟨_, h.symm⟩
      · simp only [hc, JwtTokenManager.renewUpdate, hu, Option.some.injEq] at h
        exact Or.inr ⟨r, entry, newEntry, pair, old, rfl, hg, by rw [← h, hu]⟩

theorem next_generatePair {c : ℕ} {env : CallEnv} {pc : ParticipantContext} {subject : String}
    {claims : HashMap String Value} {f : String}
    (h : next m s (.generatePair c env pc subject claims f) = some t) :
    (∃ e, t = (s.drawing env).fail c e) ∨
      ∃ entry pair, m.preparePair env pc subject claims f = .ok (entry, pair) ∧
      t = { s.drawing env with calls := s.calls.insert c (.saving entry pair) } := by
  simp only [next] at h
  cases hc : s.calls.get c with
  | some call => simp [hc] at h
  | none =>
    cases hp : m.preparePair env pc subject claims f with
    | error e =>
      simp only [hc, hp, Option.some.injEq] at h
      exact Or.inl ⟨e, h.symm⟩
    | ok prepared =>
      obtain ⟨entry, pair⟩ := prepared
      simp only [hc, hp, Option.some.injEq] at h
      exact Or.inr ⟨entry, pair, rfl, h.symm⟩

theorem next_save {c : ℕ} (h : next m s (.save c) = some t) :
    ∃ entry pair, s.calls.get c = some (.saving entry pair) ∧ t = { s with
      store := s.store.save entry
      calls := s.calls.remove c
      history := .generated c ⟨entry, pair.refreshToken⟩ :: s.history } := by
  simp only [next] at h
  cases hc : s.calls.get c with
  | none => simp [hc] at h
  | some call =>
    cases call with
    | verifying b r entry => simp [hc] at h
    | updating r entry newEntry pair => simp [hc] at h
    | saving entry pair =>
      simp only [hc, Option.some.injEq] at h
      exact ⟨entry, pair, rfl, h.symm⟩

theorem next_revokeToken {pc : ParticipantContext} {f : String}
    (h : next m s (.revokeToken pc f) = some t) :
    t = s ∨ ∃ e, s.store.entriesByFlowId.get f = some e ∧ t = { s with
      store := (s.store.removeByFlowId f).2
      history := .revoked f :: s.history } := by
  simp only [next, JwtTokenManager.revokeToken] at h
  rcases removeByFlowId_cases s.store f with ⟨-, hr⟩ | ⟨e, hg, hr⟩
  · simp only [hr, Option.some.injEq] at h
    exact Or.inl h.symm
  · simp only [hr, Option.some.injEq] at h
    exact Or.inr ⟨e, hg, by rw [← h, hr]⟩

/-! ### Quiet steps -/

theorem quiet_refl (l : Label) : Quiet m s l s :=
  ⟨rfl, Or.inl rfl, fun _ call _ hc hi => Or.inl ⟨call, hc, hi⟩, fun _ _ _ _ _ hc => Or.inl hc,
    Or.inl ⟨fun _ _ hc => hc, fun _ hx => hx, fun _ hx => hx⟩⟩

theorem quiet_renew {c : ℕ} {b r : String} (h : next m s (.renew c b r) = some t) :
    Quiet m s (.renew c b r) t := by
  rcases next_renew h with ⟨e, rfl⟩ | ⟨entry, hl, rfl⟩
  · exact quiet_fail rfl rfl rfl (fun x hx => hx) (fun x hx => hx)
  · refine quiet_goto rfl rfl rfl ?_ (by simp) (Or.inl ⟨?_, fun x hx => hx, fun x hx => hx⟩)
    · intro i hi
      obtain rfl := Option.some.inj hi
      exact Or.inr (JwtTokenManager.renewLookup_eq_ok.mp hl)
    · intro d i hd
      simp only [State.pending, HashMap.get_insert] at hd ⊢
      split_ifs at hd
      · simp [Call.prepared] at hd
      · exact hd

theorem quiet_verify {c : ℕ} {env : CallEnv} (h : next m s (.verify c env) = some t) :
    Quiet m s (.verify c env) t := by
  rcases next_verify h with ⟨e, rfl⟩ | ⟨b, r, entry, newEntry, pair, hc, hp, rfl⟩
  · exact quiet_fail rfl rfl rfl (by simp [State.drawing]) (by simp [State.drawing])
  · obtain ⟨hid, hhash, hflow, -, hrefresh, -⟩ := JwtTokenManager.renewPrepare_ok hp
    refine quiet_drawn rfl hid hhash hrefresh ?_ ?_ fun hfresh => hfresh
    · intro i hi
      exact Or.inl ⟨.verifying b r entry, hc, hi⟩
    · intro r' entry' newEntry' pair' hcall
      obtain ⟨-, rfl, rfl, -⟩ := Call.updating.inj hcall
      exact hflow

theorem quiet_generatePair {c : ℕ} {env : CallEnv} {pc : ParticipantContext} {subject : String}
    {claims : HashMap String Value} {f : String}
    (h : next m s (.generatePair c env pc subject claims f) = some t) :
    Quiet m s (.generatePair c env pc subject claims f) t := by
  rcases next_generatePair h with ⟨e, rfl⟩ | ⟨entry, pair, hp, rfl⟩
  · exact quiet_fail rfl rfl rfl (by simp [State.drawing]) (by simp [State.drawing])
  · obtain ⟨hid, hhash, -, -, hrefresh, -⟩ := JwtTokenManager.preparePair_ok hp
    exact quiet_drawn rfl hid hhash hrefresh (by simp [Call.presented])
      (by simp) fun hfresh => hfresh

/-- The four kinds of step. -/
theorem next_cases {l : Label} (h : next m s l = some t) :
    Quiet m s l t ∨
      (∃ c i, s.pending c = some i ∧ t = { s with
        store := s.store.save i.entry
        calls := s.calls.remove c
        history := .generated c i :: s.history }) ∨
      (∃ c r entry newEntry pair old, s.calls.get c = some (.updating r entry newEntry pair) ∧
        s.store.entriesByHash.get (m.hash r) = some old ∧ t = { s with
          store := (s.store.update (m.hash r) newEntry).2
          calls := s.calls.remove c
          history := .renewed c ⟨entry, r⟩ ⟨newEntry, pair.refreshToken⟩ :: s.history }) ∨
      ∃ f e, s.store.entriesByFlowId.get f = some e ∧ t = { s with
        store := (s.store.removeByFlowId f).2
        history := .revoked f :: s.history } := by
  cases l with
  | renew c b r => exact Or.inl (quiet_renew h)
  | verify c env => exact Or.inl (quiet_verify h)
  | generatePair c env pc subject claims f => exact Or.inl (quiet_generatePair h)
  | update c =>
    rcases next_update h with ⟨e, rfl⟩ | ⟨r, entry, newEntry, pair, old, hc, hg, ht⟩
    · exact Or.inl (quiet_fail rfl rfl rfl (fun x hx => hx) (fun x hx => hx))
    · exact Or.inr (Or.inr (Or.inl ⟨c, r, entry, newEntry, pair, old, hc, hg, ht⟩))
  | save c =>
    obtain ⟨entry, pair, hc, ht⟩ := next_save h
    refine Or.inr (Or.inl ⟨c, ⟨entry, pair.refreshToken⟩, ?_, ht⟩)
    simp [State.pending, hc, Call.prepared]
  | revokeToken pc f =>
    rcases next_revokeToken h with rfl | ⟨e, hg, ht⟩
    · exact Or.inl (quiet_refl _)
    · exact Or.inr (Or.inr (Or.inr ⟨f, e, hg, ht⟩))

end Steps

/-! ## The invariant of all runs -/

/-- Events after which an entry may be gone. -/
def Event.retires (x : RenewableTokenEntry) : Event → Prop
  | .renewed _ old _ => old.entry = x
  | .revoked flowId => flowId = x.flowId
  | _ => False

/-- A renewed entry is live until something retires it. -/
def State.Kept (s : State) : Prop := ∀ later c old new earlier,
  s.history = later ++ .renewed c old new :: earlier →
    (∃ ev ∈ later, ev.retires new.entry) ∨ s.store.Live new.entry

structure Inv (m : JwtTokenManager) (s : State) : Prop where
  ledger : Ledger m.hash s.store s.issued s.pending s.jtis s.refreshTokens
  held : ∀ c call i, s.calls.get c = some call → call.presented = some i → i ∈ s.issued
  flow_kept : ∀ c r entry newEntry pair,
    s.calls.get c = some (.updating r entry newEntry pair) → newEntry.flowId = entry.flowId
  spent : ∀ c old new, .renewed c old new ∈ s.history → old ∈ s.issued ∧ ¬ s.store.Live old.entry
  once : (s.history.filterMap Event.exchanged).Nodup
  kept : s.Kept

section Invariant
variable {m : JwtTokenManager} {s t : State} {l : Label}

/-- The compare-and-swap finds exactly the entry that the lookup had found. -/
theorem Inv.found (h : Inv m s) (hinj : Function.Injective m.hash) {c : ℕ} {r : String}
    {entry newEntry old : RenewableTokenEntry} {pair : RenewableTokenPair}
    (hc : s.calls.get c = some (.updating r entry newEntry pair))
    (hg : s.store.entriesByHash.get (m.hash r) = some old) :
    old = entry ∧ s.store.Live entry ∧ (⟨entry, r⟩ : Issue) ∈ s.issued := by
  have hi : (⟨entry, r⟩ : Issue) ∈ s.issued := h.held c _ _ hc rfl
  obtain ⟨rfl, hl⟩ := h.ledger.entry_of_hash hinj hi hg
  exact ⟨rfl, hl, hi⟩

/-- An entry that a lookup finds under the hash of a refresh token was issued with it. -/
theorem Inv.issued_of_get (h : Inv m s) (hinj : Function.Injective m.hash) {i : Issue}
    (hg : s.store.entriesByHash.get (m.hash i.refreshToken) = some i.entry) : i ∈ s.issued := by
  have hk := (h.ledger.synced.byHash _ _ hg).1
  have hl : s.store.Live i.entry := by rw [Live, hk, hg]
  obtain ⟨j, hj, he⟩ := h.ledger.live_issued _ hl
  have hr : j.refreshToken = i.refreshToken := by
    apply hinj
    rw [← (h.ledger.issued_ok j hj).1, he, hk]
  obtain ⟨e, r⟩ := i
  obtain ⟨e', r'⟩ := j
  simp only at he hr
  rwa [← he, ← hr]

theorem pending_updating {c : ℕ} {r : String} {entry newEntry : RenewableTokenEntry}
    {pair : RenewableTokenPair} (hc : s.calls.get c = some (.updating r entry newEntry pair)) :
    s.pending c = some ⟨newEntry, pair.refreshToken⟩ := by
  simp [State.pending, hc, Call.prepared]

/-- What is live after a step was live before or is an entry that the step stored. -/
theorem Inv.live_of_step (h : Inv m s) (hinj : Function.Injective m.hash) (hn : next m s l = some t)
    {x : RenewableTokenEntry} (hx : t.store.Live x) :
    s.store.Live x ∨ ∃ c i, s.pending c = some i ∧ i.entry = x := by
  rcases next_cases hn with hq | ⟨c, i, hp, rfl⟩ | ⟨c, r, entry, newEntry, pair, old, hc,
    hg, rfl⟩ | ⟨f, e, hg, rfl⟩
  · rw [hq.store_eq] at hx
    exact Or.inl hx
  · rcases (live_save (h.ledger.fresh hinj hp)).mp hx with rfl | hx
    · exact Or.inr ⟨c, i, hp, rfl⟩
    · exact Or.inl hx
  · have hp := pending_updating hc
    rcases (live_update h.ledger.synced hg (h.ledger.fresh hinj hp)).mp hx with rfl | ⟨hx, -⟩
    · exact Or.inr ⟨c, _, hp, rfl⟩
    · exact Or.inl hx
  · exact Or.inl ((live_remove h.ledger.synced hg).mp hx).1

/-- An issued entry that is gone never comes back. -/
theorem Inv.dead_of_step (h : Inv m s) (hinj : Function.Injective m.hash) (hn : next m s l = some t)
    {i : Issue} (hi : i ∈ s.issued) (hdead : ¬ s.store.Live i.entry) :
    ¬ t.store.Live i.entry := by
  intro hx
  rcases h.live_of_step hinj hn hx with hx | ⟨c, j, hp, he⟩
  · exact hdead hx
  · exact (h.ledger.pending_new c j hp i hi).1 (by rw [he])

theorem Inv.ledger_step (h : Inv m s) (hinj : Function.Injective m.hash) (hn : next m s l = some t)
    (hf : FreshDraws s l t) : Ledger m.hash t.store t.issued t.pending t.jtis t.refreshTokens := by
  have hL := h.ledger
  rcases next_cases hn with hq | ⟨c, i, hp, rfl⟩ | ⟨c, r, entry, newEntry, pair, old, hc,
    hg, rfl⟩ | ⟨f, e, hg, rfl⟩
  · have hissued : t.issued = s.issued := by
      rcases hq.history_eq with hh | ⟨c, e, hh⟩
      · simp [State.issued, hh]
      · simp [State.issued, hh, List.filterMap_cons, Event.issue]
    rw [hissued, hq.store_eq]
    rcases hq.pending with ⟨hp, hj, hr⟩ | ⟨c, i, hp, hj, hr, hhash, hfresh⟩
    · exact hL.shrink hL.synced (fun x hx => hx) hp hj hr
    · obtain ⟨hid, hrt⟩ := hfresh hf
      rw [hp, hj, hr]
      exact hL.draw c hhash hid hrt
  · have hF := hL.fresh hinj hp
    have hcommit := hL.commit hp (hL.synced.save hF) (fun x hx => (live_save hF).mp hx)
    rwa [← pending_remove s c] at hcommit
  · have hp := pending_updating hc
    have hF := hL.fresh hinj hp
    have hflow : ∀ old', s.store.entriesByHash.get (m.hash r) = some old' →
        newEntry.flowId = old'.flowId := by
      intro old' hg'
      rw [(h.found hinj hc hg').1]
      exact h.flow_kept c r entry newEntry pair hc
    have hcommit := hL.commit hp (hL.synced.update (k := m.hash r) hF hflow) (by
      intro x hx
      rcases (live_update hL.synced hg hF).mp hx with rfl | ⟨hx, -⟩
      · exact Or.inl rfl
      · exact Or.inr hx)
    rwa [← pending_remove s c] at hcommit
  · apply hL.shrink (hL.synced.remove f) ?_ (fun c i hc => hc) (fun x hx => hx) (fun x hx => hx)
    intro x hx
    exact ((live_remove hL.synced hg).mp hx).1

theorem Inv.issued_step (hn : next m s l = some t) : s.issued ⊆ t.issued := by
  intro i hi
  rcases next_cases hn with hq | ⟨c, j, -, rfl⟩ | ⟨c, r, entry, newEntry, pair, old, -,
    -, rfl⟩ | ⟨f, e, -, rfl⟩
  · rcases hq.history_eq with hh | ⟨c, e, hh⟩
    · simpa [State.issued, hh] using hi
    · simpa [State.issued, hh, List.filterMap_cons, Event.issue] using hi
  · exact List.mem_cons_of_mem _ hi
  · exact List.mem_cons_of_mem _ hi
  · exact hi

theorem Inv.held_step (h : Inv m s) (hinj : Function.Injective m.hash) (hn : next m s l = some t) :
    ∀ c call i, t.calls.get c = some call → call.presented = some i → i ∈ t.issued := by
  intro c call i hc hi
  apply Inv.issued_step hn
  have hremoved : ∀ d, (s.calls.remove d).get c = some call → i ∈ s.issued := by
    intro d hd
    simp only [HashMap.get_remove] at hd
    split_ifs at hd
    exact h.held c call i hd hi
  rcases next_cases hn with hq | ⟨d, j, -, rfl⟩ | ⟨d, r, entry, newEntry, pair, old, -,
    -, rfl⟩ | ⟨f, e, -, rfl⟩
  · rcases hq.presented c call i hc hi with ⟨call', hc', hi'⟩ | hg
    · exact h.held c call' i hc' hi'
    · exact h.issued_of_get hinj hg
  · exact hremoved d hc
  · exact hremoved d hc
  · exact h.held c call i hc hi

theorem Inv.flow_kept_step (h : Inv m s) (hn : next m s l = some t) :
    ∀ c r entry newEntry pair, t.calls.get c = some (.updating r entry newEntry pair) →
      newEntry.flowId = entry.flowId := by
  intro c r entry newEntry pair hc
  have hremoved : ∀ d, (s.calls.remove d).get c = some (.updating r entry newEntry pair) →
      newEntry.flowId = entry.flowId := by
    intro d hd
    simp only [HashMap.get_remove] at hd
    split_ifs at hd
    exact h.flow_kept c r entry newEntry pair hd
  rcases next_cases hn with hq | ⟨d, j, -, rfl⟩ | ⟨d, r', entry', newEntry', pair', old, -,
    -, rfl⟩ | ⟨f, e, -, rfl⟩
  · rcases hq.flow c r entry newEntry pair hc with hc | hflow
    · exact h.flow_kept c r entry newEntry pair hc
    · exact hflow
  · exact hremoved d hc
  · exact hremoved d hc
  · exact h.flow_kept c r entry newEntry pair hc

/-- The refresh token of a compare-and-swap that succeeds was not exchanged before. -/
theorem Inv.unspent (h : Inv m s) (hinj : Function.Injective m.hash) {c : ℕ} {r : String}
    {entry newEntry old : RenewableTokenEntry} {pair : RenewableTokenPair}
    (hc : s.calls.get c = some (.updating r entry newEntry pair))
    (hg : s.store.entriesByHash.get (m.hash r) = some old) :
    r ∉ s.history.filterMap Event.exchanged := by
  obtain ⟨-, hl, hi⟩ := h.found hinj hc hg
  intro hr
  obtain ⟨ev, hev, he⟩ := List.mem_filterMap.mp hr
  cases ev with
  | generated d i => simp [Event.exchanged] at he
  | failed d e => simp [Event.exchanged] at he
  | revoked f => simp [Event.exchanged] at he
  | renewed d old' new' =>
    simp only [Event.exchanged, Option.some.injEq] at he
    obtain ⟨hi', hdead⟩ := h.spent d old' new' hev
    obtain rfl := h.ledger.issued_unique old' hi' _ hi (Or.inr he)
    exact hdead hl

theorem Inv.spent_step (h : Inv m s) (hinj : Function.Injective m.hash) (hn : next m s l = some t) :
    ∀ c old new, .renewed c old new ∈ t.history → old ∈ t.issued ∧ ¬ t.store.Live old.entry := by
  intro c old new hmem
  have hearlier : .renewed c old new ∈ s.history → old ∈ t.issued ∧ ¬ t.store.Live old.entry := by
    intro hs
    obtain ⟨hi, hdead⟩ := h.spent c old new hs
    exact ⟨Inv.issued_step hn hi, h.dead_of_step hinj hn hi hdead⟩
  rcases next_cases hn with hq | ⟨d, j, -, rfl⟩ | ⟨d, r, entry, newEntry, pair, old', hc,
    hg, rfl⟩ | ⟨f, e, -, rfl⟩
  · rcases hq.history_eq with hh | ⟨d, e, hh⟩
    · exact hearlier (hh ▸ hmem)
    · simp only [hh, List.mem_cons, reduceCtorEq, false_or] at hmem
      exact hearlier hmem
  · simp only [List.mem_cons, reduceCtorEq, false_or] at hmem
    exact hearlier hmem
  · rcases List.mem_cons.mp hmem with heq | hmem
    · obtain ⟨rfl, rfl, rfl⟩ := Event.renewed.inj heq
      obtain ⟨rfl, hl, hi⟩ := h.found hinj hc hg
      refine ⟨Inv.issued_step hn hi, fun hx => ?_⟩
      have hp := pending_updating hc
      rcases (live_update h.ledger.synced hg (h.ledger.fresh hinj hp)).mp hx with hx | ⟨-, hne⟩
      · exact (h.ledger.pending_new _ _ hp _ hi).1 (by rw [hx])
      · exact hne rfl
    · exact hearlier hmem
  · simp only [List.mem_cons, reduceCtorEq, false_or] at hmem
    exact hearlier hmem

theorem Inv.once_step (h : Inv m s) (hinj : Function.Injective m.hash) (hn : next m s l = some t) :
    (t.history.filterMap Event.exchanged).Nodup := by
  rcases next_cases hn with hq | ⟨c, i, -, rfl⟩ | ⟨c, r, entry, newEntry, pair, old, hc,
    hg, rfl⟩ | ⟨f, e, -, rfl⟩
  · rcases hq.history_eq with hh | ⟨c, e, hh⟩
    · rw [hh]
      exact h.once
    · rw [hh]
      exact h.once
  · exact h.once
  · exact List.nodup_cons.mpr ⟨h.unspent hinj hc hg, h.once⟩
  · exact h.once

/-- Adding an event that retires every entry the step takes away. -/
theorem State.Kept.cons (h : s.Kept) {ev : Event} (hh : t.history = ev :: s.history)
    (hlive : ∀ x, s.store.Live x → ev.retires x ∨ t.store.Live x)
    (hnew : ∀ c old new, ev = .renewed c old new → t.store.Live new.entry) : t.Kept := by
  intro later c old new earlier hsplit
  rw [hh] at hsplit
  rcases List.cons_eq_append_iff.mp hsplit with ⟨rfl, hfirst⟩ | ⟨later', rfl, hsplit'⟩
  · exact Or.inr (hnew c old new (List.cons.inj hfirst).1.symm)
  · rcases h later' c old new earlier hsplit' with ⟨ev', hev', hr⟩ | hl
    · exact Or.inl ⟨ev', List.mem_cons_of_mem _ hev', hr⟩
    · rcases hlive new.entry hl with hr | hl
      · exact Or.inl ⟨ev, by simp, hr⟩
      · exact Or.inr hl

theorem Inv.kept_step (h : Inv m s) (hinj : Function.Injective m.hash)
    (hn : next m s l = some t) : t.Kept := by
  rcases next_cases hn with hq | ⟨c, i, hp, rfl⟩ | ⟨c, r, entry, newEntry, pair, old, hc,
    hg, rfl⟩ | ⟨f, e, hg, rfl⟩
  · rcases hq.history_eq with hh | ⟨c, e, hh⟩
    · intro later c old new earlier hsplit
      rw [hq.store_eq]
      exact h.kept later c old new earlier (hh ▸ hsplit)
    · apply h.kept.cons hh
      · intro x hx
        rw [hq.store_eq]
        exact Or.inr hx
      · intro c' old new hev
        exact absurd hev (by simp)
  · apply h.kept.cons rfl
    · intro x hx
      exact Or.inr ((live_save (h.ledger.fresh hinj hp)).mpr (Or.inr hx))
    · intro c' old new hev
      exact absurd hev (by simp)
  · have hlive :=
      fun x => live_update (x := x) h.ledger.synced hg (h.ledger.fresh hinj (pending_updating hc))
    obtain ⟨rfl, -, -⟩ := h.found hinj hc hg
    apply h.kept.cons rfl
    · intro x hx
      by_cases hxo : old = x
      · exact Or.inl hxo
      · exact Or.inr ((hlive x).mpr (Or.inr ⟨hx, fun he => hxo he.symm⟩))
    · intro c' old' new hev
      obtain ⟨-, -, rfl⟩ := Event.renewed.inj hev
      exact (hlive _).mpr (Or.inl rfl)
  · apply h.kept.cons rfl
    · intro x hx
      by_cases hxe : x = e
      · subst hxe
        exact Or.inl (h.ledger.synced.byFlow f x hg).1.symm
      · exact Or.inr ((live_remove h.ledger.synced hg).mpr ⟨hx, hxe⟩)
    · intro c' old new hev
      exact absurd hev (by simp)

theorem Inv.step (h : Inv m s) (hinj : Function.Injective m.hash) (hn : next m s l = some t)
    (hf : FreshDraws s l t) : Inv m t where
  ledger := h.ledger_step hinj hn hf
  held := h.held_step hinj hn
  flow_kept := h.flow_kept_step hn
  spent := h.spent_step hinj hn
  once := h.once_step hinj hn
  kept := h.kept_step hinj hn

theorem Inv.of_init (h : (machine m).init s) : Inv m s := by
  obtain ⟨hs, hc, hh⟩ := h
  have hp : s.pending = fun _ => none := by
    funext c
    simp [State.pending, hc]
  have hi : s.issued = [] := by simp [State.issued, hh]
  refine ⟨?_, ?_, ?_, ?_, ?_, ?_⟩
  · rw [hs, hp, hi]
    exact Ledger.initial
  · simp [hc]
  · simp [hc]
  · simp [hh]
  · simp [hh]
  · simp [State.Kept, hh]

theorem Inv.of_reach (hinj : Function.Injective m.hash)
    (h : Machine.Reach (machine m) FreshDraws s) : Inv m s :=
  h.invariant (fun _ => Inv.of_init) fun _ _ _ ha hn hf => ha.step hinj hn hf

end Invariant

/-! ## Flows with a single generation -/

def NoLive (store : InnerStore) (f : String) : Prop := ∀ x, store.Live x → x.flowId ≠ f

structure FlowInv (f : String) (s : State) : Prop where
  none_before : s.generations f = 0 → NoLive s.store f
  sole : s.generations f ≤ 1 → s.store.Sole f
  revoked_after : .revoked f ∈ s.history → 1 ≤ s.generations f
  none_revoked : .revoked f ∈ s.history → s.generations f ≤ 1 → NoLive s.store f

section Flow
variable {m : JwtTokenManager} {s t : State} {l : Label} {f : String}

theorem generations_cons {ev : Event} (hh : t.history = ev :: s.history) :
    t.generations f = s.generations f + if ev.generatedFor f then 1 else 0 := by
  simp [State.generations, hh, List.countP_cons]

theorem NoLive.index (h : NoLive s.store f) (hs : s.store.Synced) :
    s.store.entriesByFlowId.get f = none := by
  cases hg : s.store.entriesByFlowId.get f with
  | none => rfl
  | some e =>
    obtain ⟨hf, hl⟩ := hs.byFlow f e hg
    exact absurd hf (h e hl)

theorem FlowInv.quiet (h : FlowInv f s) (hq : Quiet m s l t) : FlowInv f t := by
  have hgen : t.generations f = s.generations f := by
    rcases hq.history_eq with hh | ⟨c, e, hh⟩
    · simp [State.generations, hh]
    · simp [generations_cons hh, Event.generatedFor]
  have hrev : .revoked f ∈ t.history → .revoked f ∈ s.history := by
    rcases hq.history_eq with hh | ⟨c, e, hh⟩
    · simp [hh]
    · simp [hh]
  constructor
  · rw [hgen, hq.store_eq]
    exact h.none_before
  · rw [hgen, hq.store_eq]
    exact h.sole
  · rw [hgen]
    exact fun hr => h.revoked_after (hrev hr)
  · rw [hgen, hq.store_eq]
    exact fun hr => h.none_revoked (hrev hr)

/-- Saving counts as a generation of the entry's own flow. -/
theorem FlowInv.save (h : FlowInv f s) (hs : s.store.Synced) {c : ℕ} {i : Issue}
    (hF : s.store.Fresh i.entry) (hst : t.store = s.store.save i.entry)
    (hh : t.history = .generated c i :: s.history) : FlowInv f t := by
  have hgen := generations_cons (f := f) hh
  simp only [Event.generatedFor, decide_eq_true_eq] at hgen
  have hrev : .revoked f ∈ t.history → .revoked f ∈ s.history := by simp [hh]
  have hnone : i.entry.flowId ≠ f → NoLive s.store f → NoLive t.store f := by
    intro hne hn x hx
    rw [hst, live_save hF] at hx
    rcases hx with rfl | hx
    · exact hne
    · exact hn x hx
  by_cases hif : i.entry.flowId = f
  · rw [if_pos hif] at hgen
    constructor
    · omega
    · intro hle
      rw [hst]
      have hzero : s.generations f = 0 := by omega
      exact (h.sole (by omega)).save hF fun _ => (h.none_before hzero).index hs
    · omega
    · intro hr hle
      have := h.revoked_after (hrev hr)
      omega
  · rw [if_neg hif, Nat.add_zero] at hgen
    constructor
    · rw [hgen]
      exact fun hz => hnone hif (h.none_before hz)
    · rw [hgen, hst]
      exact fun hle => (h.sole hle).save hF fun he => absurd he hif
    · rw [hgen]
      exact fun hr => h.revoked_after (hrev hr)
    · rw [hgen]
      exact fun hr hle => hnone hif (h.none_revoked (hrev hr) hle)

theorem FlowInv.update (h : FlowInv f s) (hs : s.store.Synced) {k : String} {c : ℕ} {i j : Issue}
    {old : RenewableTokenEntry} (hg : s.store.entriesByHash.get k = some old)
    (hF : s.store.Fresh j.entry) (hflow : j.entry.flowId = old.flowId)
    (hst : t.store = (s.store.update k j.entry).2) (hh : t.history = .renewed c i j :: s.history) :
    FlowInv f t := by
  have hgen : t.generations f = s.generations f := by simp [generations_cons hh, Event.generatedFor]
  have hrev : .revoked f ∈ t.history → .revoked f ∈ s.history := by simp [hh]
  have hold : s.store.Live old := by rw [Live, (hs.byHash k old hg).1, hg]
  have hnone : NoLive s.store f → NoLive t.store f := by
    intro hn x hx
    rw [hst, live_update hs hg hF] at hx
    rcases hx with rfl | ⟨hx, -⟩
    · rw [hflow]
      exact hn old hold
    · exact hn x hx
  constructor
  · rw [hgen]
    exact fun hz => hnone (h.none_before hz)
  · rw [hgen, hst]
    intro hle
    apply (h.sole hle).update hs hF
    intro old' hg'
    rw [hflow, Option.some.inj (hg.symm.trans hg')]
  · rw [hgen]
    exact fun hr => h.revoked_after (hrev hr)
  · rw [hgen]
    exact fun hr hle => hnone (h.none_revoked (hrev hr) hle)

theorem FlowInv.remove (h : FlowInv f s) (hs : s.store.Synced) {g : String}
    {e : RenewableTokenEntry} (hg : s.store.entriesByFlowId.get g = some e)
    (hst : t.store = (s.store.removeByFlowId g).2) (hh : t.history = .revoked g :: s.history) :
    FlowInv f t := by
  have hgen : t.generations f = s.generations f := by simp [generations_cons hh, Event.generatedFor]
  have hrev : g ≠ f → .revoked f ∈ t.history → .revoked f ∈ s.history := by
    intro hne
    simp [hh, Ne.symm hne]
  have hnone : NoLive s.store f → NoLive t.store f := by
    intro hn x hx
    rw [hst, live_remove hs hg] at hx
    exact hn x hx.1
  obtain ⟨hef, hel⟩ := hs.byFlow g e hg
  constructor
  · rw [hgen]
    exact fun hz => hnone (h.none_before hz)
  · rw [hgen, hst]
    exact fun hle => (h.sole hle).remove hs g
  · rw [hgen]
    intro hr
    by_cases hgf : g = f
    · have hne : s.generations f ≠ 0 := fun hz => h.none_before hz e hel (hef.trans hgf)
      omega
    · exact h.revoked_after (hrev hgf hr)
  · rw [hgen]
    intro hr hle
    by_cases hgf : g = f
    · subst hgf
      rw [hst]
      apply (h.sole hle).no_live_after_remove hs
      rcases removeByFlowId_cases s.store g with ⟨hn, -⟩ | ⟨e', -, he⟩
      · exact absurd (hn.symm.trans hg) (by simp)
      · rw [he]
    · exact hnone (h.none_revoked (hrev hgf hr) hle)

theorem FlowInv.step (h : FlowInv f s) (hinv : Inv m s) (hinj : Function.Injective m.hash)
    (hn : next m s l = some t) : FlowInv f t := by
  have hs := hinv.ledger.synced
  rcases next_cases hn with hq | ⟨c, i, hp, rfl⟩ | ⟨c, r, entry, newEntry, pair, old, hc,
    hg, rfl⟩ | ⟨g, e, hg, rfl⟩
  · exact h.quiet hq
  · exact h.save hs (hinv.ledger.fresh hinj hp) rfl rfl
  · have hF := hinv.ledger.fresh hinj (pending_updating hc)
    have hflow : newEntry.flowId = old.flowId := by
      rw [(hinv.found hinj hc hg).1]
      exact hinv.flow_kept c r entry newEntry pair hc
    exact h.update hs (j := ⟨newEntry, pair.refreshToken⟩) hg hF hflow rfl rfl
  · exact h.remove hs hg rfl rfl

theorem FlowInv.of_reach (hinj : Function.Injective m.hash)
    (h : Machine.Reach (machine m) FreshDraws s) : FlowInv f s := by
  have hboth : Inv m s ∧ FlowInv f s := by
    refine h.invariant (P := fun s => Inv m s ∧ FlowInv f s) ?_ ?_
    · intro s₀ h₀
      refine ⟨Inv.of_init h₀, ?_⟩
      obtain ⟨hs, -, hh⟩ := h₀
      have hnone : NoLive s₀.store f := by
        intro x hx
        simp [hs, Live, InnerStore.empty] at hx
      exact ⟨fun _ => hnone, fun _ x hx hxf => absurd hxf (hnone x hx), by simp [hh], by simp [hh]⟩
    · intro a l b ha hn hf
      exact ⟨ha.1.step hinj hn hf, ha.2.step ha.1 hinj hn⟩
  exact hboth.2

end Flow

/-! ## Single use -/

/-- No index of the store mentions the flow. -/
def NoEntry (store : InnerStore) (f : String) : Prop :=
  (∀ k e, store.entriesByHash.get k = some e → e.flowId ≠ f) ∧
    (∀ k e, store.entriesById.get k = some e → e.flowId ≠ f) ∧
    store.entriesByFlowId.get f = none ∧ ∀ k e, store.entriesByFlowId.get k = some e → e.flowId ≠ f

section Outcome
variable {m : JwtTokenManager} {s : State}

theorem NoLive.noEntry {f : String} (h : NoLive s.store f) (hs : s.store.Synced) :
    NoEntry s.store f := by
  refine ⟨?_, ?_, h.index hs, ?_⟩
  · intro k e hk
    have hl : s.store.Live e := by rw [Live, (hs.byHash k e hk).1, hk]
    exact h e hl
  · intro k e hk
    exact h e (hs.byId k e hk).2
  · intro k e hk
    exact h e (hs.byFlow k e hk).2

/-- A compare-and-swap on a hash that is gone fails and changes nothing. -/
theorem update_fails {c : ℕ} {r : String} {entry newEntry : RenewableTokenEntry}
    {pair : RenewableTokenPair} (hc : s.calls.get c = some (.updating r entry newEntry pair))
    (hg : s.store.entriesByHash.get (m.hash r) = none) :
    next m s (.update c) = some (s.fail c (.tokenNotFound (m.hash r))) := by
  have hu : s.store.update (m.hash r) newEntry = (.error (.tokenNotFound (m.hash r)), s.store) := by
    simp [InnerStore.update, hg]
  simp [next, hc, JwtTokenManager.renewUpdate, hu]

theorem Inv.hash_gone (h : Inv m s) (hinj : Function.Injective m.hash) {i : Issue}
    (hi : i ∈ s.issued) (hdead : ¬ s.store.Live i.entry) :
    s.store.entriesByHash.get (m.hash i.refreshToken) = none := by
  cases hg : s.store.entriesByHash.get (m.hash i.refreshToken) with
  | none => rfl
  | some x =>
    obtain ⟨rfl, hl⟩ := h.ledger.entry_of_hash hinj hi hg
    exact absurd hl hdead

theorem Inv.id_gone (h : Inv m s) {i : Issue} (hi : i ∈ s.issued) (hdead : ¬ s.store.Live i.entry) :
    s.store.entriesById.get i.entry.id = none := by
  cases hg : s.store.entriesById.get i.entry.id with
  | none => rfl
  | some x =>
    obtain ⟨rfl, hl⟩ := h.ledger.entry_of_id hi hg
    exact absurd hl hdead

/-- Steps of one renewal that nothing interrupts are the whole call. -/
theorem renew_uninterrupted (env : CallEnv) {c : ℕ} (boundToken refreshToken : String)
    (hc : s.calls.get c = none) {s₁ s₂ s₃ : State} {entry newEntry : RenewableTokenEntry}
    {pair : RenewableTokenPair} (hlookup : m.renewLookup s.store refreshToken = .ok entry)
    (hprepare : m.renewPrepare env entry boundToken = .ok (newEntry, pair))
    (h₁ : next m s (.renew c boundToken refreshToken) = some s₁)
    (h₂ : next m s₁ (.verify c env) = some s₂) (h₃ : next m s₂ (.update c) = some s₃) :
    m.renew env s.store boundToken refreshToken = (.ok pair, s₃.store) ∧
      s₃.history = .renewed c ⟨entry, refreshToken⟩ ⟨newEntry, pair.refreshToken⟩ :: s.history := by
  obtain rfl : _ = s₁ := by simpa only [next, hc, hlookup, Option.some.injEq] using h₁
  obtain rfl : _ = s₂ := by
    simpa only [next, HashMap.get_insert, if_true, hprepare, Option.some.injEq] using h₂
  have hg := JwtTokenManager.renewLookup_eq_ok.mp hlookup
  rcases update_cases s.store (m.hash refreshToken) newEntry with ⟨hnone, -⟩ | ⟨old, -, hu⟩
  · exact absurd (hnone.symm.trans hg) (by simp)
  · obtain rfl : _ = s₃ := by
      simpa only [next, State.drawing, HashMap.get_insert, if_true, JwtTokenManager.renewUpdate, hu,
        Option.some.injEq] using h₃
    simp [JwtTokenManager.renew, hlookup, hprepare, JwtTokenManager.renewUpdate, hu]

end Outcome

/-- Rotation is single use: an exchange happens once per refresh token, it ends the old
pair and starts the new one, and a revocation beats the renewals still in flight. -/
theorem renewal_single_use {m : JwtTokenManager} (hinj : Function.Injective m.hash) {s : State}
    (h : Machine.Reach (machine m) FreshDraws s) :
    (s.history.filterMap Event.exchanged).Nodup ∧
      (∀ c old new, .renewed c old new ∈ s.history →
        (∀ env boundToken, m.renew env s.store boundToken old.refreshToken =
          (.error (.notAuthorized "Invalid refresh token"), s.store)) ∧
        (∀ d entry newEntry pair,
          s.calls.get d = some (.updating old.refreshToken entry newEntry pair) →
          next m s (.update d) = some (s.fail d (.tokenNotFound (m.hash old.refreshToken)))) ∧
        ∀ env audience token claims, env.providerVerifier audience token = .ok claims →
          claims.custom.get "jti" = some (.string old.entry.id) →
          m.validateToken env s.store audience token = .error (.notAuthorized "Token not found")) ∧
      (∀ later c old new earlier, s.history = later ++ .renewed c old new :: earlier →
        (∀ ev ∈ later, ¬ ev.retires new.entry) →
        ∀ env audience token claims, env.providerVerifier audience token = .ok claims →
          claims.custom.get "jti" = some (.string new.entry.id) →
          m.validateToken env s.store audience token = .ok claims) ∧
      ∀ c r entry newEntry pair, s.calls.get c = some (.updating r entry newEntry pair) →
        s.generations entry.flowId ≤ 1 → .revoked entry.flowId ∈ s.history →
        ∃ t e, next m s (.update c) = some t ∧ t.history = .failed c e :: s.history ∧
          t.store = s.store ∧ NoEntry t.store entry.flowId := by
  have hI := Inv.of_reach hinj h
  refine ⟨hI.once, ?_, ?_, ?_⟩
  · intro c old new hmem
    obtain ⟨hi, hdead⟩ := hI.spent c old new hmem
    have hgone := hI.hash_gone hinj hi hdead
    refine ⟨fun env boundToken => JwtTokenManager.renew_of_get_none hgone, ?_, ?_⟩
    · intro d entry newEntry pair hd
      exact update_fails hd hgone
    · intro env audience token claims hv hj
      exact JwtTokenManager.validateToken_of_get_none hv hj (hI.id_gone hi hdead)
  · intro later c old new earlier hsplit hlater env audience token claims hv hj
    rcases hI.kept later c old new earlier hsplit with ⟨ev, hev, hr⟩ | hl
    · exact absurd hr (hlater ev hev)
    · exact JwtTokenManager.validateToken_of_get_some hv hj (hI.ledger.synced.live_iff_id.mp hl)
  · intro c r entry newEntry pair hc hgen hrev
    have hnone := (FlowInv.of_reach (f := entry.flowId) hinj h).none_revoked hrev hgen
    have hi : (⟨entry, r⟩ : Issue) ∈ s.issued := hI.held c _ _ hc rfl
    have hgone := hI.hash_gone hinj hi fun hl => hnone entry hl rfl
    exact ⟨_, _, update_fails hc hgone, rfl, rfl, hnone.noEntry hI.ledger.synced⟩

/-! A race: two renewals of one refresh token, then a third renewal overtaken by a revocation. -/

def freshCheck (s : State) (l : Label) (_ : State) : Bool :=
  match l with
  | .verify _ env => decide (env.jti ∉ s.jtis ∧ env.refreshToken ∉ s.refreshTokens)
  | .generatePair _ env _ _ _ _ => decide (env.jti ∉ s.jtis ∧ env.refreshToken ∉ s.refreshTokens)
  | _ => true

theorem freshDraws_of_check (s : State) (l : Label) (t : State) (h : freshCheck s l t = true) :
    FreshDraws s l t := by
  cases l <;> simp_all [freshCheck, FreshDraws]

def raceLabels : List Label :=
  [.generatePair 0 (demoEnv "j1" "r1") demoContext "consumer" HashMap.empty "flow", .save 0,
    .renew 1 "j1" "r1", .renew 2 "j1" "r1", .verify 2 (demoEnv "j2" "r2"),
    .verify 1 (demoEnv "j3" "r3"), .update 1, .update 2, .renew 3 "j3" "r3",
    .verify 3 (demoEnv "j4" "r4")]

def raced : State :=
  (machine demoManager).final freshCheck ⟨InnerStore.empty, HashMap.empty, [], [], []⟩ raceLabels

def overtaken : State :=
  (machine demoManager).final freshCheck raced [.revokeToken demoContext "flow"]

theorem renewal_race :
    raced.history.filterMap Event.exchanged = ["r1"] ∧
      demoManager.renew (demoEnv "j5" "r5") raced.store "j1" "r1" =
        (.error (.notAuthorized "Invalid refresh token"), raced.store) ∧
      demoManager.validateToken (demoEnv "j5" "r5") raced.store "anonymous" "j3" =
        .ok { sub := "consumer", aud := "anonymous", exp := 3600,
              custom := HashMap.empty.insert "jti" (.string "j3") } ∧
      ∃ t e, next demoManager overtaken (.update 3) = some t ∧
        t.history = .failed 3 e :: overtaken.history ∧ t.store = overtaken.store ∧
          NoEntry t.store "flow" := by
  have hinj : Function.Injective demoManager.hash := fun a b h => h
  have h₁ : Machine.Reach (machine demoManager) FreshDraws raced :=
    ⟨_, _, ⟨rfl, rfl, rfl⟩, Machine.path_final freshDraws_of_check (by decide +kernel)⟩
  have h₂ : Machine.Reach (machine demoManager) FreshDraws overtaken :=
    h₁.extend (Machine.path_final freshDraws_of_check (by decide +kernel))
  have hrace := renewal_single_use hinj h₁
  have hover := renewal_single_use hinj h₂
  have hhist : raced.history = [.failed 2 (.tokenNotFound "r1")] ++
      .renewed 1 (demoIssue "j1" "r1") (demoIssue "j3" "r3") ::
        [.generated 0 (demoIssue "j1" "r1")] := rfl
  have hmem : .renewed 1 (demoIssue "j1" "r1") (demoIssue "j3" "r3") ∈ raced.history := by
    simp [hhist]
  refine ⟨rfl, (hrace.2.1 1 _ _ hmem).1 _ "j1", ?_, ?_⟩
  · exact hrace.2.2.1 _ 1 _ _ _ hhist (by simp [Event.retires]) _ "anonymous" "j3" _ rfl rfl
  · have hcall : overtaken.calls.get 3 = some (.updating "r3" (demoIssue "j3" "r3").entry
        (demoIssue "j4" "r4").entry ⟨"j4", "r4", 172800, "https://provider/token"⟩) := rfl
    have hrev : .revoked "flow" ∈ overtaken.history := by
      have hover : overtaken.history = .revoked "flow" :: raced.history := rfl
      simp [hover]
    exact hover.2.2.2 3 "r3" _ _ _ hcall (by decide) hrev

end Facet.Renewable.Interleaved
