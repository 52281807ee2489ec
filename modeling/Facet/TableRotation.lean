import Facet.RenewableTable
import Facet.TokenInterleaving
import Facet.Registry

/-!
# Interleaved renewals over any store

The calls of any number of managers that share a store, each step one operation of the store. Over
the table each of these is one statement, which PostgreSQL runs against the rows of its moment, also
when it had to wait for the lock of a row. The rows are then a registry in which an entry is
replaced once at most, and a revocation drops every entry of its flow.
-/
namespace Facet.Renewable.Interleaved.Shared

structure State (σ : Type) where
  store : σ
  calls : HashMap ℕ Call
  history : List Event
  jtis : List String
  refreshTokens : List String

variable {σ : Type}

def State.issued (s : State σ) : List Issue := s.history.filterMap Event.issue

def State.pending (s : State σ) (c : ℕ) : Option Issue := (s.calls.get c).bind Call.prepared

def State.fail (s : State σ) (call : ℕ) (e : TokenError) : State σ :=
  { s with calls := s.calls.remove call, history := .failed call e :: s.history }

def State.drawing (s : State σ) (env : CallEnv) : State σ :=
  { s with jtis := env.jti :: s.jtis, refreshTokens := env.refreshToken :: s.refreshTokens }

def State.enter (s : State σ) (call : ℕ) (phase : Call) : State σ :=
  { s with calls := s.calls.insert call phase }

def State.finish (s : State σ) (call : ℕ) (store : σ) (ev : Event) : State σ :=
  { s with store := store, calls := s.calls.remove call, history := ev :: s.history }

def next (store : RenewableTokenStore σ) (m : JwtTokenManager) (s : State σ) :
    Label → Option (State σ)
  | .renew call boundToken refreshToken =>
    match s.calls.get call with
    | some _ => none
    | none =>
      match store.findByRenewal s.store (m.hash refreshToken) with
      | .ok entry => some (s.enter call (.verifying boundToken refreshToken entry))
      | .error _ => some (s.fail call (.notAuthorized "Invalid refresh token"))
  | .verify call env =>
    match s.calls.get call with
    | some (.verifying boundToken refreshToken entry) =>
      match m.renewPrepare env entry boundToken with
      | .ok (newEntry, pair) =>
        some ((s.drawing env).enter call (.updating refreshToken entry newEntry pair))
      | .error e => some ((s.drawing env).fail call e)
    | _ => none
  | .update call =>
    match s.calls.get call with
    | some (.updating refreshToken entry newEntry pair) =>
      let result := store.update s.store (m.hash refreshToken) newEntry
      match result.1 with
      | .ok () =>
        some (s.finish call result.2
          (.renewed call ⟨entry, refreshToken⟩ ⟨newEntry, pair.refreshToken⟩))
      | .error e => some ({ s with store := result.2 }.fail call e)
    | _ => none
  | .generatePair call env pc subject claims flowId =>
    match s.calls.get call with
    | some _ => none
    | none =>
      match m.preparePair env pc subject claims flowId with
      | .ok (entry, pair) => some ((s.drawing env).enter call (.saving entry pair))
      | .error e => some ((s.drawing env).fail call e)
  | .save call =>
    match s.calls.get call with
    | some (.saving entry pair) =>
      let result := store.save s.store entry
      match result.1 with
      | .ok () => some (s.finish call result.2 (.generated call ⟨entry, pair.refreshToken⟩))
      | .error e => some ({ s with store := result.2 }.fail call e)
    | _ => none
  | .revokeToken _ flowId =>
    let result := store.removeByFlowId s.store flowId
    match result.1 with
    | .ok () => some { s with store := result.2, history := .revoked flowId :: s.history }
    | .error _ => some { s with store := result.2 }

def machine (store : RenewableTokenStore σ) (m : JwtTokenManager) (empty : σ) :
    Machine (State σ) Label where
  init s := s.store = empty ∧ s.calls = HashMap.empty ∧ s.history = []
  next := next store m

/-- Random values never repeat. -/
def FreshDraws (s : State σ) (l : Label) (_ : State σ) : Prop :=
  match l with
  | .verify _ env => env.jti ∉ s.jtis ∧ env.refreshToken ∉ s.refreshTokens
  | .generatePair _ env _ _ _ _ => env.jti ∉ s.jtis ∧ env.refreshToken ∉ s.refreshTokens
  | _ => True

/-! ## The in-memory store -/

def State.toMemory (s : State InnerStore) : Interleaved.State where
  store := s.store
  calls := s.calls
  history := s.history
  jtis := s.jtis
  refreshTokens := s.refreshTokens

/-- Over the in-memory store the steps are those of the machine for that store. -/
theorem next_memory (m : JwtTokenManager) (s : State InnerStore) (l : Label) :
    (next MemoryRenewableTokenStore m s l).map State.toMemory =
      Interleaved.next m s.toMemory l := by
  cases l with
  | renew call boundToken refreshToken =>
    have hfind : MemoryRenewableTokenStore.findByRenewal s.store (m.hash refreshToken) =
      s.store.findByRenewal (m.hash refreshToken) := rfl
    simp only [next, Interleaved.next, State.toMemory, JwtTokenManager.renewLookup, hfind]
    cases s.calls.get call with
    | some phase => rfl
    | none => cases s.store.findByRenewal (m.hash refreshToken) <;> rfl
  | verify call env =>
    simp only [next, Interleaved.next, State.toMemory]
    cases s.calls.get call with
    | none => rfl
    | some phase =>
      cases phase with
      | verifying boundToken refreshToken entry =>
        dsimp only
        cases m.renewPrepare env entry boundToken <;> rfl
      | updating refreshToken entry newEntry pair => rfl
      | saving entry pair => rfl
  | update call =>
    simp only [next, Interleaved.next, State.toMemory]
    cases s.calls.get call with
    | none => rfl
    | some phase =>
      cases phase with
      | verifying boundToken refreshToken entry => rfl
      | updating refreshToken entry newEntry pair =>
        have hupdate : MemoryRenewableTokenStore.update s.store (m.hash refreshToken) newEntry =
          s.store.update (m.hash refreshToken) newEntry := rfl
        rcases InnerStore.update_cases s.store (m.hash refreshToken) newEntry with
          ⟨-, hresult⟩ | ⟨old, -, hresult⟩
        · simp only [hupdate, JwtTokenManager.renewUpdate, hresult]
          rfl
        · simp only [hupdate, JwtTokenManager.renewUpdate, hresult]
          rfl
      | saving entry pair => rfl
  | generatePair call env pc subject claims flowId =>
    simp only [next, Interleaved.next, State.toMemory]
    cases s.calls.get call with
    | some phase => rfl
    | none =>
      dsimp only
      cases m.preparePair env pc subject claims flowId <;> rfl
  | save call =>
    simp only [next, Interleaved.next, State.toMemory]
    cases s.calls.get call with
    | none => rfl
    | some phase => cases phase <;> rfl
  | revokeToken pc flowId =>
    have hremove : MemoryRenewableTokenStore.removeByFlowId s.store flowId =
        s.store.removeByFlowId flowId := rfl
    simp only [next, Interleaved.next, State.toMemory, JwtTokenManager.revokeToken, hremove]
    rcases InnerStore.removeByFlowId_cases s.store flowId with ⟨-, hresult⟩ | ⟨e, -, hresult⟩
    · simp only [hresult]
      rfl
    · simp only [hresult]
      rfl

/-! ## One step over the table -/

/-- A call that ends without a change of the table, moves on, possibly with drawn values, or one of
the three statements that write. -/
inductive Effect (m : JwtTokenManager) (s : State RenewableTokens) :
    Label → State RenewableTokens → Prop
  | failed {l : Label} (call : ℕ) (e : TokenError) : Effect m s l (s.fail call e)
  | drawnFailed {l : Label} (call : ℕ) (env : CallEnv) (e : TokenError) :
      Effect m s l ((s.drawing env).fail call e)
  | found {call : ℕ} {boundToken refreshToken : String} {entry : RenewableTokenEntry}
      (mem : entry ∈ s.store.rows) (hash : entry.hashedRefreshToken = m.hash refreshToken) :
    Effect m s (.renew call boundToken refreshToken)
      (s.enter call (.verifying boundToken refreshToken entry))
  | verified {call : ℕ} {env : CallEnv} {boundToken refreshToken : String}
      {entry newEntry : RenewableTokenEntry} {pair : RenewableTokenPair}
      (phase : s.calls.get call = some (.verifying boundToken refreshToken entry))
      (prepared : m.renewPrepare env entry boundToken = .ok (newEntry, pair)) :
    Effect m s (.verify call env)
      ((s.drawing env).enter call (.updating refreshToken entry newEntry pair))
  | prepared {call : ℕ} {env : CallEnv} {pc : ParticipantContext} {subject flowId : String}
      {claims : HashMap String Value} {entry : RenewableTokenEntry} {pair : RenewableTokenPair}
      (prepared : m.preparePair env pc subject claims flowId = .ok (entry, pair)) :
    Effect m s (.generatePair call env pc subject claims flowId)
      ((s.drawing env).enter call (.saving entry pair))
  | updated {call : ℕ} {refreshToken : String} {entry newEntry : RenewableTokenEntry}
      {pair : RenewableTokenPair} {table : RenewableTokens}
      (phase : s.calls.get call = some (.updating refreshToken entry newEntry pair))
      (result : s.store.updateWhere (m.hash refreshToken) newEntry = (.ok (), table)) :
    Effect m s (.update call)
      (s.finish call table (.renewed call ⟨entry, refreshToken⟩ ⟨newEntry, pair.refreshToken⟩))
  | saved {call : ℕ} {entry : RenewableTokenEntry} {pair : RenewableTokenPair}
      (phase : s.calls.get call = some (.saving entry pair)) :
    Effect m s (.save call)
      (s.finish call (s.store.upsert entry) (.generated call ⟨entry, pair.refreshToken⟩))
  | revoked {pc : ParticipantContext} {flowId : String} :
    Effect m s (.revokeToken pc flowId)
      { s with
        store := s.store.delete (·.flowId = flowId), history := .revoked flowId :: s.history }
  | unchanged (l : Label) : Effect m s l s

section Steps
variable {m : JwtTokenManager} {s t : State RenewableTokens} {l : Label}

theorem select_eq_ok {table : RenewableTokens} {matching : RenewableTokenEntry → Bool}
    {key : String} {entry : RenewableTokenEntry} (h : table.select matching key = .ok entry) :
    entry ∈ table.rows ∧ matching entry = true :=
  ⟨List.mem_of_find?_eq_some (okOr_eq_ok.mp h), List.find?_some (okOr_eq_ok.mp h)⟩

theorem select_of_forall {table : RenewableTokens} {matching : RenewableTokenEntry → Bool}
    (key : String) (h : ∀ x ∈ table.rows, matching x = false) :
    table.select matching key = .error (.tokenNotFound key) := by
  have hnone : table.rows.find? matching = none := by
    rw [List.find?_eq_none]
    intro x hx
    simp [h x hx]
  rw [RenewableTokens.select, hnone]
  rfl

/-- A failed update leaves the rows. -/
theorem updateWhere_cases (table : RenewableTokens) (oldHash : String)
    (newEntry : RenewableTokenEntry) :
    (∃ e, table.updateWhere oldHash newEntry = (.error e, table)) ∨
      (∃ x ∈ table.rows, x.hashedRefreshToken = oldHash) ∧
        ∃ table', table.updateWhere oldHash newEntry = (.ok (), table') ∧
          table'.rows = table.rows.map fun row =>
            if row.hashedRefreshToken = oldHash then newEntry else row := by
  unfold RenewableTokens.updateWhere
  dsimp only
  split_ifs with hunique hnone
  · exact Or.inl ⟨_, rfl⟩
  · obtain ⟨x, hx⟩ := List.exists_mem_of_ne_nil _ hnone
    obtain ⟨hmem, hhash⟩ := List.mem_filter.mp hx
    exact Or.inr ⟨⟨x, hmem, of_decide_eq_true hhash⟩, _, rfl, rfl⟩
  · exact Or.inl ⟨_, rfl⟩

theorem effect_of_next (hn : next PostgresRenewableTokenStore m s l = some t) : Effect m s l t := by
  cases l with
  | renew call boundToken refreshToken =>
    simp only [next] at hn
    cases hcall : s.calls.get call with
    | some phase => simp [hcall] at hn
    | none =>
      cases hfind : PostgresRenewableTokenStore.findByRenewal s.store (m.hash refreshToken) with
      | error e =>
        simp only [hcall, hfind, Option.some.injEq] at hn
        exact hn ▸ Effect.failed call _
      | ok entry =>
        simp only [hcall, hfind, Option.some.injEq] at hn
        obtain ⟨hmem, hhash⟩ := select_eq_ok hfind
        exact hn ▸ Effect.found hmem (of_decide_eq_true hhash)
  | verify call env =>
    simp only [next] at hn
    split at hn
    · rename_i boundToken refreshToken entry hcall
      cases hprepare : m.renewPrepare env entry boundToken with
      | error e =>
        simp only [hprepare, Option.some.injEq] at hn
        exact hn ▸ Effect.drawnFailed call env e
      | ok prepared =>
        simp only [hprepare, Option.some.injEq] at hn
        exact hn ▸ Effect.verified hcall hprepare
    · exact absurd hn (by simp)
  | update call =>
    simp only [next] at hn
    split at hn
    · rename_i refreshToken entry newEntry pair hcall
      have hupdate : PostgresRenewableTokenStore.update s.store (m.hash refreshToken) newEntry =
        s.store.updateWhere (m.hash refreshToken) newEntry := rfl
      rcases updateWhere_cases s.store (m.hash refreshToken) newEntry with
        ⟨e, herror⟩ | ⟨-, table, hok, -⟩
      · simp only [hupdate, herror, Option.some.injEq] at hn
        exact hn ▸ Effect.failed call e
      · simp only [hupdate, hok, Option.some.injEq] at hn
        exact hn ▸ Effect.updated hcall hok
    · exact absurd hn (by simp)
  | generatePair call env pc subject claims flowId =>
    simp only [next] at hn
    cases hcall : s.calls.get call with
    | some phase => simp [hcall] at hn
    | none =>
      cases hprepare : m.preparePair env pc subject claims flowId with
      | error e =>
        simp only [hcall, hprepare, Option.some.injEq] at hn
        exact hn ▸ Effect.drawnFailed call env e
      | ok prepared =>
        simp only [hcall, hprepare, Option.some.injEq] at hn
        exact hn ▸ Effect.prepared hprepare
  | save call =>
    simp only [next] at hn
    split at hn
    · rename_i entry pair hcall
      exact Option.some.inj hn ▸ Effect.saved hcall
    · exact absurd hn (by simp)
  | revokeToken pc flowId =>
    have hremove : PostgresRenewableTokenStore.removeByFlowId s.store
        flowId = s.store.deleteByFlowId flowId := rfl
    simp only [next, hremove, RenewableTokens.deleteByFlowId] at hn
    split_ifs at hn with hnone
    · exact Option.some.inj hn ▸ Effect.unchanged _
    · exact Option.some.inj hn ▸ Effect.revoked

end Steps

/-! ## The invariant of all runs -/

/-- What an event means for the rows. -/
def rowEvent : Event → Option (Registry.Event RenewableTokenEntry)
  | .generated _ issue => some (.added issue.entry)
  | .renewed _ old new => some (.replaced old.entry new.entry)
  | .revoked flowId => some (.dropped fun row => row.flowId = flowId)
  | .failed _ _ => none

def State.rowEvents (s : State σ) : List (Registry.Event RenewableTokenEntry) :=
  s.history.filterMap rowEvent

/-- The issue that a renewal replaced. -/
def Event.old : Event → Option Issue
  | .renewed _ old _ => some old
  | _ => none

/-- The ledger is over an empty store here: it says that no drawn value is used twice. -/
structure Inv (m : JwtTokenManager) (s : State RenewableTokens) : Prop where
  ledger : Ledger m.hash InnerStore.empty s.issued s.pending s.jtis s.refreshTokens
  held : ∀ c call i, s.calls.get c = some call → call.presented = some i → i ∈ s.issued
  flow_kept : ∀ c r entry newEntry pair,
    s.calls.get c = some (.updating r entry newEntry pair) → newEntry.flowId = entry.flowId
  spent : ∀ old ∈ s.history.filterMap Event.old, old ∈ s.issued
  flow_renewed : ∀ c old new, .renewed c old new ∈ s.history → new.entry.flowId = old.entry.flowId
  registry : Registry.Run {row | row ∈ s.store.rows} s.rowEvents

theorem pending_enter (s : State σ) (c : ℕ) (call : Call) :
    (s.enter c call).pending = Function.update s.pending c call.prepared := by
  funext d
  by_cases hd : d = c
  · simp [State.pending, State.enter, hd]
  · simp [State.pending, State.enter, hd]

theorem pending_finish (s : State σ) (c : ℕ) (store : σ) (ev : Event) :
    (s.finish c store ev).pending = Function.update s.pending c none := by
  funext d
  by_cases hd : d = c
  · simp [State.pending, State.finish, hd]
  · simp [State.pending, State.finish, hd]

/-- A call gives up what it prepared. -/
theorem pending_fail {s : State σ} {c d : ℕ} {e : TokenError} {i : Issue}
    (h : (s.fail c e).pending d = some i) : s.pending d = some i := by
  simp only [State.pending, State.fail, HashMap.get_remove] at h ⊢
  split_ifs at h
  · simp at h
  · exact h

theorem pending_updating {s : State σ} {c : ℕ} {r : String} {entry newEntry : RenewableTokenEntry}
    {pair : RenewableTokenPair} (hc : s.calls.get c = some (.updating r entry newEntry pair)) :
    s.pending c = some ⟨newEntry, pair.refreshToken⟩ := by
  simp [State.pending, hc, Call.prepared]

theorem pending_saving {s : State σ} {c : ℕ} {entry : RenewableTokenEntry}
    {pair : RenewableTokenPair} (hc : s.calls.get c = some (.saving entry pair)) :
    s.pending c = some ⟨entry, pair.refreshToken⟩ := by
  simp [State.pending, hc, Call.prepared]

/-- The events that bring entries in are those that issue. -/
theorem new_iff {s : State σ} {x : RenewableTokenEntry} :
    Registry.New s.rowEvents x ↔ ∀ i ∈ s.issued, i.entry ≠ x := by
  unfold Registry.New State.rowEvents State.issued
  constructor
  · intro h i hi hx
    obtain ⟨ev, hev, hissue⟩ := List.mem_filterMap.mp hi
    cases ev with
    | generated c issue =>
      obtain rfl := Option.some.inj hissue
      exact h _ (List.mem_filterMap.mpr ⟨_, hev, rfl⟩) (congrArg some hx)
    | renewed c old new =>
      obtain rfl := Option.some.inj hissue
      exact h _ (List.mem_filterMap.mpr ⟨_, hev, rfl⟩) (congrArg some hx)
    | failed c e => exact absurd hissue (by simp [Event.issue])
    | revoked flowId => exact absurd hissue (by simp [Event.issue])
  · intro h rev hrev hin
    obtain ⟨ev, hev, hrow⟩ := List.mem_filterMap.mp hrev
    cases ev with
    | generated c issue =>
      obtain rfl := Option.some.inj hrow
      exact h issue (List.mem_filterMap.mpr ⟨_, hev, rfl⟩) (Option.some.inj hin)
    | renewed c old new =>
      obtain rfl := Option.some.inj hrow
      exact h new (List.mem_filterMap.mpr ⟨_, hev, rfl⟩) (Option.some.inj hin)
    | failed c e => exact absurd hrow (by simp [rowEvent])
    | revoked flowId =>
      obtain rfl := Option.some.inj hrow
      exact absurd hin (by simp [Registry.Event.incoming])

section Invariant
variable {m : JwtTokenManager} {s t : State RenewableTokens} {l : Label}

theorem Inv.issued_of_row (h : Inv m s) {row : RenewableTokenEntry} (hrow : row ∈ s.store.rows) :
    ∃ i ∈ s.issued, i.entry = row := by
  have hold := h.registry.not_new hrow
  rw [new_iff] at hold
  push Not at hold
  exact hold

/-- The rows that an update can meet are the entry that the lookup had found. -/
theorem Inv.match_iff (h : Inv m s) (hinj : Function.Injective m.hash)
    {entry row : RenewableTokenEntry} {r : String} (hissued : (⟨entry, r⟩ : Issue) ∈ s.issued)
    (hrow : row ∈ s.store.rows) : row.hashedRefreshToken = m.hash r ↔ row = entry := by
  constructor
  · intro hhash
    obtain ⟨i, hi, rfl⟩ := h.issued_of_row hrow
    have hr : i.refreshToken = r := hinj ((h.ledger.issued_ok i hi).1.symm.trans hhash)
    rw [h.ledger.issued_unique i hi _ hissued (Or.inr hr)]
  · intro heq
    rw [heq]
    exact (h.ledger.issued_ok _ hissued).1

/-- A prepared entry shares no id with a row. -/
theorem Inv.id_ne (h : Inv m s) {c : ℕ} {i : Issue} (hc : s.pending c = some i)
    {row : RenewableTokenEntry} (hrow : row ∈ s.store.rows) : row.id ≠ i.entry.id := by
  obtain ⟨j, hj, rfl⟩ := h.issued_of_row hrow
  exact (h.ledger.pending_new c i hc j hj).1.symm

theorem Inv.prepared_new (h : Inv m s) {c : ℕ} {i : Issue} (hc : s.pending c = some i) :
    Registry.New s.rowEvents i.entry := by
  rw [new_iff]
  intro j hj heq
  exact (h.ledger.pending_new c i hc j hj).1 (by rw [heq])

theorem rows_upsert {table : RenewableTokens} {entry : RenewableTokenEntry}
    (hid : ∀ row ∈ table.rows, row.id ≠ entry.id) :
    {row | row ∈ (table.upsert entry).rows} = insert entry {row | row ∈ table.rows} := by
  ext row
  simp only [RenewableTokens.upsert, RenewableTokens.delete, List.mem_cons, List.mem_filter,
    Set.mem_ofPred_eq, Set.mem_insert_iff, decide_eq_true_eq]
  refine or_congr_right (and_iff_left_of_imp fun hrow => ?_)
  exact decide_eq_false (hid row hrow)

/-- An update that succeeds replaces one row. -/
theorem rows_updateWhere {table table' : RenewableTokens} {oldHash : String}
    {entry newEntry : RenewableTokenEntry}
    (hmatch : ∀ row ∈ table.rows, row.hashedRefreshToken = oldHash ↔ row = entry)
    (hok : table.updateWhere oldHash newEntry = (.ok (), table')) :
    entry ∈ table.rows ∧
      {row | row ∈ table'.rows} = insert newEntry ({row | row ∈ table.rows} \ {entry}) := by
  rcases updateWhere_cases table oldHash newEntry with
    ⟨e, herror⟩ | ⟨⟨x, hx, hhash⟩, table'', hok', hrows⟩
  · exact absurd (herror.symm.trans hok) (by simp)
  · obtain rfl : table'' = table' := (Prod.mk.inj (hok'.symm.trans hok)).2
    obtain rfl := (hmatch x hx).mp hhash
    refine ⟨hx, ?_⟩
    ext row
    rw [Set.mem_ofPred_eq, hrows, List.mem_map, Set.mem_insert_iff, Set.mem_sdiff,
      Set.mem_ofPred_eq, Set.mem_singleton_iff]
    constructor
    · intro hrow
      obtain ⟨old, hold, rfl⟩ := hrow
      split_ifs with hsame
      · exact Or.inl rfl
      · exact Or.inr ⟨hold, fun heq => hsame ((hmatch old hold).mpr heq)⟩
    · intro hrow
      rcases hrow with rfl | ⟨hold, hne⟩
      · exact ⟨x, hx, if_pos hhash⟩
      · exact ⟨row, hold, if_neg fun hsame => hne ((hmatch row hold).mp hsame)⟩

/-- A call that goes on with an entry made of drawn values. -/
theorem Inv.ledger_drawn (h : Inv m s) (c : ℕ) {env : CallEnv} {call : Call} {i : Issue}
    (hprepared : call.prepared = some i) (hid : i.entry.id = env.jti)
    (hhash : i.entry.hashedRefreshToken = m.hash env.refreshToken)
    (hrefresh : i.refreshToken = env.refreshToken)
    (hfresh : env.jti ∉ s.jtis ∧ env.refreshToken ∉ s.refreshTokens) :
    Ledger m.hash InnerStore.empty s.issued ((s.drawing env).enter c call).pending
      (env.jti :: s.jtis) (env.refreshToken :: s.refreshTokens) := by
  rw [pending_enter, hprepared, ← hid, ← hrefresh]
  rw [← hrefresh] at hhash
  rw [← hid, ← hrefresh] at hfresh
  exact h.ledger.draw c hhash hfresh.1 hfresh.2

theorem Inv.ledger_step (h : Inv m s) (he : Effect m s l t) (hfresh : FreshDraws s l t) :
    Ledger m.hash InnerStore.empty t.issued t.pending t.jtis t.refreshTokens := by
  have hL := h.ledger
  have hkeep : ∀ {u : State RenewableTokens}, u.issued = s.issued → (∀ c i, u.pending c = some i →
      s.pending c = some i) →
      s.jtis ⊆ u.jtis → s.refreshTokens ⊆ u.refreshTokens →
      Ledger m.hash InnerStore.empty u.issued u.pending u.jtis u.refreshTokens := by
    intro u hissued hpending hjtis htokens
    rw [hissued]
    exact hL.shrink hL.synced (fun x hx => hx) hpending hjtis htokens
  cases he with
  | failed c e => exact hkeep rfl (fun d i hd => pending_fail hd) (fun x hx => hx) (fun x hx => hx)
  | drawnFailed c env e =>
    exact hkeep rfl (fun d i hd => pending_fail (s := s.drawing env) hd) (List.subset_cons_self _ _)
      (List.subset_cons_self _ _)
  | @found c b r entry hmem hhash =>
    refine hkeep rfl ?_ (fun x hx => hx) (fun x hx => hx)
    intro d i hd
    rw [pending_enter] at hd
    by_cases hdc : d = c
    · simp [hdc, Call.prepared] at hd
    · rwa [Function.update_of_ne hdc] at hd
  | @verified c env b r entry newEntry pair hphase hprepared =>
    obtain ⟨hid, hhash, -, -, hrefresh, -⟩ := JwtTokenManager.renewPrepare_ok hprepared
    exact h.ledger_drawn c rfl hid hhash hrefresh hfresh
  | @prepared c env pc subject flowId claims entry pair hprepared =>
    obtain ⟨hid, hhash, -, -, hrefresh, -⟩ := JwtTokenManager.preparePair_ok hprepared
    exact h.ledger_drawn c rfl hid hhash hrefresh hfresh
  | updated hphase hresult =>
    rw [pending_finish]
    exact hL.commit (pending_updating hphase) hL.synced fun x hx => Or.inr hx
  | saved hphase =>
    rw [pending_finish]
    exact hL.commit (pending_saving hphase) hL.synced fun x hx => Or.inr hx
  | revoked => exact hL
  | unchanged => exact hL

theorem Effect.issued (he : Effect m s l t) : s.issued ⊆ t.issued := by
  cases he with
  | updated hphase hresult => exact List.subset_cons_self _ _
  | saved hphase => exact List.subset_cons_self _ _
  | _ => exact List.Subset.refl _

theorem Inv.held_step (h : Inv m s) (hinj : Function.Injective m.hash) (he : Effect m s l t) :
    ∀ c call i, t.calls.get c = some call → call.presented = some i → i ∈ t.issued := by
  intro c call i hcall hi
  apply he.issued
  have hkept : s.calls.get c = some call → i ∈ s.issued := fun hold => h.held c call i hold hi
  have hremoved : ∀ d, (s.calls.remove d).get c = some call → i ∈ s.issued :=
    fun d hold => hkept (HashMap.get_remove_eq_some hold).2
  cases he with
  | failed d e => exact hremoved d hcall
  | drawnFailed d env e => exact hremoved d hcall
  | @found d b r entry hmem hhash =>
    rcases HashMap.get_insert_eq_some hcall with ⟨-, rfl⟩ | ⟨-, hold⟩
    · obtain rfl := Option.some.inj hi
      obtain ⟨j, hj, rfl⟩ := h.issued_of_row hmem
      obtain rfl : j.refreshToken = r := hinj ((h.ledger.issued_ok j hj).1.symm.trans hhash)
      exact hj
    · exact hkept hold
  | verified hphase hprepared =>
    rcases HashMap.get_insert_eq_some hcall with ⟨-, rfl⟩ | ⟨-, hold⟩
    · exact h.held _ _ i hphase hi
    · exact hkept hold
  | prepared hprepared =>
    rcases HashMap.get_insert_eq_some hcall with ⟨-, rfl⟩ | ⟨-, hold⟩
    · exact absurd hi (by simp [Call.presented])
    · exact hkept hold
  | updated hphase hresult => exact hremoved _ hcall
  | saved hphase => exact hremoved _ hcall
  | revoked => exact hkept hcall
  | unchanged => exact hkept hcall

theorem Inv.flow_kept_step (h : Inv m s) (he : Effect m s l t) : ∀ c r entry newEntry pair,
    t.calls.get c = some (.updating r entry newEntry pair) → newEntry.flowId = entry.flowId := by
  intro c r entry newEntry pair hcall
  have hkept :
      s.calls.get c = some (.updating r entry newEntry pair) → newEntry.flowId = entry.flowId :=
    h.flow_kept c r entry newEntry pair
  have hremoved : ∀ d, (s.calls.remove d).get c = some (.updating r entry newEntry pair) →
      newEntry.flowId = entry.flowId := fun d hold => hkept (HashMap.get_remove_eq_some hold).2
  cases he with
  | failed d e => exact hremoved d hcall
  | drawnFailed d env e => exact hremoved d hcall
  | found hmem hhash =>
    rcases HashMap.get_insert_eq_some hcall with ⟨-, hnew⟩ | ⟨-, hold⟩
    · exact absurd hnew (by simp)
    · exact hkept hold
  | verified hphase hprepared =>
    rcases HashMap.get_insert_eq_some hcall with ⟨-, hnew⟩ | ⟨-, hold⟩
    · obtain ⟨-, rfl, rfl, -⟩ := Call.updating.inj hnew
      exact (JwtTokenManager.renewPrepare_ok hprepared).2.2.1
    · exact hkept hold
  | prepared hprepared =>
    rcases HashMap.get_insert_eq_some hcall with ⟨-, hnew⟩ | ⟨-, hold⟩
    · exact absurd hnew (by simp)
    · exact hkept hold
  | updated hphase hresult => exact hremoved _ hcall
  | saved hphase => exact hremoved _ hcall
  | revoked => exact hkept hcall
  | unchanged => exact hkept hcall

theorem Inv.spent_step (h : Inv m s) (he : Effect m s l t) :
    ∀ old ∈ t.history.filterMap Event.old, old ∈ t.issued := by
  intro old hold
  apply he.issued
  cases he with
  | @updated c r entry newEntry pair table hphase hresult =>
    rcases List.mem_cons.mp hold with rfl | hold
    · exact h.held c _ _ hphase rfl
    · exact h.spent old hold
  | _ => exact h.spent old hold

theorem Inv.flow_renewed_step (h : Inv m s) (he : Effect m s l t) :
    ∀ c old new, .renewed c old new ∈ t.history → new.entry.flowId = old.entry.flowId := by
  intro c old new hmem
  have hkept : .renewed c old new ∈ s.history →
      new.entry.flowId = old.entry.flowId := h.flow_renewed c old new
  have hother : ∀ {ev : Event}, .renewed c old new ∈ ev :: s.history → ev ≠ .renewed c old new →
      new.entry.flowId = old.entry.flowId :=
    fun hcons hne => hkept ((List.mem_cons.mp hcons).resolve_left fun heq => hne heq.symm)
  cases he with
  | failed d e => exact hother hmem (by simp)
  | drawnFailed d env e => exact hother hmem (by simp)
  | found hrow hhash => exact hkept hmem
  | verified hphase hprepared => exact hkept hmem
  | prepared hprepared => exact hkept hmem
  | @updated d r entry newEntry pair table hphase hresult =>
    rcases List.mem_cons.mp hmem with heq | hold
    · obtain ⟨-, rfl, rfl⟩ := Event.renewed.inj heq
      exact h.flow_kept d r entry newEntry pair hphase
    · exact hkept hold
  | saved hphase => exact hother hmem (by simp)
  | revoked => exact hother hmem (by simp)
  | unchanged => exact hkept hmem

/-- A step over the table is a step of the registry of its rows, or leaves them. -/
theorem Inv.registry_step (h : Inv m s) (hinj : Function.Injective m.hash) (he : Effect m s l t) :
    Registry.Run {row | row ∈ t.store.rows} t.rowEvents := by
  cases he with
  | @updated c r entry newEntry pair table hphase hresult =>
    have hissued : (⟨entry, r⟩ : Issue) ∈ s.issued := h.held c _ _ hphase rfl
    obtain ⟨hpresent, hrows⟩ := rows_updateWhere (fun row hrow =>
      h.match_iff hinj hissued hrow) hresult
    show Registry.Run {row | row ∈ table.rows} (.replaced entry newEntry :: s.rowEvents)
    rw [hrows]
    exact .replace h.registry hpresent (h.prepared_new (pending_updating hphase))
  | @saved c entry pair hphase =>
    have hpending := pending_saving hphase
    show Registry.Run {row | row ∈ (s.store.upsert entry).rows} (.added entry :: s.rowEvents)
    rw [rows_upsert fun row hrow => h.id_ne hpending hrow]
    exact .add h.registry (h.prepared_new hpending)
  | @revoked pc flowId =>
    have hrows : {row | row ∈ (s.store.delete (·.flowId = flowId)).rows} =
        {row | row ∈ {row | row ∈ s.store.rows} ∧ ¬ row.flowId = flowId} := by
      ext row
      simp [RenewableTokens.delete]
    show Registry.Run {row | row ∈ (s.store.delete (·.flowId = flowId)).rows}
      (.dropped (fun row => row.flowId = flowId) :: s.rowEvents)
    rw [hrows]
    exact .drop h.registry _
  | _ => exact h.registry

theorem Inv.step (h : Inv m s) (hinj : Function.Injective m.hash)
    (hn : next PostgresRenewableTokenStore m s l = some t)
    (hfresh : FreshDraws s l t) : Inv m t where
  ledger := h.ledger_step (effect_of_next hn) hfresh
  held := h.held_step hinj (effect_of_next hn)
  flow_kept := h.flow_kept_step (effect_of_next hn)
  spent := h.spent_step (effect_of_next hn)
  flow_renewed := h.flow_renewed_step (effect_of_next hn)
  registry := h.registry_step hinj (effect_of_next hn)

theorem Inv.of_init (h : (machine PostgresRenewableTokenStore m RenewableTokens.empty).init s) :
    Inv m s := by
  obtain ⟨hstore, hcalls, hhistory⟩ := h
  have hissued : s.issued = [] := by simp [State.issued, hhistory]
  have hpending : s.pending = fun _ => none := by
    funext c
    simp [State.pending, hcalls]
  refine ⟨?_, ?_, ?_, ?_, ?_, ?_⟩
  · rw [hissued, hpending]
    exact Ledger.initial
  · simp [hcalls]
  · simp [hcalls]
  · simp [hhistory]
  · simp [hhistory]
  · have hrows : {row | row ∈ s.store.rows} = (∅ : Set RenewableTokenEntry) := by
      simp [hstore, RenewableTokens.empty]
    have hevents : s.rowEvents = [] := by simp [State.rowEvents, hhistory]
    rw [hrows, hevents]
    exact .start

theorem Inv.of_reach (hinj : Function.Injective m.hash)
    (h : (machine PostgresRenewableTokenStore m RenewableTokens.empty).Reach FreshDraws s) :
    Inv m s :=
  h.invariant (fun _ => Inv.of_init) fun _ _ _ hinv hn hfresh => hinv.step hinj hn hfresh

end Invariant

/-! ## Single use and revocation -/

section Outcome
variable {m : JwtTokenManager} {s : State RenewableTokens}

/-- The table has no row of the issue any more. -/
def Gone (s : State RenewableTokens) (i : Issue) : Prop := i ∈ s.issued ∧ i.entry ∉ s.store.rows

theorem Inv.gone_of_renewed (h : Inv m s) {c : ℕ} {old new : Issue}
    (hmem : .renewed c old new ∈ s.history) : Gone s old := by
  refine ⟨h.spent old (List.mem_filterMap.mpr ⟨_, hmem, rfl⟩), ?_⟩
  exact (h.registry.replaced_gone
    (List.mem_filterMap.mpr ⟨_, List.mem_filterMap.mpr ⟨_, hmem, rfl⟩, rfl⟩)).1

theorem Inv.renew_gone (h : Inv m s) (hinj : Function.Injective m.hash) {i : Issue} (hi : Gone s i)
    (env : CallEnv) (boundToken : String) :
    PostgresRenewableTokenStore.renew m env s.store boundToken i.refreshToken =
      (.error (.notAuthorized "Invalid refresh token"), s.store) := by
  apply RenewableTokenStore.renew_of_error (e := .tokenNotFound (m.hash i.refreshToken))
  apply select_of_forall
  intro row hrow
  refine decide_eq_false fun hhash => hi.2 ?_
  exact (h.match_iff hinj hi.1 hrow).mp hhash ▸ hrow

/-- A statement that meets no row fails and leaves the table. -/
theorem Inv.update_gone (h : Inv m s) (hinj : Function.Injective m.hash) {c : ℕ} {r : String}
    {entry newEntry : RenewableTokenEntry} {pair : RenewableTokenPair} (hi : Gone s ⟨entry, r⟩)
    (hc : s.calls.get c = some (.updating r entry newEntry pair)) :
    ∃ e, next PostgresRenewableTokenStore m s (.update c) = some (s.fail c e) := by
  have hupdate : PostgresRenewableTokenStore.update s.store (m.hash r) newEntry =
    s.store.updateWhere (m.hash r) newEntry := rfl
  rcases updateWhere_cases s.store (m.hash r) newEntry with ⟨e, herror⟩ | ⟨⟨row, hrow, hhash⟩, -⟩
  · exact ⟨e, by simp [next, hc, hupdate, herror]⟩
  · exact absurd ((h.match_iff hinj hi.1 hrow).mp hhash ▸ hrow) hi.2

theorem Inv.validate_gone (h : Inv m s) {i : Issue} (hi : Gone s i) {env : CallEnv}
    {audience token : String} {claims : TokenClaims}
    (hv : env.providerVerifier audience token = .ok claims)
    (hjti : claims.custom.get "jti" = some (.string i.entry.id)) :
    PostgresRenewableTokenStore.validateToken env s.store audience token =
      .error (.notAuthorized "Token not found") := by
  have hfind : PostgresRenewableTokenStore.findById s.store i.entry.id =
      .error (.tokenNotFound i.entry.id) := by
    apply select_of_forall
    intro row hrow
    refine decide_eq_false fun hid => hi.2 ?_
    obtain ⟨j, hj, rfl⟩ := h.issued_of_row hrow
    rwa [← h.ledger.issued_unique j hj i hi.1 (Or.inl hid)]
  simp [RenewableTokenStore.validateToken, liftVerification, hv, hjti, hfind, Value.asStr,
    bind, Except.bind, throw, throwThe, MonadExceptOf.throw]

theorem validate_row {row : RenewableTokenEntry} (hrow : row ∈ s.store.rows) {env : CallEnv}
    {audience token : String} {claims : TokenClaims}
    (hv : env.providerVerifier audience token = .ok claims)
    (hjti : claims.custom.get "jti" = some (.string row.id)) :
    PostgresRenewableTokenStore.validateToken env s.store audience token = .ok claims := by
  have hfind : ∃ found, PostgresRenewableTokenStore.findById s.store row.id = .ok found := by
    cases hf : s.store.rows.find? (fun x => decide (x.id = row.id)) with
    | none => exact absurd (decide_eq_true rfl) (List.find?_eq_none.mp hf row hrow)
    | some found => exact ⟨found, okOr_eq_ok.mpr hf⟩
  obtain ⟨found, hfound⟩ := hfind
  simp [RenewableTokenStore.validateToken, liftVerification, hv, hjti, hfound, Value.asStr,
    bind, Except.bind, pure, Except.pure]

theorem Inv.row_of_issue (h : Inv m s) {later earlier : List Event} {ev : Event} {i : Issue}
    (hsplit : s.history = later ++ ev :: earlier) (hissue : ev.issue = some i)
    (hlater : ∀ ev' ∈ later, ¬ ev'.retires i.entry) : i.entry ∈ s.store.rows := by
  obtain ⟨rev, hrow, hin⟩ : ∃ rev, rowEvent ev = some rev ∧ rev.incoming = some i.entry := by
    cases ev with
    | generated c issue => exact ⟨_, rfl, congrArg (Option.map Issue.entry) hissue⟩
    | renewed c old new => exact ⟨_, rfl, congrArg (Option.map Issue.entry) hissue⟩
    | failed c e => exact absurd hissue (by simp [Event.issue])
    | revoked flowId => exact absurd hissue (by simp [Event.issue])
  have hevents : s.rowEvents = later.filterMap rowEvent ++ rev :: earlier.filterMap rowEvent := by
    rw [State.rowEvents, hsplit, List.filterMap_append, List.filterMap_cons, hrow]
  refine h.registry.kept hevents hin ?_
  intro rev' hrev' hretires
  obtain ⟨ev', hev', hrow'⟩ := List.mem_filterMap.mp hrev'
  refine hlater ev' hev' ?_
  cases ev' with
  | generated c issue =>
    exact (Option.some.inj hrow' ▸ hretires : Registry.Event.Retires i.entry (.added issue.entry))
  | renewed c old new =>
    exact (Option.some.inj hrow' ▸ hretires : Registry.Event.Retires i.entry
      (.replaced old.entry new.entry))
  | failed c e => exact absurd hrow' (by simp [rowEvent])
  | revoked flowId =>
    have hflow : i.entry.flowId = flowId :=
      (Option.some.inj hrow' ▸ hretires : Registry.Event.Retires i.entry (.dropped fun row =>
        row.flowId = flowId))
    exact hflow.symm

/-- A renewal after the revocation would need a row of the flow to begin with. -/
theorem Inv.rows_revoked (h : Inv m s) {later earlier : List Event} {flowId : String}
    (hsplit : s.history = later ++ .revoked flowId :: earlier)
    (hlater : ∀ ev ∈ later, ev.generatedFor flowId = false) :
    ∀ row ∈ s.store.rows, row.flowId ≠ flowId := by
  have hevents : s.rowEvents = later.filterMap rowEvent ++
      .dropped (fun row => row.flowId = flowId) :: earlier.filterMap rowEvent := by
    rw [State.rowEvents, hsplit, List.filterMap_append, List.filterMap_cons]
    rfl
  refine h.registry.dropped_gone hevents ?_ ?_
  · intro x hx
    obtain ⟨ev, hev, hrow⟩ := List.mem_filterMap.mp hx
    cases ev with
    | generated c issue =>
      obtain rfl := Registry.Event.added.inj (Option.some.inj hrow)
      exact of_decide_eq_false (hlater _ hev)
    | renewed c old new => exact absurd hrow (by simp [rowEvent])
    | failed c e => exact absurd hrow (by simp [rowEvent])
    | revoked f => exact absurd hrow (by simp [rowEvent])
  · intro x y hxy hflow
    obtain ⟨ev, hev, hrow⟩ := List.mem_filterMap.mp hxy
    cases ev with
    | generated c issue => exact absurd hrow (by simp [rowEvent])
    | renewed c old new =>
      obtain ⟨rfl, rfl⟩ := Registry.Event.replaced.inj (Option.some.inj hrow)
      have hmem : .renewed c old new ∈ s.history := by
        rw [hsplit]
        exact List.mem_append_left _ hev
      rw [← h.flow_renewed c old new hmem, hflow]
    | failed c e => exact absurd hrow (by simp [rowEvent])
    | revoked f => exact absurd hrow (by simp [rowEvent])

end Outcome

/-- Over the table, too, an exchange happens once per refresh token and ends the old pair, whatever
interleaves, and a pair that was issued is good until a renewal replaces it or its flow is
revoked. -/
theorem table_single_use {m : JwtTokenManager} (hinj : Function.Injective m.hash)
    {s : State RenewableTokens}
    (h : (machine PostgresRenewableTokenStore m RenewableTokens.empty).Reach FreshDraws s) :
    (s.history.filterMap Event.exchanged).Nodup ∧
      (∀ c old new, .renewed c old new ∈ s.history →
        (∀ env boundToken, PostgresRenewableTokenStore.renew m env s.store
          boundToken old.refreshToken =
          (.error (.notAuthorized "Invalid refresh token"), s.store)) ∧
        (∀ d entry newEntry pair,
          s.calls.get d = some (.updating old.refreshToken entry newEntry pair) →
          ∃ e, next PostgresRenewableTokenStore m s (.update d) = some (s.fail d e)) ∧
        ∀ env audience token claims, env.providerVerifier audience token = .ok claims →
          claims.custom.get "jti" = some (.string old.entry.id) →
          PostgresRenewableTokenStore.validateToken env s.store audience token =
            .error (.notAuthorized "Token not found")) ∧
      ∀ later ev earlier i, s.history = later ++ ev :: earlier → ev.issue = some i →
        (∀ ev' ∈ later, ¬ ev'.retires i.entry) →
        ∀ env audience token claims, env.providerVerifier audience token = .ok claims →
          claims.custom.get "jti" = some (.string i.entry.id) →
          PostgresRenewableTokenStore.validateToken env s.store audience token = .ok claims := by
  have hI := Inv.of_reach hinj h
  refine ⟨?_, ?_, ?_⟩
  · have hentries : ((s.history.filterMap Event.old).map Issue.entry).Nodup := by
      have honce := hI.registry.replaced_once
      have holds : s.rowEvents.filterMap Registry.Event.replacedItem =
          (s.history.filterMap Event.old).map Issue.entry := by
        rw [State.rowEvents, List.filterMap_filterMap, List.map_filterMap]
        congr 1
        funext ev
        cases ev <;> rfl
      rwa [holds] at honce
    have htokens : s.history.filterMap Event.exchanged =
        (s.history.filterMap Event.old).map Issue.refreshToken := by
      rw [List.map_filterMap]
      congr 1
      funext ev
      cases ev <;> rfl
    rw [htokens]
    refine List.Nodup.map_on ?_ (List.Nodup.of_map _ hentries)
    intro i hi j hj hsame
    exact hI.ledger.issued_unique i (hI.spent i hi) j (hI.spent j hj) (Or.inr hsame)
  · intro c old new hmem
    have hgone := hI.gone_of_renewed hmem
    refine ⟨fun env boundToken => hI.renew_gone hinj hgone env boundToken, ?_, ?_⟩
    · intro d entry newEntry pair hd
      have hissued : (⟨entry, old.refreshToken⟩ : Issue) ∈ s.issued := hI.held d _ _ hd rfl
      have hsame : (⟨entry, old.refreshToken⟩ : Issue) = old :=
        hI.ledger.issued_unique _ hissued old hgone.1 (Or.inr rfl)
      exact hI.update_gone hinj (hsame ▸ hgone) hd
    · intro env audience token claims hv hjti
      exact hI.validate_gone hgone hv hjti
  · intro later ev earlier i hsplit hissue hlater env audience token claims hv hjti
    have hrow : i.entry ∈ s.store.rows := hI.row_of_issue hsplit hissue hlater
    exact validate_row hrow hv hjti

/-! Two renewals of one refresh token race over the table, and a revocation overtakes a third. -/

def tableCheck (s : State RenewableTokens) (l : Label) (_ : State RenewableTokens) : Bool :=
  match l with
  | .verify _ env => decide (env.jti ∉ s.jtis ∧ env.refreshToken ∉ s.refreshTokens)
  | .generatePair _ env _ _ _ _ => decide (env.jti ∉ s.jtis ∧ env.refreshToken ∉ s.refreshTokens)
  | _ => true

theorem freshDraws_of_tableCheck (s : State RenewableTokens) (l : Label) (t : State RenewableTokens)
    (h : tableCheck s l t = true) : FreshDraws s l t := by
  cases l <;> simp_all [tableCheck, FreshDraws]

def tableRaced : State RenewableTokens :=
  (machine PostgresRenewableTokenStore demoManager RenewableTokens.empty).final tableCheck
    ⟨RenewableTokens.empty, HashMap.empty, [], [], []⟩ raceLabels

def tableOvertaken : State RenewableTokens :=
  (machine PostgresRenewableTokenStore demoManager RenewableTokens.empty).final
    tableCheck tableRaced
    [.revokeToken demoContext "flow"]

theorem reach_tableRaced :
    (machine PostgresRenewableTokenStore demoManager RenewableTokens.empty).Reach
      FreshDraws tableRaced :=
  ⟨_, _, ⟨rfl, rfl, rfl⟩, Machine.path_final freshDraws_of_tableCheck (by decide +kernel)⟩

theorem table_race :
    tableRaced.history.filterMap Event.exchanged = ["r1"] ∧
      PostgresRenewableTokenStore.renew demoManager (demoEnv "j5" "r5") tableRaced.store "j1" "r1" =
        (.error (.notAuthorized "Invalid refresh token"), tableRaced.store) ∧
      PostgresRenewableTokenStore.validateToken (demoEnv "j5" "r5")
        tableRaced.store "anonymous" "j3" =
        .ok { sub := "consumer", aud := "anonymous", exp := 3600,
              custom := HashMap.empty.insert "jti" (.string "j3") } := by
  have hinj : Function.Injective demoManager.hash := fun a b h => h
  have hrace := table_single_use hinj reach_tableRaced
  have hhist : tableRaced.history = [.failed 2 (.tokenNotFound "r1")] ++
      .renewed 1 (demoIssue "j1" "r1") (demoIssue "j3" "r3") ::
        [.generated 0 (demoIssue "j1" "r1")] := rfl
  have hmem : .renewed 1 (demoIssue "j1" "r1") (demoIssue "j3" "r3") ∈ tableRaced.history := by
    simp [hhist]
  refine ⟨rfl, (hrace.2.1 1 _ _ hmem).1 _ "j1", ?_⟩
  exact hrace.2.2 _ _ _ _ hhist rfl (by simp [Event.retires]) _ "anonymous" "j3" _ rfl rfl

/-- Over the table a revocation ends the flow: until a pair is generated for it anew, no row of it
is left, every pair issued for it is refused, and the renewals in flight fail. -/
theorem table_revocation {m : JwtTokenManager} (hinj : Function.Injective m.hash)
    {s : State RenewableTokens}
    (h : (machine PostgresRenewableTokenStore m RenewableTokens.empty).Reach FreshDraws s)
    {later earlier : List Event} {flowId : String}
    (hsplit : s.history = later ++ .revoked flowId :: earlier)
    (hlater : ∀ ev ∈ later, ev.generatedFor flowId = false) :
    (∀ row ∈ s.store.rows, row.flowId ≠ flowId) ∧
      (∀ i ∈ s.issued, i.entry.flowId = flowId →
        (∀ env boundToken, PostgresRenewableTokenStore.renew m env s.store
          boundToken i.refreshToken = (.error (.notAuthorized "Invalid refresh token"), s.store)) ∧
        ∀ env audience token claims, env.providerVerifier audience token = .ok claims →
          claims.custom.get "jti" = some (.string i.entry.id) →
          PostgresRenewableTokenStore.validateToken env s.store audience token =
            .error (.notAuthorized "Token not found")) ∧
      ∀ c refreshToken entry newEntry pair,
        s.calls.get c = some (.updating refreshToken entry newEntry pair) → entry.flowId = flowId →
          ∃ e, next PostgresRenewableTokenStore m s (.update c) = some (s.fail c e) := by
  have hI := Inv.of_reach hinj h
  have hrows := hI.rows_revoked hsplit hlater
  have hgone : ∀ i ∈ s.issued, i.entry.flowId = flowId → Gone s i :=
    fun i hi hflow => ⟨hi, fun hrow => hrows _ hrow hflow⟩
  refine ⟨hrows, ?_, ?_⟩
  · intro i hi hflow
    refine ⟨fun env boundToken => hI.renew_gone hinj (hgone i hi hflow) env boundToken, ?_⟩
    intro env audience token claims hv hjti
    exact hI.validate_gone (hgone i hi hflow) hv hjti
  · intro c refreshToken entry newEntry pair hc hflow
    exact hI.update_gone hinj (hgone _ (hI.held c _ _ hc rfl) hflow) hc

theorem table_overtaken :
    PostgresRenewableTokenStore.renew demoManager (demoEnv "j5" "r5")
      tableOvertaken.store "j3" "r3" =
        (.error (.notAuthorized "Invalid refresh token"), tableOvertaken.store) ∧
      ∃ e, next PostgresRenewableTokenStore demoManager tableOvertaken (.update 3) =
        some (tableOvertaken.fail 3 e) := by
  have hinj : Function.Injective demoManager.hash := fun a b h => h
  have hreach := reach_tableRaced.extend (t := tableOvertaken)
    (Machine.path_final freshDraws_of_tableCheck (by decide +kernel))
  have hhist : tableOvertaken.history = [] ++ .revoked "flow" :: tableRaced.history := rfl
  have hover := table_revocation hinj hreach hhist (by simp)
  refine ⟨(hover.2.1 (demoIssue "j3" "r3") ?_ rfl).1 _ "j3", ?_⟩
  · have hissued : tableOvertaken.issued = [demoIssue "j3" "r3", demoIssue "j1" "r1"] := rfl
    simp [hissued]
  · have hcall : tableOvertaken.calls.get 3 = some (.updating "r3" (demoIssue "j3" "r3").entry
        (demoIssue "j4" "r4").entry ⟨"j4", "r4", 172800, "https://provider/token"⟩) := rfl
    exact hover.2.2 3 "r3" _ _ _ hcall rfl

end Facet.Renewable.Interleaved.Shared
