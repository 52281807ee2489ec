import Facet.FlowCleanup

/-!
# Cleanups over the life of a flow

The events of one flow in any order and number, over the in-memory stores. A flow may change
between events; its id and participant context do not. Every cleanup is recorded with its
result, the stores around it, and whether the event before it was a cleanup too.
-/
namespace Facet.Siglet.Lifecycle
open Renewable Client

inductive Event
  | start (env : CallEnv) (now : ℤ) (flow : DataFlow)
  | prepare (env : CallEnv) (now : ℤ) (flow : DataFlow)
  | started (now saved : ℤ) (flow : DataFlow)
  | suspend (flow : DataFlow)
  | terminate (flow : DataFlow)

def Event.flow : Event → DataFlow
  | .start _ _ flow | .prepare _ _ flow | .started _ _ flow | .suspend flow
  | .terminate flow => flow

def Event.isCleanup : Event → Bool
  | .suspend _ | .terminate _ => true
  | _ => false

structure Cleanup where
  result : Except HandlerError Unit
  before : Stores
  after : Stores
  repeated : Bool

structure State where
  stores : Stores
  cleanedLast : Bool
  cleanups : List Cleanup

def State.issued (s : State) (renewable : InnerStore) : State :=
  { s with stores := { s.stores with renewable := renewable }, cleanedLast := false }

def State.received (s : State) (tokens : MemoryTokenStore) : State :=
  { s with stores := { s.stores with tokens := tokens }, cleanedLast := false }

def State.cleaned (s : State) (outcome : Except HandlerError Unit × Stores) : State where
  stores := outcome.2
  cleanedLast := true
  cleanups := ⟨outcome.1, s.stores, outcome.2, s.cleanedLast⟩ :: s.cleanups

def deliver (h : SigletDataFlowHandler) (m : JwtTokenManager) (s : State) : Event → State
  | .start env now flow => s.issued (h.onStart m env now flow s.stores.renewable).2
  | .prepare env now flow => s.issued (h.onPrepare m env now flow s.stores.renewable).2
  | .started now saved flow => s.received (h.onStarted now saved flow s.stores.tokens).2
  | .suspend flow => s.cleaned (onSuspend m flow s.stores)
  | .terminate flow => s.cleaned (onTerminate m flow s.stores)

/-- The events of the flow with the given context and id. -/
def machine (h : SigletDataFlowHandler) (m : JwtTokenManager) (key : String × String) :
    Machine State Event where
  init s := s.cleanedLast = false ∧ s.cleanups = []
  next s e := if e.flow.tokenKey = key then some (deliver h m s e) else none

/-- The flow has something to clean up. -/
def Holding (key : String × String) (stores : Stores) : Prop :=
  stores.renewable.entriesByFlowId.get key.2 ≠ none ∨ stores.tokens.get key ≠ none

/-- A cleanup finds something, and is not delivered twice in a row. -/
def Due (key : String × String) (s : State) (e : Event) : Prop :=
  e.isCleanup = true → Holding key s.stores ∧ s.cleanedLast = false

/-- The cleanup succeeded, and changed nothing if it was a second one. -/
structure Cleanup.Fine (c : Cleanup) : Prop where
  ok : c.result = .ok ()
  idle : c.repeated = true → c.after = c.before

theorem cleanupTokens_ok_iff (m : JwtTokenManager) (flow : DataFlow) (stores : Stores) :
    ((cleanupTokens m flow (buildParticipantContext flow) stores).1 = .ok () ↔
      Holding flow.tokenKey stores) ∧ (Holding flow.tokenKey stores →
      (cleanupTokens m flow (buildParticipantContext flow) stores).2 ≠ stores) := by
  rcases cleanupTokens_cases m flow stores with
    ⟨e, hget, heq⟩ | ⟨hnone, record, hrecord, heq⟩ | ⟨hnone, hno, heq⟩
  · have hholding : Holding flow.tokenKey stores := by
      left
      rw [DataFlow.tokenKey, hget]
      simp
    rw [heq]
    refine ⟨⟨fun _ => hholding, fun _ => rfl⟩, fun _ hsame => ?_⟩
    have hrenewable := congrArg (fun s : Stores => s.renewable.entriesByFlowId.get flow.id) hsame
    simp [InnerStore.removeByFlowId, hget] at hrenewable
  · have hholding : Holding flow.tokenKey stores := by
      right
      rw [hrecord]
      simp
    rw [heq]
    refine ⟨⟨fun _ => hholding, fun _ => rfl⟩, fun _ hsame => ?_⟩
    have htokens := congrArg (fun s : Stores => s.tokens.get flow.tokenKey) hsame
    simp [hrecord] at htokens
  · have hnot : ¬ Holding flow.tokenKey stores := by
      intro hholding
      rcases hholding with h | h
      · exact h hnone
      · exact h hno
    rw [heq]
    exact ⟨⟨fun h => absurd h (by simp), fun h => absurd h hnot⟩, fun h => absurd h hnot⟩

theorem fine_iff (m : JwtTokenManager) (flow : DataFlow) (s : State)
    (outcome : Except HandlerError Unit × Stores)
    (houtcome : outcome = cleanupTokens m flow (buildParticipantContext flow) s.stores) :
    Cleanup.Fine ⟨outcome.1, s.stores, outcome.2, s.cleanedLast⟩ ↔
      Holding flow.tokenKey s.stores ∧ s.cleanedLast = false := by
  obtain ⟨hok, hchanges⟩ := cleanupTokens_ok_iff m flow s.stores
  rw [← houtcome] at hok hchanges
  constructor
  · intro hfine
    have hholding := hok.mp hfine.ok
    refine ⟨hholding, ?_⟩
    cases hlast : s.cleanedLast with
    | false => rfl
    | true => exact absurd (hfine.idle hlast) (hchanges hholding)
  · intro hdue
    refine ⟨hok.mpr hdue.1, fun hrepeated => ?_⟩
    exact absurd (hdue.2.symm.trans hrepeated) (by simp)

theorem deliver_cleanup (h : SigletDataFlowHandler) (m : JwtTokenManager) (s : State) {e : Event}
    (hcleanup : e.isCleanup = true) : ∃ c, (deliver h m s e).cleanups = c :: s.cleanups ∧
      (c.Fine ↔ Holding e.flow.tokenKey s.stores ∧ s.cleanedLast = false) := by
  cases e with
  | start env now flow => exact absurd hcleanup (by simp [Event.isCleanup])
  | prepare env now flow => exact absurd hcleanup (by simp [Event.isCleanup])
  | started now saved flow => exact absurd hcleanup (by simp [Event.isCleanup])
  | suspend flow => exact ⟨_, rfl, fine_iff m flow s _ rfl⟩
  | terminate flow => exact ⟨_, rfl, fine_iff m flow s _ rfl⟩

theorem deliver_other (h : SigletDataFlowHandler) (m : JwtTokenManager) (s : State) {e : Event}
    (hother : e.isCleanup = false) : (deliver h m s e).cleanups = s.cleanups := by
  cases e with
  | start env now flow => rfl
  | prepare env now flow => rfl
  | started now saved flow => rfl
  | suspend flow => exact absurd hother (by simp [Event.isCleanup])
  | terminate flow => exact absurd hother (by simp [Event.isCleanup])

theorem cleanups_step {h : SigletDataFlowHandler} {m : JwtTokenManager} {key : String × String}
    {s t : State} {e : Event} (hfine : ∀ c ∈ s.cleanups, c.Fine)
    (hnext : (machine h m key).next s e = some t) (hdue : Due key s e) :
    ∀ c ∈ t.cleanups, c.Fine := by
  simp only [machine] at hnext
  split_ifs at hnext with hkey
  obtain rfl := Option.some.inj hnext
  cases hcleanup : e.isCleanup with
  | false =>
    rw [deliver_other h m s hcleanup]
    exact hfine
  | true =>
    obtain ⟨c, hcons, hiff⟩ := deliver_cleanup h m s hcleanup
    intro c' hc'
    rw [hcons] at hc'
    rcases List.mem_cons.mp hc' with rfl | hc'
    · rw [hiff, hkey]
      exact hdue hcleanup
    · exact hfine c' hc'

/-- Each cleanup of a flow succeeds, and a second one changes nothing, exactly when it finds a pair
or a received token and the event before it was no cleanup; so in runs whose cleanups are all due,
all are fine. -/
theorem cleanups_succeed (h : SigletDataFlowHandler) (m : JwtTokenManager) (key : String × String) :
    (∀ s, (machine h m key).Reach Machine.Any s → ∀ e t, (machine h m key).next s e = some t →
      e.isCleanup = true →
      ∃ c, t.cleanups = c :: s.cleanups ∧ (c.Fine ↔ Holding key s.stores ∧ s.cleanedLast = false)) ∧
    (∀ s, (machine h m key).Reach (fun s e _ => Due key s e) s → ∀ c ∈ s.cleanups, c.Fine) := by
  constructor
  · intro s _ e t hnext hcleanup
    simp only [machine] at hnext
    split_ifs at hnext with hkey
    obtain rfl := Option.some.inj hnext
    obtain ⟨c, hcons, hiff⟩ := deliver_cleanup h m s hcleanup
    rw [hkey] at hiff
    exact ⟨c, hcons, hiff⟩
  · intro s hreach
    refine hreach.invariant (fun s hinit c hc => ?_) fun _ _ _ hfine hnext hdue =>
      cleanups_step hfine hnext hdue
    rw [hinit.2] at hc
    exact absurd hc List.not_mem_nil

def emptyStores : Stores := ⟨InnerStore.empty, HashMap.empty⟩

def fresh (stores : Stores) : State := ⟨stores, false, []⟩

/-- A flow that was prepared and then terminated. -/
theorem cleanups_succeed_after_prepare :
    ∀ c ∈ (deliver demoHandler demoManager (deliver demoHandler demoManager (fresh emptyStores)
      (.prepare (demoEnv "jti" "minted") 0 demoFlow)) (.terminate demoFlow)).cleanups, c.Fine := by
  refine (cleanups_succeed demoHandler demoManager ("pc", "flow")).2 _ ?_
  have hinit : (machine demoHandler demoManager ("pc", "flow")).init (fresh emptyStores) :=
    ⟨rfl, rfl⟩
  refine ((Machine.Reach.initial hinit).snoc
    (l := .prepare (demoEnv "jti" "minted") 0 demoFlow) rfl ?_).snoc
    (l := .terminate demoFlow) rfl ?_
  · intro hcleanup
    exact absurd hcleanup (by simp [Event.isCleanup])
  · intro _
    refine ⟨Or.inl ?_, rfl⟩
    have hget : preparedStores.renewable.entriesByFlowId.get "flow" = some mintedEntry := rfl
    exact fun hnone => absurd (hget.symm.trans hnone) (by simp)

/-- `on_terminate` of a flow that never held a token fails, and so does one after `on_suspend`; of a
flow with a pair and a received token a second cleanup removes the token. -/
theorem cleanup_fails_on_missing :
    (¬ ∀ (h : SigletDataFlowHandler) (m : JwtTokenManager) (key : String × String) (s : State),
      (machine h m key).Reach Machine.Any s → ∀ c ∈ s.cleanups, c.Fine) ∧
    (onTerminate demoManager demoFlow emptyStores).1 =
      .error (.generic "Failed to remove token: Token not found for identifier: flow") ∧
    (onTerminate demoManager demoFlow (onSuspend demoManager demoFlow preparedStores).2).1 =
      .error (.generic "Failed to remove token: Token not found for identifier: flow") ∧
    (onTerminate demoManager demoFlow
      (onTerminate demoManager demoFlow startedStores).2).2.tokens.get ("pc", "flow") = none := by
  have herror : (onTerminate demoManager demoFlow emptyStores).1 =
      .error (.generic "Failed to remove token: Token not found for identifier: flow") := rfl
  refine ⟨fun h => ?_, herror, rfl, rfl⟩
  have hinit : (machine demoHandler demoManager ("pc", "flow")).init (fresh emptyStores) :=
    ⟨rfl, rfl⟩
  have hreach : (machine demoHandler demoManager ("pc", "flow")).Reach Machine.Any
      (deliver demoHandler demoManager (fresh emptyStores) (.terminate demoFlow)) :=
    (Machine.Reach.initial hinit).snoc (l := .terminate demoFlow) rfl trivial
  have hok : (onTerminate demoManager demoFlow emptyStores).1 = .ok () :=
    (h _ _ _ _ hreach _ List.mem_cons_self).ok
  exact absurd (herror.symm.trans hok) (by simp)

end Facet.Siglet.Lifecycle
