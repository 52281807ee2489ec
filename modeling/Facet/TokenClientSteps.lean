import Facet.TokenClient

/-!
# Steps of the token client

Every step is one of ten moves. From the moves follows the bookkeeping that holds in all
runs in which no lock expires: the lock record counts the guards in scope and the unlocks
still to run, and the history says what happened to the record.
-/
namespace Facet.Client
open Lock

/-- What a call has read under the lock is what is stored. -/
def Phase.Sees (api : TokenClientApi) (stored : Option TokenData) : Phase → Prop
  | .rechecking _ data => stored = some data
  | .refreshing _ request => ∃ data, stored = some data ∧ request = api.refreshRequest data
  | .updating _ _ => ∃ data, stored = some data
  | _ => True

theorem Phase.sees_of_not_holds {api : TokenClientApi} {stored : Option TokenData} {phase : Phase}
    (h : phase.holds = false) : phase.Sees api stored := by
  cases phase <;> simp_all [Phase.holds, Phase.Sees]

/-- The call has the lock and has not compared the clock again. -/
def Phase.undecided : Phase → Bool
  | .refetching _ | .rechecking .. => true
  | _ => false

/-- The call has not called the refresh endpoint. -/
def Phase.early : Phase → Bool
  | .refreshing .. | .updating .. | .returning _ => false
  | _ => true

theorem Phase.holds_of_undecided {phase : Phase} (h : phase.undecided = true) :
    phase.holds = true := by
  revert h
  cases phase <;> simp [Phase.undecided, Phase.holds]

theorem Phase.isGet_of_undecided {phase : Phase} (h : phase.undecided = true) :
    phase.isGet = true := by
  revert h
  cases phase <;> simp [Phase.undecided, Phase.isGet]

theorem Phase.early_of_not_holds {phase : Phase} (h : phase.holds = false) :
    phase.early = true := by
  revert h
  cases phase <;> simp [Phase.holds, Phase.early]

theorem Phase.ne_returning_of_not_holds {phase : Phase} (h : phase.holds = false)
    (r : TokenResult) : phase ≠ .returning r := by
  intro hp
  rw [hp] at h
  exact absurd h (by simp [Phase.holds])

/-- The call has to take the lock next. -/
def Phase.awaitsLock : Phase → Bool
  | .locking _ | .saveLocking _ | .deleteLocking => true
  | _ => false

/-- The owner and the first phase of the call that the label starts. -/
def Label.starts : Label → Option Call
  | .getToken owner => some ⟨owner, .fetching⟩
  | .saveToken data owner => some ⟨owner, .saveLocking data⟩
  | .deleteToken owner => some ⟨owner, .deleteLocking⟩
  | _ => none

/-- The event is the end of its call. -/
def Event.ends : Event → Bool
  | .got .. | .saved .. | .removed _ | .failed .. => true
  | _ => false

/-- What a call that gives its guard back did to the store. -/
inductive Leaves (api : TokenClientApi) (s : State) (c : ℕ) (tokens : MemoryTokenStore) :
    Phase → Event → Prop
  | untouched (phase : Phase) (ev : Event) (data : ∀ k, tokens.dataAt k = s.tokens.dataAt k)
      (writes : ev.writes = false) (ends : ev.ends = true) (call : ev.call = c)
      (error : ∀ e, ev = .got c (.error e) → ∀ r, phase ≠ .returning r) :
      Leaves api s c tokens phase ev
  | saved (data : TokenData) (stored : tokens.dataAt api.key = some data)
      (filed : data.participantContext = api.pc.id) :
      Leaves api s c tokens (.saving data) (.saved c data)
  | removed (stored : tokens.dataAt api.key = none) : Leaves api s c tokens .deleting (.removed c)

/-- The ten kinds of step. -/
inductive Move (api : TokenClientApi) (s : State) (l : Label) : State → Prop
  | start (owner : String) (phase : Phase) (label : l.starts = some ⟨owner, phase⟩)
      (free : phase.holds = false) (save : ∀ data, phase.toSave = some data →
        data.participantContext = api.pc.id ∧ data.identifier = api.identifier) :
      Move api s l (s.start owner phase)
  | walk (c : ℕ) (owner : String) (phase phase' : Phase) (tokens : MemoryTokenStore)
      (running : s.calls.get c = some ⟨owner, phase⟩) (holds : phase'.holds = phase.holds)
      (data : ∀ k, tokens.dataAt k = s.tokens.dataAt k)
      (sees : phase.Sees api (s.tokens.dataAt api.key) → phase'.Sees api (s.tokens.dataAt api.key))
      (save : phase'.toSave = none) (get : phase'.isGet = phase.isGet)
      (busy : ∀ r, phase ≠ .returning r)
      (undecided : phase'.undecided = true → phase.undecided = true)
      (early : phase'.early = true → phase.early = true)
      (answer : ∀ e r, phase' = .updating e r → l = .answered c (.ok r)) :
      Move api s l ({ s with tokens := tokens }.goto c owner phase')
  | call (c : ℕ) (owner endpoint : String) (data : TokenData)
      (running : s.calls.get c = some ⟨owner, .rechecking endpoint data⟩) :
      Move api s l ((s.log (.refreshCalled c (api.refreshRequest data))).goto c owner
        (.refreshing endpoint (api.refreshRequest data)))
  | update (c : ℕ) (owner endpoint : String) (refreshed : RefreshedTokenData) (old : TokenData)
      (tokens : MemoryTokenStore)
      (running : s.calls.get c = some ⟨owner, .updating endpoint refreshed⟩)
      (stored : s.tokens.dataAt api.key = some old)
      (data : tokens.dataAt api.key = some (old.refresh refreshed)) :
      Move api s l (({ s with tokens := tokens }.log (.updated c refreshed)).goto c owner
        (.returning ⟨refreshed.token, endpoint⟩))
  | leave (c : ℕ) (owner : String) (phase : Phase) (tokens : MemoryTokenStore) (ev : Event)
      (running : s.calls.get c = some ⟨owner, phase⟩) (free : phase.holds = false)
      (data : ∀ k, tokens.dataAt k = s.tokens.dataAt k) (writes : ev.writes = false)
      (ends : ev.ends = true) (call : ev.call = c) :
      Move api s l ({ s with tokens := tokens }.finish c ev)
  | acquire (c : ℕ) (owner : String) (phase phase' : Phase) (history : List Event)
      (label : l = .step c) (running : s.calls.get c = some ⟨owner, phase⟩)
      (free : phase.holds = false) (waits : phase.awaitsLock = true) (holds : phase'.holds = true)
      (ok : (lock api.lockTimeout s.now s.locks api.identifier owner).1 =
        .ok ⟨api.identifier, owner⟩)
      (save : ∀ data, phase'.toSave = some data → phase.toSave = some data)
      (get : phase'.isGet = phase.isGet)
      (logged : (history = .locked c :: s.history ∧ ∃ e, phase' = .refetching e) ∨
        (history = s.history ∧ phase'.isGet = false)) :
      Move api s l { s with
        locks := (lock api.lockTimeout s.now s.locks api.identifier owner).2
        guards := (c, owner) :: s.guards
        calls := s.calls.insert c ⟨owner, phase'⟩
        history := history }
  | refuse (c : ℕ) (owner : String) (phase : Phase) (e : LockError) (ev : Event)
      (running : s.calls.get c = some ⟨owner, phase⟩) (free : phase.holds = false)
      (error : (lock api.lockTimeout s.now s.locks api.identifier owner).1 = .error e)
      (writes : ev.writes = false) (ends : ev.ends = true) (call : ev.call = c) :
      Move api s l
        ({ s with
          locks := (lock api.lockTimeout s.now s.locks api.identifier owner).2 }.finish c ev)
  | release (c : ℕ) (owner : String) (phase : Phase) (tokens : MemoryTokenStore) (ev : Event)
      (running : s.calls.get c = some ⟨owner, phase⟩) (holds : phase.holds = true)
      (leaves : Leaves api s c tokens phase ev) :
      Move api s l (({ s with tokens := tokens }.dropGuard c owner).finish c ev)
  | unlock (owner : String) (pending : owner ∈ s.pendingUnlocks) :
      Move api s l { s with
        locks := (Lock.unlock s.locks api.identifier owner).2
        pendingUnlocks := s.pendingUnlocks.erase owner }
  | tick (elapsed : ℕ) : Move api s l { s with now := s.now + elapsed }

/-- Calls of `save_token` are about the client's record. -/
def SavesHere (api : TokenClientApi) (s : State) : Prop :=
  ∀ c call data, s.calls.get c = some call →
    call.phase.toSave = some data → data.participantContext = api.pc.id ∧
      data.identifier = api.identifier

section Moves
variable {api : TokenClientApi} {s t : State} {l : Label}

theorem lockThen_move {c : ℕ} {owner : String} {phase phase' : Phase} {acquired : State → State}
    {refused : TokenError → Event} (running : s.calls.get c = some ⟨owner, phase⟩)
    (free : phase.holds = false) (waits : phase.awaitsLock = true) (holds : phase'.holds = true)
    (save : ∀ data, phase'.toSave = some data → phase.toSave = some data)
    (get : phase'.isGet = phase.isGet)
    (hget : (acquired = (State.log · (.locked c)) ∧ ∃ e, phase' = .refetching e) ∨
      (acquired = id ∧ phase'.isGet = false))
    (hrefused : ∀ e, (refused e).writes = false ∧ (refused e).ends = true ∧ (refused e).call = c) :
    Move api s (.step c) (lockThen api s c api.identifier owner phase' acquired refused) := by
  unfold lockThen
  cases hr : (lock api.lockTimeout s.now s.locks api.identifier owner).1 with
  | error e =>
    obtain ⟨h1, h2, h3⟩ := hrefused (TokenClientApi.lockFailure e)
    simp only [hr]
    exact Move.refuse c owner phase e _ running free hr h1 h2 h3
  | ok g =>
    have hok : (lock api.lockTimeout s.now s.locks api.identifier owner).1 =
        .ok ⟨api.identifier, owner⟩ := by
      rw [hr, (lock_ok_cases hr).1]
    simp only [hr]
    rcases hget with ⟨rfl, he⟩ | ⟨rfl, he⟩
    · exact Move.acquire c owner phase phase' _ rfl running free waits holds hok save get
        (Or.inl ⟨rfl, he⟩)
    · exact Move.acquire c owner phase phase' _ rfl running free waits holds hok save get
        (Or.inr ⟨rfl, he⟩)

theorem stepCall_move {c : ℕ} {owner : String} {phase : Phase} (hs : SavesHere api s)
    (running : s.calls.get c = some ⟨owner, phase⟩) (h : stepCall api s c owner phase = some t) :
    Move api s (.step c) t := by
  have hread := s.tokens.dataAt_getToken s.now api.pc api.identifier
  cases phase with
  | fetching =>
    rcases s.tokens.getToken_cases s.now api.pc api.identifier with ⟨-, he⟩ | ⟨data, -, -, he⟩
    · simp only [stepCall, he, Option.some.injEq] at h
      rw [← h]
      exact Move.leave c owner _ _ _ running rfl (fun _ => rfl) rfl rfl rfl
    · simp only [stepCall, he, Option.some.injEq] at h
      rw [← h]
      exact Move.walk c owner _ _ _ running rfl hread (fun _ => trivial) rfl rfl (by simp)
        (by simp [Phase.undecided])
        (fun _ => rfl) (by simp)
  | checking data =>
    simp only [stepCall] at h
    split_ifs at h with hv <;> rw [← Option.some.inj h]
    · exact Move.leave c owner _ s.tokens _ running rfl (fun _ => rfl) rfl rfl rfl
    · exact Move.walk c owner _ _ s.tokens running rfl (fun _ => rfl)
        (fun _ => trivial) rfl rfl (by simp)
        (by simp [Phase.undecided]) (fun _ => rfl) (by simp)
  | locking endpoint =>
    simp only [stepCall, Option.some.injEq] at h
    rw [← h]
    exact lockThen_move running rfl rfl rfl (by simp [Phase.toSave]) rfl
      (Or.inl ⟨rfl, endpoint, rfl⟩) fun _ => ⟨rfl, rfl, rfl⟩
  | refetching endpoint =>
    rcases s.tokens.getToken_cases s.now api.pc api.identifier with ⟨-, he⟩ | ⟨data, hd, -, he⟩
    · simp only [stepCall, he, Option.some.injEq] at h
      rw [← h]
      exact Move.release c owner _ _ _ running rfl
        (.untouched _ _ (fun _ => rfl) rfl rfl rfl (by simp))
    · simp only [stepCall, he, Option.some.injEq] at h
      rw [← h]
      exact Move.walk c owner _ _ _ running rfl hread (fun _ => hd) rfl rfl (by simp)
        (fun _ => rfl) (fun _ => rfl)
        (by simp)
  | rechecking endpoint data =>
    simp only [stepCall] at h
    split_ifs at h with hv <;> rw [← Option.some.inj h]
    · exact Move.release c owner _ s.tokens _ running rfl
        (.untouched _ _ (fun _ => rfl) rfl rfl rfl (by simp))
    · exact Move.call c owner endpoint data running
  | refreshing endpoint request => simp [stepCall] at h
  | updating endpoint refreshed =>
    rcases s.tokens.updateToken_cases s.now api.pc.id api.identifier refreshed with
      ⟨-, he⟩ | ⟨old, hd, he, hk⟩
    · simp only [stepCall, he, Option.some.injEq] at h
      rw [← h]
      exact Move.release c owner _ _ _ running rfl
        (.untouched _ _ (fun _ => rfl) rfl rfl rfl (by simp))
    · simp only [stepCall, he, Option.some.injEq] at h
      rw [← h]
      exact Move.update c owner endpoint refreshed old _ running hd
        (by simpa [TokenClientApi.key] using hk api.key)
  | returning result =>
    simp only [stepCall, Option.some.injEq] at h
    rw [← h]
    exact Move.release c owner _ s.tokens _ running rfl
      (.untouched _ _ (fun _ => rfl) rfl rfl rfl (by simp))
  | saveLocking data =>
    simp only [stepCall, Option.some.injEq, (hs c _ data running rfl).2] at h
    rw [← h]
    exact lockThen_move running rfl rfl rfl (by simp [Phase.toSave]) rfl (Or.inr ⟨rfl, rfl⟩)
      fun _ => ⟨rfl, rfl, rfl⟩
  | saving data =>
    simp only [stepCall, Option.some.injEq] at h
    rw [← h]
    obtain ⟨hp, hi⟩ := hs c _ data running rfl
    refine Move.release c owner _ _ _ running rfl (.saved data ?_ hp)
    rw [MemoryTokenStore.dataAt_saveToken, if_pos (by rw [hp, hi]; rfl)]
  | deleteLocking =>
    simp only [stepCall, Option.some.injEq] at h
    rw [← h]
    exact lockThen_move running rfl rfl rfl (by simp [Phase.toSave]) rfl (Or.inr ⟨rfl, rfl⟩)
      fun _ => ⟨rfl, rfl, rfl⟩
  | deleting =>
    rcases s.tokens.removeToken_cases api.pc.id api.identifier with ⟨-, he⟩ | ⟨old, -, he, hk⟩
    · simp only [stepCall, he, Option.some.injEq] at h
      rw [← h]
      exact Move.release c owner _ _ _ running rfl
        (.untouched _ _ (fun _ => rfl) rfl rfl rfl (by simp))
    · simp only [stepCall, he, Option.some.injEq] at h
      rw [← h]
      exact Move.release c owner _ _ _ running rfl
        (.removed (by simpa [TokenClientApi.key] using hk api.key))

theorem next_move (hs : SavesHere api s) (h : next api s l = some t) : Move api s l t := by
  cases l with
  | getToken owner =>
    simp only [next, Option.some.injEq] at h
    rw [← h]
    exact Move.start owner _ rfl rfl (by simp [Phase.toSave])
  | saveToken data owner =>
    simp only [next] at h
    split_ifs at h with hd
    rw [← Option.some.inj h]
    exact Move.start owner _ rfl rfl (by simpa [Phase.toSave] using hd)
  | deleteToken owner =>
    simp only [next, Option.some.injEq] at h
    rw [← h]
    exact Move.start owner _ rfl rfl (by simp [Phase.toSave])
  | step c =>
    simp only [next] at h
    cases hc : s.calls.get c with
    | none => simp [hc] at h
    | some call =>
      rw [hc] at h
      exact stepCall_move hs hc h
  | answered c result =>
    simp only [next] at h
    cases hc : s.calls.get c with
    | none => simp [hc] at h
    | some call =>
      obtain ⟨owner, phase⟩ := call
      cases phase <;> simp only [hc, reduceCtorEq] at h
      cases result with
      | ok refreshed =>
        simp only [Option.some.injEq] at h
        rw [← h]
        refine Move.walk c owner _ _ s.tokens hc rfl (fun _ => rfl) ?_ rfl rfl (by simp)
          (by simp [Phase.undecided]) (by simp [Phase.early]) (by simp)
        rintro ⟨data, hd, -⟩
        exact ⟨data, hd⟩
      | error e =>
        simp only [Option.some.injEq] at h
        rw [← h]
        exact Move.release c owner _ s.tokens _ hc rfl
          (.untouched _ _ (fun _ => rfl) rfl rfl rfl (by simp))
  | unlock owner =>
    simp only [next] at h
    split_ifs at h with hp
    rw [← Option.some.inj h]
    exact Move.unlock owner hp
  | tick elapsed =>
    simp only [next, Option.some.injEq] at h
    rw [← h]
    exact Move.tick elapsed

end Moves

/-! ## Guards, owners and call numbers -/

/-- Call `c` runs for `owner` with the guard in scope. -/
def Holds (calls : HashMap ℕ Call) (c : ℕ) (owner : String) : Prop :=
  ∃ phase, calls.get c = some ⟨owner, phase⟩ ∧ phase.holds = true

section Holds
variable {calls : HashMap ℕ Call} {c d : ℕ} {o q : String} {phase phase' : Phase}

theorem holds_insert_same (hc : calls.get c = some ⟨o, phase⟩) (hp : phase'.holds = phase.holds) :
    Holds (calls.insert c ⟨o, phase'⟩) d q ↔ Holds calls d q := by
  unfold Holds
  by_cases hd : d = c
  · subst hd
    simp only [HashMap.get_insert, if_true, hc, Option.some.injEq, Call.mk.injEq]
    constructor
    · rintro ⟨p, ⟨rfl, rfl⟩, h⟩
      exact ⟨phase, ⟨rfl, rfl⟩, hp ▸ h⟩
    · rintro ⟨p, ⟨rfl, rfl⟩, h⟩
      exact ⟨phase', ⟨rfl, rfl⟩, hp ▸ h⟩
  · simp [hd]

theorem holds_insert_free (hc : ∀ q, ¬ Holds calls c q) (hp : phase'.holds = false) :
    Holds (calls.insert c ⟨o, phase'⟩) d q ↔ Holds calls d q := by
  by_cases hd : d = c
  · subst hd
    refine iff_of_false ?_ (hc q)
    rintro ⟨p, hg, h⟩
    simp only [HashMap.get_insert, if_true, Option.some.injEq, Call.mk.injEq] at hg
    rw [← hg.2, hp] at h
    exact absurd h (by simp)
  · simp [Holds, hd]

theorem holds_insert_taken (hp : phase'.holds = true) :
    Holds (calls.insert c ⟨o, phase'⟩) d q ↔ (d = c ∧ q = o) ∨ (d ≠ c ∧ Holds calls d q) := by
  by_cases hd : d = c
  · subst hd
    simp only [Holds, HashMap.get_insert, if_true, Option.some.injEq,
      Call.mk.injEq, true_and, ne_eq, not_true_eq_false, false_and, or_false]
    constructor
    · rintro ⟨p, ⟨rfl, -⟩, -⟩
      rfl
    · rintro rfl
      exact ⟨phase', ⟨rfl, rfl⟩, hp⟩
  · simp [Holds, hd]

theorem holds_remove : Holds (calls.remove c) d q ↔ d ≠ c ∧ Holds calls d q := by
  by_cases hd : d = c
  · simp [Holds, hd]
  · simp [Holds, hd]

theorem not_holds_of_free (hc : calls.get c = some ⟨o, phase⟩) (hp : phase.holds = false) :
    ¬ Holds calls c q := by
  rintro ⟨p, hg, h⟩
  rw [hc, Option.some.injEq, Call.mk.injEq] at hg
  rw [← hg.2, hp] at h
  exact absurd h (by simp)

theorem Holds.owner_eq (h : Holds calls c q) (hc : calls.get c = some ⟨o, phase⟩) : q = o := by
  obtain ⟨p, hg, -⟩ := h
  rw [hc, Option.some.injEq, Call.mk.injEq] at hg
  exact hg.1.symm

end Holds

/-! ## What a step adds to the history and does to the record -/

/-- How an event changes the stored data from `before` to `after`. -/
inductive Effect (api : TokenClientApi) (before after : Option TokenData) : Event → Prop
  | none (ev : Event) (writes : ev.writes = false) (same : after = before) :
      Effect api before after ev
  | updated (c : ℕ) (refreshed : RefreshedTokenData) (old : TokenData) (stored : before = some old)
      (now : after = some (old.refresh refreshed)) : Effect api before after (.updated c refreshed)
  | saved (c : ℕ) (data : TokenData) (now : after = some data)
      (filed : data.participantContext = api.pc.id) :
      Effect api before after (.saved c data)
  | removed (c : ℕ) (now : after = Option.none) : Effect api before after (.removed c)

theorem Leaves.effect {api : TokenClientApi} {s : State} {c : ℕ} {tokens : MemoryTokenStore}
    {phase : Phase} {ev : Event} (h : Leaves api s c tokens phase ev) :
    ev.call = c ∧ ev.ends = true ∧ (∀ e, ev = .got c (.error e) → ∀ r, phase ≠ .returning r) ∧
      (ev.writes = true → phase.isGet = false) ∧
      Effect api (s.tokens.dataAt api.key) (tokens.dataAt api.key) ev := by
  cases h with
  | untouched phase ev data writes ends call error =>
    exact ⟨call, ends, error, by simp [writes], .none ev writes (data api.key)⟩
  | saved data stored filed => exact ⟨rfl, rfl, by simp, fun _ => rfl, .saved c data stored filed⟩
  | removed stored => exact ⟨rfl, rfl, by simp, fun _ => rfl, .removed c stored⟩

theorem Move.effect {api : TokenClientApi} {s t : State} {l : Label} (hm : Move api s l t) :
    (t.history = s.history ∧ t.tokens.dataAt api.key = s.tokens.dataAt api.key) ∨
      ∃ ev call, t.history = ev :: s.history ∧ s.calls.get ev.call = some call ∧
        Effect api (s.tokens.dataAt api.key) (t.tokens.dataAt api.key) ev := by
  cases hm with
  | start => exact Or.inl ⟨rfl, rfl⟩
  | walk c owner phase phase' tokens running holds data => exact Or.inl ⟨rfl, data api.key⟩
  | call c owner endpoint data running => exact Or.inr ⟨_, _, rfl, running, .none _ rfl rfl⟩
  | update c owner endpoint refreshed old tokens running stored data =>
    exact Or.inr ⟨_, _, rfl, running, .updated c refreshed old stored data⟩
  | leave c owner phase tokens ev running free data writes ends call =>
    exact Or.inr ⟨ev, _, rfl, call ▸ running, .none ev writes (data api.key)⟩
  | acquire c owner phase phase' history label running free waits holds ok save get logged =>
    rcases logged with ⟨rfl, -⟩ | ⟨rfl, -⟩
    · exact Or.inr ⟨.locked c, _, rfl, running, .none _ rfl rfl⟩
    · exact Or.inl ⟨rfl, rfl⟩
  | refuse c owner phase e ev running free error writes ends call =>
    exact Or.inr ⟨ev, _, rfl, call ▸ running, .none ev writes rfl⟩
  | release c owner phase tokens ev running holds leaves =>
    obtain ⟨rfl, -, -, -, he⟩ := leaves.effect
    exact Or.inr ⟨ev, _, rfl, running, he⟩
  | unlock => exact Or.inl ⟨rfl, rfl⟩
  | tick => exact Or.inl ⟨rfl, rfl⟩

theorem Move.nextCall_le {api : TokenClientApi} {s t : State} {l : Label} (hm : Move api s l t) :
    s.nextCall ≤ t.nextCall := by
  cases hm with
  | start => exact Nat.le_succ _
  | _ => exact le_rfl

structure Inv (api : TokenClientApi) (s : State) : Prop where
  accounted : Accounted s.locks api.identifier (s.guards.map Prod.snd ++ s.pendingUnlocks)
  guards_iff : ∀ c o, (c, o) ∈ s.guards ↔ Holds s.calls c o
  guards_nodup : s.guards.Nodup
  calls_lt : ∀ c call, s.calls.get c = some call → c < s.nextCall
  events_lt : ∀ ev ∈ s.history, ev.call < s.nextCall
  saves : SavesHere api s
  filed : ∀ data, s.tokens.dataAt api.key = some data → data.participantContext = api.pc.id

section Invariant
variable {api : TokenClientApi} {s t : State} {l : Label}

theorem Inv.accounted_step (h : Inv api s) (hm : Move api s l t)
    (hu : Unexpired api.lockTimeout s.now s.locks api.identifier) :
    Accounted t.locks api.identifier (t.guards.map Prod.snd ++ t.pendingUnlocks) := by
  have hA := h.accounted
  cases hm with
  | start => exact hA
  | walk => exact hA
  | call => exact hA
  | update => exact hA
  | leave => exact hA
  | tick => exact hA
  | acquire c owner phase phase' history label running free waits holds ok => exact hA.lock_ok hu ok
  | refuse c owner phase e ev running free error writes ends call => exact hA.lock_error hu error
  | release c owner phase tokens ev running holds leaves =>
    have hmem : (c, owner) ∈ s.guards := (h.guards_iff c owner).mpr ⟨phase, running, holds⟩
    have hperm := ((List.perm_cons_erase hmem).map Prod.snd).append_right s.pendingUnlocks
    exact hA.perm (hperm.trans List.perm_middle.symm)
  | unlock owner pending =>
    have hpos := List.length_pos_of_mem pending
    refine (hA.unlock (List.mem_append_right _ pending) ?_ ?_).2
    · simp only [List.length_append, List.length_erase_of_mem pending]
      omega
    · intro p hp
      rcases List.mem_append.mp hp with hp | hp
      · exact List.mem_append_left _ hp
      · exact List.mem_append_right _ (List.mem_of_mem_erase hp)

theorem Inv.guards_iff_step (h : Inv api s) (hm : Move api s l t) :
    ∀ c o, (c, o) ∈ t.guards ↔ Holds t.calls c o := by
  intro d q
  have hG := h.guards_iff d q
  cases hm with
  | start owner phase label free save =>
    have hnew : ∀ q, ¬ Holds s.calls s.nextCall q := by
      rintro q ⟨p, hg, -⟩
      exact absurd (h.calls_lt _ _ hg) (by omega)
    exact hG.trans (holds_insert_free hnew free).symm
  | walk c owner phase phase' tokens running holds data sees save =>
    exact hG.trans (holds_insert_same running holds).symm
  | call c owner endpoint data running =>
    refine hG.trans (holds_insert_same running ?_).symm
    rfl
  | update c owner endpoint refreshed old tokens running =>
    refine hG.trans (holds_insert_same running ?_).symm
    rfl
  | leave c owner phase tokens ev running free =>
    refine hG.trans (Iff.trans ?_ holds_remove.symm)
    constructor
    · intro hh
      exact ⟨fun hd => not_holds_of_free running free (hd ▸ hh), hh⟩
    · exact fun hh => hh.2
  | refuse c owner phase e ev running free =>
    refine hG.trans (Iff.trans ?_ holds_remove.symm)
    constructor
    · intro hh
      exact ⟨fun hd => not_holds_of_free running free (hd ▸ hh), hh⟩
    · exact fun hh => hh.2
  | acquire c owner phase phase' history label running free waits holds =>
    simp only [List.mem_cons, Prod.mk.injEq, holds_insert_taken holds, hG]
    constructor
    · rintro (hdq | hh)
      · exact Or.inl hdq
      · exact Or.inr ⟨fun hd => not_holds_of_free running free (hd ▸ hh), hh⟩
    · rintro (hdq | ⟨-, hh⟩)
      · exact Or.inl hdq
      · exact Or.inr hh
  | release c owner phase tokens ev running holds leaves =>
    simp only [State.finish, State.dropGuard, holds_remove, h.guards_nodup.mem_erase_iff, hG, ne_eq,
      Prod.mk.injEq]
    constructor
    · rintro ⟨hne, hh⟩
      refine ⟨?_, hh⟩
      rintro rfl
      exact hne ⟨rfl, hh.owner_eq running⟩
    · rintro ⟨hne, hh⟩
      exact ⟨fun hd => hne hd.1, hh⟩
  | unlock => exact hG
  | tick => exact hG

theorem Inv.guards_nodup_step (h : Inv api s) (hm : Move api s l t) : t.guards.Nodup := by
  have hN := h.guards_nodup
  cases hm with
  | acquire c owner phase phase' history label running free =>
    refine List.nodup_cons.mpr ⟨fun hmem => ?_, hN⟩
    exact not_holds_of_free running free ((h.guards_iff c owner).mp hmem)
  | release c owner => exact hN.erase (c, owner)
  | _ => exact hN

theorem Inv.calls_lt_step (h : Inv api s) (hm : Move api s l t) :
    ∀ c call, t.calls.get c = some call → c < t.nextCall := by
  have hinsert : ∀ (c : ℕ) (call call' : Call), s.calls.get c = some call → ∀ d x,
      (s.calls.insert c call').get d = some x → d < s.nextCall := by
    intro c call call' hc d x hd
    by_cases hdc : d = c
    · rw [hdc]
      exact h.calls_lt c call hc
    · rw [HashMap.get_insert, if_neg hdc] at hd
      exact h.calls_lt d x hd
  have hremove : ∀ (c d : ℕ) (x : Call), (s.calls.remove c).get d = some x → d < s.nextCall := by
    intro c d x hd
    rw [HashMap.get_remove] at hd
    split_ifs at hd
    exact h.calls_lt d x hd
  cases hm with
  | start owner phase label free save =>
    intro d x hd
    simp only [State.start] at hd ⊢
    by_cases hdc : d = s.nextCall
    · omega
    · rw [HashMap.get_insert, if_neg hdc] at hd
      have := h.calls_lt d x hd
      omega
  | walk c owner phase phase' tokens running => exact hinsert c _ _ running
  | call c owner endpoint data running => exact hinsert c _ _ running
  | update c owner endpoint refreshed old tokens running => exact hinsert c _ _ running
  | acquire c owner phase phase' history label running => exact hinsert c _ _ running
  | leave c => exact hremove c
  | refuse c => exact hremove c
  | release c => exact hremove c
  | unlock => exact h.calls_lt
  | tick => exact h.calls_lt

theorem Inv.events_lt_step (h : Inv api s) (hm : Move api s l t) :
    ∀ ev ∈ t.history, ev.call < t.nextCall := by
  have hle := hm.nextCall_le
  have hold : ∀ ev ∈ s.history, ev.call < t.nextCall :=
    fun ev hev => lt_of_lt_of_le (h.events_lt ev hev) hle
  rcases hm.effect with ⟨hh, -⟩ | ⟨ev, call, hh, hc, -⟩
  · rw [hh]
    exact hold
  · rw [hh]
    intro ev' hev'
    rcases List.mem_cons.mp hev' with rfl | hev'
    · exact lt_of_lt_of_le (h.calls_lt _ _ hc) hle
    · exact hold ev' hev'

theorem Inv.saves_step (h : Inv api s) (hm : Move api s l t) : SavesHere api t := by
  have hinsert : ∀ (c : ℕ) (call : Call), (∀ data, call.phase.toSave = some data →
      data.participantContext = api.pc.id ∧ data.identifier = api.identifier) →
      ∀ d x data, (s.calls.insert c call).get d = some x → x.phase.toSave = some data →
        data.participantContext = api.pc.id ∧ data.identifier = api.identifier := by
    intro c call hcall d x data hd hx
    rw [HashMap.get_insert] at hd
    split_ifs at hd
    · obtain rfl := Option.some.inj hd
      exact hcall data hx
    · exact h.saves d x data hd hx
  have hremove : ∀ (c d : ℕ) (x : Call) data, (s.calls.remove c).get d = some x →
      x.phase.toSave = some data →
      data.participantContext = api.pc.id ∧ data.identifier = api.identifier := by
    intro c d x data hd hx
    rw [HashMap.get_remove] at hd
    split_ifs at hd
    exact h.saves d x data hd hx
  cases hm with
  | start owner phase label free save => exact hinsert _ _ save
  | walk c owner phase phase' tokens running holds data sees save =>
    exact hinsert c _ (by simp [save])
  | call c => exact hinsert c _ (by simp [Phase.toSave])
  | update c => exact hinsert c _ (by simp [Phase.toSave])
  | acquire c owner phase phase' history label running free waits holds ok save =>
    exact hinsert c _ fun data hd => h.saves c _ data running (save data hd)
  | leave c => exact hremove c
  | refuse c => exact hremove c
  | release c => exact hremove c
  | unlock => exact h.saves
  | tick => exact h.saves

theorem Inv.filed_step (h : Inv api s) (hm : Move api s l t) :
    ∀ data, t.tokens.dataAt api.key = some data → data.participantContext = api.pc.id := by
  intro data hd
  rcases hm.effect with ⟨-, hsame⟩ | ⟨ev, call, -, -, he⟩
  · exact h.filed data (hsame ▸ hd)
  · cases he with
    | none ev writes same => exact h.filed data (same ▸ hd)
    | updated c refreshed old stored now =>
      obtain rfl := Option.some.inj (now.symm.trans hd)
      exact h.filed old stored
    | saved c data' now filed =>
      obtain rfl := Option.some.inj (now.symm.trans hd)
      exact filed
    | removed c now => exact absurd (now.symm.trans hd) (by simp)

theorem Inv.step (h : Inv api s) (hn : next api s l = some t)
    (hu : Unexpired api.lockTimeout s.now s.locks api.identifier) : Inv api t := by
  have hm : Move api s l t := next_move h.saves hn
  exact ⟨h.accounted_step hm hu, h.guards_iff_step hm, h.guards_nodup_step hm, h.calls_lt_step hm,
    h.events_lt_step hm, h.saves_step hm, h.filed_step hm⟩

theorem Inv.of_init (h : (machine api).init s) : Inv api s := by
  obtain ⟨hl, hc, hg, hp, hh, hf⟩ := h
  refine ⟨?_, ?_, ?_, ?_, ?_, ?_, hf⟩
  · rw [accounted_of_get_none hl, hg, hp]
    rfl
  · simp [hg, hc, Holds]
  · simp [hg]
  · simp [hc]
  · simp [hh]
  · simp [SavesHere, hc]

end Invariant
end Facet.Client
