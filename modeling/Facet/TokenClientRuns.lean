import Facet.TokenClientSteps

/-!
# Serialised access to a token record

Two conditions make the lock exclusive: concurrent calls with different owners, or
requests that never re-enter the lock of another one. Under either at most one call has
a guard in scope, so what it read under the lock stays what is stored until it writes.
-/
namespace Facet.Client
open Lock

section Moves
variable {api : TokenClientApi} {s t : State} {l : Label} {c d : ℕ}

/-- What a step from one phase of call `d` to the next one tells about the first. -/
structure Stepped (s t : State) (d : ℕ) (phase phase' : Phase) : Prop where
  busy : ∀ r, phase ≠ .returning r
  free : phase'.holds = false → phase.holds = false
  get : phase'.isGet = phase.isGet
  early : phase'.early = true → phase.early = true
  undecided : phase'.undecided = true →
    phase.undecided = true ∨ (t.history = .locked d :: s.history ∧ phase.holds = false)

/-- Where the calls after a step come from. -/
theorem Move.calls_back (hm : Move api s l t) {call : Call} (hd : t.calls.get d = some call) :
    s.calls.get d = some call ∨ (d = s.nextCall ∧ l.starts = some call ∧ call.phase.holds = false) ∨
      ∃ phase, s.calls.get d = some ⟨call.owner, phase⟩ ∧ Stepped s t d phase call.phase := by
  have hinsert : ∀ (c : ℕ) (owner : String) (phase phase' : Phase),
      s.calls.get c = some ⟨owner, phase⟩ →
      Stepped s t c phase phase' → (s.calls.insert c ⟨owner, phase'⟩).get d = some call →
      s.calls.get d = some call ∨
      (d = s.nextCall ∧ l.starts = some call ∧ call.phase.holds = false) ∨
        ∃ phase, s.calls.get d = some ⟨call.owner, phase⟩ ∧ Stepped s t d phase call.phase := by
    intro c owner phase phase' hc hstep hg
    rcases HashMap.get_insert_eq_some hg with ⟨rfl, rfl⟩ | ⟨-, hg⟩
    · exact Or.inr (Or.inr ⟨phase, hc, hstep⟩)
    · exact Or.inl hg
  cases hm with
  | start owner phase label free save =>
    rcases HashMap.get_insert_eq_some hd with ⟨rfl, rfl⟩ | ⟨-, hd⟩
    · exact Or.inr (Or.inl ⟨rfl, label, free⟩)
    · exact Or.inl hd
  | walk c owner phase phase' tokens running holds data sees save get busy undecided early =>
    exact hinsert c owner phase phase' running
      ⟨busy, fun h => holds ▸ h, get, early, fun h => Or.inl (undecided h)⟩ hd
  | call c owner endpoint data running =>
    exact hinsert c owner _ (.refreshing endpoint (api.refreshRequest data)) running
      ⟨by simp, fun h => h, rfl, by simp [Phase.early], by simp [Phase.undecided]⟩ hd
  | update c owner endpoint refreshed old tokens running =>
    exact hinsert c owner _ (.returning ⟨refreshed.token, endpoint⟩) running
      ⟨by simp, fun h => h, rfl, by simp [Phase.early], by simp [Phase.undecided]⟩ hd
  | acquire c owner phase phase' history label running free waits holds ok save get logged =>
    refine hinsert c owner phase phase' running
      ⟨Phase.ne_returning_of_not_holds free, fun _ => free, get,
        fun _ => Phase.early_of_not_holds free, fun hu => Or.inr ⟨?_, free⟩⟩ hd
    rcases logged with ⟨hh, -⟩ | ⟨-, hget⟩
    · exact hh
    · exact absurd (Phase.isGet_of_undecided hu) (by simp [hget])
  | leave c => exact Or.inl (HashMap.get_remove_eq_some hd).2
  | refuse c => exact Or.inl (HashMap.get_remove_eq_some hd).2
  | release c => exact Or.inl (HashMap.get_remove_eq_some hd).2
  | unlock => exact Or.inl hd
  | tick => exact Or.inl hd

/-- Where the call of an event stood before the step and stands after it. -/
inductive Logged (api : TokenClientApi) (s t : State) : Event → Prop
  | locked (c : ℕ) (o e : String) (now : t.calls.get c = some ⟨o, .refetching e⟩) :
      Logged api s t (.locked c)
  | refreshCalled (c : ℕ) (o e : String) (request : RefreshRequest) (data : TokenData)
      (was : s.calls.get c = some ⟨o, .rechecking e data⟩)
      (made : request = api.refreshRequest data)
      (now : t.calls.get c = some ⟨o, .refreshing e request⟩) :
      Logged api s t (.refreshCalled c request)
  | updated (c : ℕ) (o e : String) (refreshed : RefreshedTokenData)
      (was : s.calls.get c = some ⟨o, .updating e refreshed⟩)
      (now : t.calls.get c = some ⟨o, .returning ⟨refreshed.token, e⟩⟩) :
      Logged api s t (.updated c refreshed)
  | ended (ev : Event) (o : String) (phase : Phase) (ends : ev.ends = true)
      (was : s.calls.get ev.call = some ⟨o, phase⟩) (gone : t.calls.get ev.call = none)
      (error : ∀ e, ev = .got ev.call (.error e) → ∀ r, phase ≠ .returning r)
      (writes : ev.writes = true → phase.holds = true ∧ phase.isGet = false) : Logged api s t ev

/-- The event of a step says what its call did. -/
theorem Move.event (hm : Move api s l t) {ev : Event} (hh : t.history = ev :: s.history) :
    Logged api s t ev := by
  cases hm with
  | start => exact absurd hh (by simp [State.start])
  | walk => exact absurd hh (by simp [State.goto])
  | unlock => exact absurd hh (by simp)
  | tick => exact absurd hh (by simp)
  | call c owner endpoint data running =>
    obtain rfl := (List.cons.inj hh).1.symm
    exact .refreshCalled c owner endpoint _ data running rfl (by simp [State.goto])
  | update c owner endpoint refreshed old tokens running =>
    obtain rfl := (List.cons.inj hh).1.symm
    exact .updated c owner endpoint refreshed running (by simp [State.goto])
  | leave c owner phase tokens ev' running free data writes ends call =>
    obtain rfl := (List.cons.inj hh).1
    subst call
    exact .ended _ owner phase ends running (by simp [State.finish])
      (fun e _ => Phase.ne_returning_of_not_holds free) (by simp [writes])
  | acquire c owner phase phase' history label running free waits holds ok save get logged =>
    rcases logged with ⟨rfl, e, rfl⟩ | ⟨rfl, -⟩
    · obtain rfl := (List.cons.inj hh).1.symm
      exact .locked c owner e (by simp)
    · exact absurd hh (by simp)
  | refuse c owner phase e ev' running free error writes ends call =>
    obtain rfl := (List.cons.inj hh).1
    subst call
    exact .ended _ owner phase ends running (by simp [State.finish])
      (fun e _ => Phase.ne_returning_of_not_holds free) (by simp [writes])
  | release c owner phase tokens ev' running holds leaves =>
    obtain rfl := (List.cons.inj hh).1
    obtain ⟨rfl, ends, error, hget, -⟩ := leaves.effect
    exact .ended _ owner phase ends running (by simp [State.finish, State.dropGuard]) error
      (fun hw => ⟨holds, hget hw⟩)

theorem Move.history_cases (hm : Move api s l t) :
    t.history = s.history ∨ ∃ ev, t.history = ev :: s.history := by
  rcases hm.effect with ⟨hh, -⟩ | ⟨ev, -, hh, -⟩
  · exact Or.inl hh
  · exact Or.inr ⟨ev, hh⟩

/-- A call that has not compared the clock again was already there, or has just got the lock. -/
theorem Move.undecided_back (hm : Move api s l t) {call : Call} (hd : t.calls.get d = some call)
    (hu : call.phase.undecided = true) :
    (∃ call', s.calls.get d = some call' ∧ call'.phase.undecided = true) ∨
      (t.history = .locked d :: s.history ∧ ∃ call', s.calls.get d = some call' ∧
        call'.phase.holds = false) := by
  rcases hm.calls_back hd with hs | ⟨-, -, hfree⟩ | ⟨phase, hs, hstep⟩
  · exact Or.inl ⟨call, hs, hu⟩
  · exact absurd (Phase.holds_of_undecided hu) (by simp [hfree])
  · rcases hstep.undecided hu with hu' | ⟨hh, hfree⟩
    · exact Or.inl ⟨_, hs, hu'⟩
    · exact Or.inr ⟨hh, _, hs, hfree⟩

end Moves

/-! ## What the history says -/

structure Log (api : TokenClientApi) (s : State) : Prop where
  unlocked : ∀ c call, s.calls.get c = some call → call.phase.holds = false → .locked c ∉ s.history
  not_updated : ∀ c call, s.calls.get c = some call → (∀ r, call.phase ≠ .returning r) →
    ∀ refreshed, .updated c refreshed ∉ s.history
  not_called : ∀ c call, s.calls.get c = some call → call.phase.early = true →
    ∀ request, .refreshCalled c request ∉ s.history
  ended : ∀ ev ∈ s.history, ev.ends = true → s.calls.get ev.call = none
  last_write : ∀ c refreshed, s.history.find? Event.writes = some (.updated c refreshed) →
    ∃ old : TokenData, s.tokens.dataAt api.key = some (old.refresh refreshed)
  removed : ∀ later c earlier, s.history = later ++ .removed c :: earlier →
    s.tokens.dataAt api.key = none ∨ ∃ d data, .saved d data ∈ later
  error_kept : ∀ c e, .got c (.error e) ∈ s.history → ∀ refreshed, .updated c refreshed ∉ s.history

section Log
variable {api : TokenClientApi} {s t : State} {l : Label}

/-- An event of a running call is new only if the step says so. -/
theorem Inv.absent_step (hI : Inv api s) (hm : Move api s l t) {ev : Event} {call : Call}
    (hc : t.calls.get ev.call = some call)
    (hsame : s.calls.get ev.call = some call → ev ∉ s.history)
    (hstepped : ∀ phase, s.calls.get ev.call = some ⟨call.owner, phase⟩ →
      Stepped s t ev.call phase call.phase →
      ev ∉ s.history) (hnow : ¬ Logged api s t ev) : ev ∉ t.history := by
  have hold : ev ∉ s.history := by
    rcases hm.calls_back hc with hs | ⟨hnew, -⟩ | ⟨phase, hs, hstep⟩
    · exact hsame hs
    · intro hev
      have := hI.events_lt _ hev
      omega
    · exact hstepped phase hs hstep
  intro hmem
  rcases hm.history_cases with hh | ⟨ev', hh⟩
  · exact hold (hh ▸ hmem)
  · rw [hh] at hmem
    rcases List.mem_cons.mp hmem with rfl | hmem
    · exact hnow (hm.event hh)
    · exact hold hmem

theorem Log.unlocked_step (h : Log api s) (hI : Inv api s) (hm : Move api s l t) :
    ∀ c call, t.calls.get c = some call → call.phase.holds = false → .locked c ∉ t.history := by
  intro c call hc hp
  refine hI.absent_step hm hc (fun hs => h.unlocked c call hs hp)
    (fun phase hs hstep => h.unlocked c _ hs (hstep.free hp)) ?_
  intro hlog
  cases hlog with
  | locked _ o e now =>
    obtain rfl := Option.some.inj (hc.symm.trans now)
    exact absurd hp (by simp [Phase.holds])
  | ended _ o phase ends => exact absurd ends (by simp [Event.ends])

theorem Log.not_updated_step (h : Log api s) (hI : Inv api s) (hm : Move api s l t) :
    ∀ c call, t.calls.get c = some call → (∀ r, call.phase ≠ .returning r) →
      ∀ refreshed, .updated c refreshed ∉ t.history := by
  intro c call hc hp refreshed
  refine hI.absent_step hm hc (fun hs => h.not_updated c call hs hp refreshed)
    (fun phase hs hstep => h.not_updated c _ hs hstep.busy refreshed) ?_
  intro hlog
  cases hlog with
  | updated _ o e _ was now =>
    obtain rfl := Option.some.inj (hc.symm.trans now)
    exact absurd rfl (hp _)
  | ended _ o phase ends => exact absurd ends (by simp [Event.ends])

theorem Log.not_called_step (h : Log api s) (hI : Inv api s) (hm : Move api s l t) :
    ∀ c call, t.calls.get c = some call → call.phase.early = true →
      ∀ request, .refreshCalled c request ∉ t.history := by
  intro c call hc hp request
  refine hI.absent_step hm hc (fun hs => h.not_called c call hs hp request)
    (fun phase hs hstep => h.not_called c _ hs (hstep.early hp) request) ?_
  intro hlog
  cases hlog with
  | refreshCalled _ o e _ data was made now =>
    obtain rfl := Option.some.inj (hc.symm.trans now)
    exact absurd hp (by simp [Phase.early])
  | ended _ o phase ends => exact absurd ends (by simp [Event.ends])

theorem Log.ended_step (h : Log api s) (hI : Inv api s) (hm : Move api s l t) :
    ∀ ev ∈ t.history, ev.ends = true → t.calls.get ev.call = none := by
  have hold : ∀ ev ∈ s.history, ev.ends = true → t.calls.get ev.call = none := by
    intro ev hev he
    cases hc : t.calls.get ev.call with
    | none => rfl
    | some call =>
      have hnone := h.ended ev hev he
      rcases hm.calls_back hc with hs | ⟨hnew, -⟩ | ⟨phase, hs, -⟩
      · exact absurd (hnone.symm.trans hs) (by simp)
      · exact absurd (hI.events_lt ev hev) (by omega)
      · exact absurd (hnone.symm.trans hs) (by simp)
  intro ev hev he
  rcases hm.history_cases with hh | ⟨ev', hh⟩
  · exact hold ev (hh ▸ hev) he
  · rw [hh] at hev
    rcases List.mem_cons.mp hev with rfl | hev
    · cases hm.event hh with
      | locked | refreshCalled | updated => exact absurd he (by simp [Event.ends])
      | ended _ o phase ends was gone => exact gone
    · exact hold ev hev he

theorem Log.last_write_step (h : Log api s) (hm : Move api s l t) :
    ∀ c refreshed, t.history.find? Event.writes = some (.updated c refreshed) →
      ∃ old : TokenData, t.tokens.dataAt api.key = some (old.refresh refreshed) := by
  intro c refreshed hf
  rcases hm.effect with ⟨hh, hd⟩ | ⟨ev, call, hh, -, he⟩
  · rw [hd]
    exact h.last_write c refreshed (hh ▸ hf)
  · rw [hh] at hf
    cases he with
    | none ev writes same =>
      rw [List.find?_cons_of_neg (by simp [writes])] at hf
      rw [same]
      exact h.last_write c refreshed hf
    | updated d refreshed' old stored now =>
      rw [List.find?_cons_of_pos rfl] at hf
      obtain ⟨-, rfl⟩ := Event.updated.inj (Option.some.inj hf)
      exact ⟨old, now⟩
    | saved d data now filed => simp [Event.writes] at hf
    | removed d now => simp [Event.writes] at hf

theorem Log.removed_step (h : Log api s) (hm : Move api s l t) :
    ∀ later c earlier, t.history = later ++ Event.removed c :: earlier →
      t.tokens.dataAt api.key = none ∨ ∃ d data, Event.saved d data ∈ later := by
  intro later c earlier hsplit
  rcases hm.effect with ⟨hh, hd⟩ | ⟨ev, call, hh, -, he⟩
  · rw [hd]
    exact h.removed later c earlier (hh ▸ hsplit)
  · rw [hh] at hsplit
    rcases List.cons_eq_append_iff.mp hsplit with ⟨rfl, heq⟩ | ⟨later', rfl, hsplit'⟩
    · obtain ⟨rfl, -⟩ := List.cons.inj heq
      cases he with
      | none _ writes same => exact absurd writes (by simp [Event.writes])
      | removed _ now => exact Or.inl now
    · rcases h.removed later' c earlier hsplit' with hnone | ⟨d, data, hmem⟩
      · cases he with
        | none _ writes same => exact Or.inl (same.trans hnone)
        | updated d refreshed old stored now => exact absurd (hnone.symm.trans stored) (by simp)
        | saved d data now filed => exact Or.inr ⟨d, data, by simp⟩
        | removed d now => exact Or.inl now
      · exact Or.inr ⟨d, data, List.mem_cons_of_mem _ hmem⟩

theorem Log.error_kept_step (h : Log api s) (hm : Move api s l t) :
    ∀ c e, .got c (.error e) ∈ t.history → ∀ refreshed, .updated c refreshed ∉ t.history := by
  intro c e hgot refreshed hupd
  rcases hm.effect with ⟨hh, -⟩ | ⟨ev, call, hh, hcall, -⟩
  · exact h.error_kept c e (hh ▸ hgot) refreshed (hh ▸ hupd)
  · rw [hh] at hgot hupd
    rcases List.mem_cons.mp hgot with rfl | hgot'
    · cases hm.event hh with
      | ended _ o phase ends was gone error =>
        simp only [List.mem_cons, reduceCtorEq, false_or] at hupd
        exact h.not_updated c _ was (error e rfl) refreshed hupd
    · rcases List.mem_cons.mp hupd with rfl | hupd'
      · have hnone : s.calls.get c = none := h.ended (.got c (.error e)) hgot' rfl
        exact absurd (hnone.symm.trans hcall) (by simp)
      · exact h.error_kept c e hgot' refreshed hupd'

theorem Log.step (h : Log api s) (hI : Inv api s) (hm : Move api s l t) : Log api t where
  unlocked := h.unlocked_step hI hm
  not_updated := h.not_updated_step hI hm
  not_called := h.not_called_step hI hm
  ended := h.ended_step hI hm
  last_write := h.last_write_step hm
  removed := h.removed_step hm
  error_kept := h.error_kept_step hm

theorem Log.of_init (h : (machine api).init s) : Log api s := by
  obtain ⟨-, hc, -, -, hh, -⟩ := h
  exact ⟨by simp [hc], by simp [hc], by simp [hc], by simp [hh], by simp [hh], by simp [hh],
    by simp [hh]⟩

end Log

/-! ## One holder at a time -/

def Sole (s : State) : Prop := ∀ c d o q, Holds s.calls c o → Holds s.calls d q → c = d

/-- What the holder read is what is stored, and nothing was written since it got the lock. -/
structure Watch (api : TokenClientApi) (s : State) : Prop where
  sees : ∀ c call, s.calls.get c = some call → call.phase.Sees api (s.tokens.dataAt api.key)
  quiet : ∀ c call, s.calls.get c = some call → call.phase.undecided = true →
    ∀ later earlier, s.history = later ++ .locked c :: earlier → ∀ ev ∈ later, ev.writes = false

section Watch
variable {api : TokenClientApi} {s t : State} {l : Label}

/-- While one call has the lock, the others have nothing to lose. -/
theorem Sole.sees_other (hsole : Sole s) {c d : ℕ} {o : String} {phase : Phase} {call : Call}
    (hc : s.calls.get c = some ⟨o, phase⟩) (hp : phase.holds = true)
    (hd : s.calls.get d = some call) (hne : d ≠ c) (stored : Option TokenData) :
    call.phase.Sees api stored := by
  by_cases hh : call.phase.holds = true
  · exact absurd (hsole d c call.owner o ⟨call.phase, hd, hh⟩ ⟨phase, hc, hp⟩) hne
  · exact Phase.sees_of_not_holds (by simpa using hh)

theorem Watch.sees_step (h : Watch api s) (hsole : Sole s) (hm : Move api s l t) :
    ∀ c call, t.calls.get c = some call → call.phase.Sees api (t.tokens.dataAt api.key) := by
  intro d x hd
  cases hm with
  | start owner phase label free save =>
    simp only [State.start, HashMap.get_insert] at hd ⊢
    split_ifs at hd
    · obtain rfl := Option.some.inj hd
      exact Phase.sees_of_not_holds free
    · exact h.sees d x hd
  | walk c owner phase phase' tokens running holds data sees =>
    simp only [State.goto, HashMap.get_insert] at hd ⊢
    rw [data]
    split_ifs at hd
    · obtain rfl := Option.some.inj hd
      exact sees (h.sees c _ running)
    · exact h.sees d x hd
  | call c owner endpoint data running =>
    simp only [State.goto, State.log, HashMap.get_insert] at hd ⊢
    split_ifs at hd
    · obtain rfl := Option.some.inj hd
      exact ⟨data, h.sees c _ running, rfl⟩
    · exact h.sees d x hd
  | update c owner endpoint refreshed old tokens running =>
    simp only [State.goto, State.log, HashMap.get_insert] at hd ⊢
    split_ifs at hd with hdc
    · obtain rfl := Option.some.inj hd
      trivial
    · exact hsole.sees_other running rfl hd hdc _
  | leave c owner phase tokens ev running free data =>
    simp only [State.finish, HashMap.get_remove] at hd ⊢
    split_ifs at hd
    rw [data]
    exact h.sees d x hd
  | acquire c owner phase phase' history label running free waits holds ok save get logged =>
    simp only [HashMap.get_insert] at hd ⊢
    split_ifs at hd
    · obtain rfl := Option.some.inj hd
      rcases logged with ⟨-, e, rfl⟩ | ⟨-, hg⟩
      · trivial
      · cases phase' <;> trivial
    · exact h.sees d x hd
  | refuse c =>
    simp only [State.finish, HashMap.get_remove] at hd ⊢
    split_ifs at hd
    exact h.sees d x hd
  | release c owner phase tokens ev running holds =>
    simp only [State.finish, State.dropGuard, HashMap.get_remove] at hd ⊢
    split_ifs at hd with hdc
    exact hsole.sees_other running holds hd hdc _
  | unlock => exact h.sees d x hd
  | tick => exact h.sees d x hd

theorem Watch.quiet_step (h : Watch api s) (hL : Log api s) (hsole : Sole s) (hm : Move api s l t) :
    ∀ c call, t.calls.get c = some call → call.phase.undecided = true →
      ∀ later earlier, t.history = later ++ Event.locked c :: earlier →
        ∀ ev ∈ later, ev.writes = false := by
  intro d x hd hu later earlier hsplit ev hev
  rcases hm.undecided_back hd hu with ⟨x', hx', hu'⟩ | ⟨hh, x', hx', hfree⟩
  · have hold := h.quiet d x' hx' hu'
    rcases hm.history_cases with hh | ⟨ev', hh⟩
    · exact hold later earlier (hh ▸ hsplit) ev hev
    · have hquiet : ev'.writes = false := by
        by_contra hw
        have hholds : x'.phase.holds = true := Phase.holds_of_undecided hu'
        have hsame : ∀ {c o phase}, s.calls.get c = some ⟨o, phase⟩ → phase.holds = true → d = c :=
          fun hc hp => hsole _ _ x'.owner _ ⟨x'.phase, hx', hholds⟩ ⟨_, hc, hp⟩
        cases hm.event hh with
        | locked | refreshCalled => exact hw rfl
        | updated c o e refreshed was now =>
          obtain rfl := hsame was rfl
          obtain rfl := Option.some.inj (hd.symm.trans now)
          exact absurd hu (by simp [Phase.undecided])
        | ended _ o phase ends was gone error writes =>
          have hdc : d = ev'.call := hsame was (writes (by simpa using hw)).1
          exact absurd ((hdc ▸ hd).symm.trans gone) (by simp)
      rw [hh] at hsplit
      rcases List.cons_eq_append_iff.mp hsplit with ⟨rfl, -⟩ | ⟨later', rfl, hsplit'⟩
      · exact absurd hev (by simp)
      · rcases List.mem_cons.mp hev with rfl | hev
        · exact hquiet
        · exact hold later' earlier hsplit' ev hev
  · rw [hh] at hsplit
    rcases List.cons_eq_append_iff.mp hsplit with ⟨rfl, -⟩ | ⟨later', rfl, hsplit'⟩
    · exact absurd hev (by simp)
    · have hmem : .locked d ∈ s.history := by simp [hsplit']
      exact absurd hmem (hL.unlocked d x' hx' hfree)

theorem Watch.step (h : Watch api s) (hL : Log api s) (hsole : Sole s) (hm : Move api s l t) :
    Watch api t :=
  ⟨h.sees_step hsole hm, h.quiet_step hL hsole hm⟩

theorem Watch.of_init (h : (machine api).init s) : Watch api s := by
  obtain ⟨-, hc, -⟩ := h
  exact ⟨by simp [hc], by simp [hc]⟩

end Watch

/-! ## Calls with different owners -/

/-- A new call uses an owner that no running call uses, and no lock has expired. -/
def DistinctOwners (api : TokenClientApi) (s : State) (l : Label) (_ : State) : Prop :=
  Unexpired api.lockTimeout s.now s.locks api.identifier ∧
    ∀ new, l.starts = some new → ∀ c call, s.calls.get c = some call → call.owner ≠ new.owner

/-- Running calls are told apart by their owners. -/
def Apart (s : State) : Prop := ∀ c d call call', s.calls.get c = some call →
    s.calls.get d = some call' →
  call.owner = call'.owner → c = d

structure Serial (api : TokenClientApi) (s : State) : Prop where
  inv : Inv api s
  log : Log api s
  watch : Watch api s
  sole : Sole s

section Distinct
variable {api : TokenClientApi} {s t : State} {l : Label}

theorem Apart.sole (h : Apart s) (hI : Inv api s) : Sole s := by
  intro c d o q hc hd
  have ho : o = q := by
    apply hI.accounted.owner_eq
    · exact List.mem_append_left _
        (List.mem_map_of_mem (f := Prod.snd) ((hI.guards_iff c o).mpr hc))
    · exact List.mem_append_left _
        (List.mem_map_of_mem (f := Prod.snd) ((hI.guards_iff d q).mpr hd))
  obtain ⟨phase, hc, -⟩ := hc
  obtain ⟨phase', hd, -⟩ := hd
  exact h c d _ _ hc hd ho

theorem Apart.step (h : Apart s) (hm : Move api s l t)
    (hok : DistinctOwners api s l t) : Apart t := by
  have hback : ∀ c call, t.calls.get c = some call →
      (∃ call', s.calls.get c = some call' ∧ call'.owner = call.owner) ∨
      (c = s.nextCall ∧ l.starts = some call) := by
    intro c call hc
    rcases hm.calls_back hc with hs | ⟨rfl, hl, -⟩ | ⟨phase, hs, -⟩
    · exact Or.inl ⟨call, hs, rfl⟩
    · exact Or.inr ⟨rfl, hl⟩
    · exact Or.inl ⟨_, hs, rfl⟩
  intro c d call call' hc hd ho
  rcases hback c call hc with ⟨x, hx, hxo⟩ | ⟨rfl, hl⟩ <;> rcases hback d call' hd with
    ⟨y, hy, hyo⟩ | ⟨rfl, hl'⟩
  · exact h c d x y hx hy (hxo.trans (ho.trans hyo.symm))
  · exact absurd (hxo.trans ho) (hok.2 call' hl' c x hx)
  · exact absurd (hyo.trans ho.symm) (hok.2 call hl d y hy)
  · rfl

theorem serial_of_distinct (h : Machine.Reach (machine api) (DistinctOwners api) s) :
    Serial api s := by
  have hall : Inv api s ∧ Log api s ∧ Watch api s ∧ Apart s := by
    refine h.invariant (P := fun s => Inv api s ∧ Log api s ∧ Watch api s ∧ Apart s) ?_ ?_
    · intro s₀ h₀
      refine ⟨Inv.of_init h₀, Log.of_init h₀, Watch.of_init h₀, ?_⟩
      obtain ⟨-, hc, -⟩ := h₀
      simp [Apart, hc]
    · rintro a l b ⟨hI, hL, hW, hA⟩ hn hok
      have hm := next_move hI.saves hn
      exact ⟨hI.step hn hok.1, hL.step hI hm, hW.step hL (hA.sole hI) hm, hA.step hm hok⟩
  exact ⟨hall.1, hall.2.1, hall.2.2.1, hall.2.2.2.sole hall.1⟩

end Distinct

section Serial
variable {api : TokenClientApi} {s : State}

theorem Serial.no_overlap (h : Serial api s) {c d : ℕ} {o q e e' : String} {r r' : RefreshRequest}
    (hc : s.calls.get c = some ⟨o, .refreshing e r⟩)
    (hd : s.calls.get d = some ⟨q, .refreshing e' r'⟩) : c = d :=
  h.sole c d o q ⟨_, hc, rfl⟩ ⟨_, hd, rfl⟩

/-- Between its lock and its second look at the clock, a call still finds the last refresh
stored. -/
theorem Serial.finds_refreshed (h : Serial api s) {c d : ℕ} {call : Call}
    {refreshed : RefreshedTokenData} {later mid earlier : List Event}
    (hc : s.calls.get c = some call) (hu : call.phase.undecided = true)
    (hsplit : s.history = later ++ .locked c :: (mid ++ .updated d refreshed :: earlier))
    (hmid : ∀ ev ∈ mid, ev.writes = false) :
    ∃ old : TokenData, s.tokens.dataAt api.key = some (old.refresh refreshed) := by
  apply h.log.last_write d refreshed
  have hlater : ∀ ev ∈ later, ev.writes = false := h.watch.quiet c call hc hu later _ hsplit
  have hskip : ∀ (evs rest : List Event), (∀ ev ∈ evs, ev.writes = false) →
      (evs ++ rest).find? Event.writes = rest.find? Event.writes := by
    intro evs rest hevs
    rw [List.find?_append, List.find?_eq_none.mpr (by simpa using hevs), Option.none_or]
  rw [hsplit, hskip later _ hlater, List.find?_cons_of_neg (by simp [Event.writes]),
    hskip mid _ hmid, List.find?_cons_of_pos rfl]

/-- The read under the lock succeeds when there is a record. -/
theorem Serial.refetch (h : Serial api s) {c : ℕ} {owner endpoint : String} {data : TokenData}
    (hc : s.calls.get c = some ⟨owner, .refetching endpoint⟩)
    (hd : s.tokens.dataAt api.key = some data) :
    ∃ t, next api s (.step c) = some t ∧ t.calls.get c = some ⟨owner, .rechecking endpoint data⟩ ∧
      t.history = s.history := by
  rcases s.tokens.getToken_cases s.now api.pc api.identifier with ⟨hnone, -⟩ | ⟨data', hd', -, hok⟩
  · have hkey : s.tokens.dataAt (api.pc.id, api.identifier) = some data := hd
    simp [hkey, h.inv.filed data hd] at hnone
  · obtain rfl := Option.some.inj (hd'.symm.trans hd)
    refine ⟨{ s with tokens := (s.tokens.getToken s.now api.pc api.identifier).2 }.goto c owner
      (.rechecking endpoint data'), ?_, ?_, rfl⟩
    · simp only [next, hc, stepCall, hok]
    · simp [State.goto]

theorem recheck_valid {c : ℕ} {owner endpoint : String} {data : TokenData}
    (hc : s.calls.get c = some ⟨owner, .rechecking endpoint data⟩)
    (hv : s.now < data.expiresAt - api.refreshBeforeExpiryMs) :
    next api s (.step c) =
      some ((s.dropGuard c owner).finish c (.got c (.ok ⟨data.token, endpoint⟩))) := by
  simp [next, hc, stepCall, TokenClientApi.isValid, hv]

/-- No step of a `get_token` call but its update changes stored data. -/
theorem get_leaves_data {t : State} {c : ℕ} {call : Call} (hc : s.calls.get c = some call)
    (hget : call.phase.isGet = true) (hn : next api s (.step c) = some t) :
    t.tokens.dataAt api.key = s.tokens.dataAt api.key ∨
      ∃ refreshed, t.history = .updated c refreshed :: s.history := by
  obtain ⟨owner, phase⟩ := call
  have hread := s.tokens.dataAt_getToken s.now api.pc api.identifier api.key
  simp only [next, hc] at hn
  cases phase with
  | fetching =>
    left
    simp only [stepCall] at hn
    split at hn <;> rw [← Option.some.inj hn] <;> exact hread
  | checking data =>
    left
    simp only [stepCall] at hn
    split_ifs at hn <;> rw [← Option.some.inj hn] <;> rfl
  | locking endpoint =>
    left
    simp only [stepCall, lockThen, Option.some.injEq] at hn
    rw [← hn]
    split <;> rfl
  | refetching endpoint =>
    left
    simp only [stepCall] at hn
    split at hn <;> rw [← Option.some.inj hn] <;> exact hread
  | rechecking endpoint data =>
    left
    simp only [stepCall] at hn
    split_ifs at hn <;> rw [← Option.some.inj hn] <;> rfl
  | refreshing endpoint request => simp [stepCall] at hn
  | updating endpoint refreshed =>
    rcases s.tokens.updateToken_cases s.now api.pc.id api.identifier refreshed with
      ⟨-, he⟩ | ⟨old, -, he, -⟩
    · left
      simp only [stepCall, he, Option.some.injEq] at hn
      rw [← hn]
      rfl
    · right
      simp only [stepCall, he, Option.some.injEq] at hn
      rw [← hn]
      exact ⟨refreshed, rfl⟩
  | returning result =>
    left
    simp only [stepCall, Option.some.injEq] at hn
    rw [← hn]
    rfl
  | saveLocking data => simp [Phase.isGet] at hget
  | saving data => simp [Phase.isGet] at hget
  | deleteLocking => simp [Phase.isGet] at hget
  | deleting => simp [Phase.isGet] at hget

theorem answered_leaves_data {t : State} {c : ℕ} {result : Except TokenError RefreshedTokenData}
    (hn : next api s (.answered c result) = some t) :
    t.tokens.dataAt api.key = s.tokens.dataAt api.key := by
  simp only [next] at hn
  split at hn
  · split at hn <;> rw [← Option.some.inj hn] <;> rfl
  · exact absurd hn (by simp)

end Serial

/-- Calls with different owners are serialised by the lock. -/
theorem access_serialised {api : TokenClientApi} {s : State}
    (h : Machine.Reach (machine api) (DistinctOwners api) s) :
    (∀ c d o q e e' r r', s.calls.get c = some ⟨o, .refreshing e r⟩ →
        s.calls.get d = some ⟨q, .refreshing e' r'⟩ → c = d) ∧
      (∀ c o e request, s.calls.get c = some ⟨o, .refreshing e request⟩ →
        ∃ data, s.tokens.dataAt api.key = some data ∧ request.accessToken = data.token ∧
          request.refreshToken = data.refreshToken ∧
            request.endpointIdentifier = data.counterPartyId ∧
          request.refreshEndpoint = data.refreshEndpoint) ∧
      (∀ c o e d refreshed later mid earlier,
        s.history = later ++ .locked c :: (mid ++ .updated d refreshed :: earlier) →
        (∀ ev ∈ mid, ev.writes = false) →
        (s.calls.get c = some ⟨o, .refetching e⟩ → ∃ t data, next api s (.step c) = some t ∧
          t.history = s.history ∧ t.calls.get c = some ⟨o, .rechecking e data⟩) ∧
        ∀ data, s.calls.get c = some ⟨o, .rechecking e data⟩ →
          (∀ request, .refreshCalled c request ∉ s.history) ∧
          (s.now < refreshed.expiresAt - api.refreshBeforeExpiryMs →
            next api s (.step c) =
              some ((s.dropGuard c o).finish c (.got c (.ok ⟨refreshed.token, e⟩))))) ∧
      (∀ later c earlier, s.history = later ++ .removed c :: earlier →
        s.tokens.dataAt api.key ≠ none → ∃ d data, .saved d data ∈ later) ∧
      (∀ c e, .got c (.error e) ∈ s.history → ∀ refreshed, .updated c refreshed ∉ s.history) ∧
      ∀ c call l t, s.calls.get c = some call → call.phase.isGet = true →
        (l = .step c ∨ ∃ result, l = .answered c result) → next api s l = some t →
        t.tokens.dataAt api.key = s.tokens.dataAt api.key ∨
          ∃ refreshed, t.history = .updated c refreshed :: s.history := by
  have hS := serial_of_distinct h
  refine ⟨fun c d o q e e' r r' hc hd => hS.no_overlap hc hd, ?_, ?_, ?_, hS.log.error_kept, ?_⟩
  · intro c o e request hc
    obtain ⟨data, hd, rfl⟩ := hS.watch.sees c _ hc
    exact ⟨data, hd, rfl, rfl, rfl, rfl⟩
  · intro c o e d refreshed later mid earlier hsplit hmid
    constructor
    · intro hc
      obtain ⟨old, hold⟩ := hS.finds_refreshed hc rfl hsplit hmid
      obtain ⟨t, hn, ht, hh⟩ := hS.refetch hc hold
      exact ⟨t, _, hn, hh, ht⟩
    · intro data hc
      obtain ⟨old, hold⟩ := hS.finds_refreshed hc rfl hsplit hmid
      have hdata : s.tokens.dataAt api.key = some data := hS.watch.sees c _ hc
      obtain rfl := Option.some.inj (hdata.symm.trans hold)
      exact ⟨hS.log.not_called c _ hc rfl, fun hv => recheck_valid hc hv⟩
  · intro later c earlier hsplit hne
    rcases hS.log.removed later c earlier hsplit with hnone | hsaved
    · exact absurd hnone hne
    · exact hsaved
  · rintro c call l t hc hget (rfl | ⟨result, rfl⟩) hn
    · exact get_leaves_data hc hget hn
    · exact Or.inl (answered_leaves_data hn)

/-! A run for the concrete cases: a record that has expired and is refreshed by call 1 while
call 2 is refused; call 3 has read the old record and gets the lock afterwards. -/

def demoApi : TokenClientApi := { pc := { id := "pc" }, identifier := "flow", lockTimeout := 30000 }

def demoData : TokenData where
  identifier := "flow"
  participantContext := "pc"
  participantId := "did:web:consumer"
  counterPartyId := "did:web:provider"
  token := "t1"
  refreshToken := "r1"
  expiresAt := 0
  refreshEndpoint := "https://provider/refresh"
  endpoint := "https://provider/data"

def demoRefreshed : RefreshedTokenData := ⟨"t2", "r2", 60000, "https://provider/refresh"⟩

def demoStart : State where
  tokens := HashMap.empty
  locks := HashMap.empty
  now := 0
  calls := HashMap.empty
  guards := []
  pendingUnlocks := []
  history := []
  nextCall := 0

def unexpiredCheck (api : TokenClientApi) (s : State) : Bool :=
  match s.locks.get api.identifier with
  | some r => decide (s.now - r.acquiredAt ≤ api.lockTimeout)
  | none => true

theorem unexpired_of_check {api : TokenClientApi} {s : State} (h : unexpiredCheck api s = true) :
    Unexpired api.lockTimeout s.now s.locks api.identifier := by
  intro r hr
  simpa [unexpiredCheck, hr] using h

def distinctCheck (api : TokenClientApi) (s : State) (l : Label) (_ : State) : Bool :=
  unexpiredCheck api s && (match l.starts with
    | some new => s.calls.entries.all fun e => decide (e.2.owner ≠ new.owner)
    | none => true)

theorem distinctOwners_of_check (api : TokenClientApi) (s : State) (l : Label) (t : State)
    (h : distinctCheck api s l t = true) : DistinctOwners api s l t := by
  simp only [distinctCheck, Bool.and_eq_true] at h
  refine ⟨unexpired_of_check h.1, ?_⟩
  intro new hnew c call hc
  have hall := h.2
  simp only [hnew, List.all_eq_true, decide_eq_true_eq] at hall
  exact hall (c, call) (s.calls.get_eq_some_iff.mp hc)

def refreshedOnce : State := (machine demoApi).final (distinctCheck demoApi) demoStart
  [.saveToken demoData "s", .step 0, .step 0, .unlock "s",
    .getToken "a", .step 1, .step 1, .step 1, .getToken "b", .step 2, .step 2, .step 2,
    .step 1, .step 1, .getToken "c", .step 3, .step 3, .answered 1 (.ok demoRefreshed),
    .step 1, .step 1, .unlock "a", .step 3, .step 3]

/-- Call 3 returns the refreshed token and refreshes nothing. -/
theorem second_reader_gets_refreshed :
    (∀ request, .refreshCalled 3 request ∉ refreshedOnce.history) ∧
      next demoApi refreshedOnce (.step 3) = some ((refreshedOnce.dropGuard 3 "c").finish 3
        (.got 3 (.ok ⟨"t2", "https://provider/data"⟩))) := by
  have h : Machine.Reach (machine demoApi) (DistinctOwners demoApi) refreshedOnce := by
    refine ⟨demoStart, _, ⟨rfl, rfl, rfl, rfl, rfl, ?_⟩, Machine.path_final
      (distinctOwners_of_check _) (by decide +kernel)⟩
    simp [demoStart, MemoryTokenStore.dataAt]
  have hsplit : refreshedOnce.history =
      [] ++ .locked 3 :: ([.got 1 (.ok ⟨"t2", "https://provider/data"⟩)] ++
        .updated 1 demoRefreshed :: refreshedOnce.history.drop 3) := rfl
  have hmid : ∀ ev ∈ [Event.got 1 (.ok ⟨"t2", "https://provider/data"⟩)], ev.writes = false := by
    simp [Event.writes]
  have hc : refreshedOnce.calls.get 3 =
      some ⟨"c", .rechecking "https://provider/data" (demoData.refresh demoRefreshed)⟩ := rfl
  obtain ⟨hcalled, hvalid⟩ := ((access_serialised h).2.2.1 3 "c" _ 1 _ _ _ _ hsplit hmid).2 _ hc
  exact ⟨hcalled, hvalid (by decide)⟩

/-! ## Requests of the token API

The handler of `GET /tokens/{participant_context_id}/{id}` passes the id as owner, so all
requests for a record have one owner and the lock is re-entrant between them. -/

def handlerOwner (id : String) : String := id

/-- The refresh tokens presented so far. -/
def presented (history : List Event) : List String :=
  history.filterMap fun
    | .refreshCalled _ request => some request.refreshToken
    | _ => none

/-- Only `GET` requests, and no expired lock. -/
def Requests (api : TokenClientApi) (s : State) (l : Label) (_ : State) : Prop :=
  Unexpired api.lockTimeout s.now s.locks api.identifier ∧
    ∀ call, l.starts = some call → l = .getToken (handlerOwner api.identifier)

/-- The endpoint answers with a refresh token that was not presented before. Where it sends none,
`OAuth2TokenClient` gives back the one that it presented. -/
def NewRefreshToken (s : State) (l : Label) (_ : State) : Prop :=
  ∀ c refreshed, l = .answered c (.ok refreshed) → refreshed.refreshToken ∉ presented s.history

/-- A request takes the lock only when the record counts no guard but dropped ones. -/
def NoReentry (api : TokenClientApi) (s : State) (l : Label) (_ : State) : Prop :=
  ∀ c call r, l = .step c → s.calls.get c = some call → call.phase.awaitsLock = true →
    s.locks.get api.identifier = some r → r.reentrantCount ≤ s.pendingUnlocks.length

/-- At most one guard is in scope, and what a request presents is what the last answer left in the
store. -/
structure Successive (api : TokenClientApi) (s : State) : Prop where
  gets : ∀ c call, s.calls.get c = some call → call.phase.isGet = true
  alone : s.guards.length ≤ 1
  last : ∀ later d request earlier c refreshed,
    s.history = later ++ .refreshCalled d request :: earlier →
    earlier.find? Event.writes = some (.updated c refreshed) →
      request.refreshToken = refreshed.refreshToken

/-- The refresh token in the store differs from every one presented before an update. -/
structure Rotated (api : TokenClientApi) (s : State) : Prop where
  answer : ∀ c o e refreshed, s.calls.get c = some ⟨o, .updating e refreshed⟩ →
    refreshed.refreshToken ∉ presented s.history
  stored : ∀ later c refreshed earlier data, s.history = later ++ .updated c refreshed :: earlier →
    s.tokens.dataAt api.key = some data → data.refreshToken ∉ presented earlier
  once : ∀ later d request mid c refreshed earlier,
    s.history = later ++ .refreshCalled d request :: (mid ++ .updated c refreshed :: earlier) →
    request.refreshToken ∉ presented earlier

section Rotated
variable {api : TokenClientApi} {s t : State} {l : Label}

theorem Successive.sole (h : Successive api s) (hI : Inv api s) : Sole s := by
  intro c d o q hc hd
  have hc' := (hI.guards_iff c o).mpr hc
  have hd' := (hI.guards_iff d q).mpr hd
  have hlen := h.alone
  match hg : s.guards with
  | [] => simp [hg] at hc'
  | [g] =>
    simp only [hg, List.mem_singleton] at hc' hd'
    exact congrArg Prod.fst (hc'.trans hd'.symm)
  | g :: g' :: rest =>
    simp only [hg, List.length_cons] at hlen
    omega

theorem Successive.gets_step (h : Successive api s) (hm : Move api s l t)
    (hok : Requests api s l t) : ∀ c call, t.calls.get c = some call → call.phase.isGet = true := by
  intro c call hc
  rcases hm.calls_back hc with hs | ⟨-, hl, -⟩ | ⟨phase, hs, hstep⟩
  · exact h.gets c call hs
  · have hlabel := hok.2 call hl
    rw [hlabel, Label.starts, Option.some.injEq] at hl
    rw [← hl]
    rfl
  · rw [hstep.get]
    exact h.gets c _ hs

theorem Successive.alone_step (h : Successive api s) (hI : Inv api s) (hm : Move api s l t)
    (hok : NoReentry api s l t) : t.guards.length ≤ 1 := by
  have hlen := h.alone
  cases hm with
  | acquire c owner phase phase' history label running free waits =>
    have hnone : s.guards = [] := by
      cases hg : s.locks.get api.identifier with
      | none =>
        have hempty := (accounted_of_get_none hg).mp hI.accounted
        simpa using (List.append_eq_nil_iff.mp hempty).1
      | some r =>
        have hcount := ((accounted_of_get_some hg).mp hI.accounted).count_eq
        have hle := hok c _ r label running waits hg
        simp only [List.length_append, List.length_map] at hcount
        exact List.length_eq_zero_iff.mp (by omega)
    simp [hnone]
  | release c owner =>
    have hle : (s.guards.erase (c, owner)).length ≤ s.guards.length := List.length_erase_le
    exact hle.trans hlen
  | _ => exact hlen

/-- A request presents what is stored, and the last answer has stored its own. -/
theorem Successive.last_step (h : Successive api s) (hL : Log api s) (hW : Watch api s)
    (hm : Move api s l t) :
    ∀ later d request earlier c refreshed,
      t.history = later ++ .refreshCalled d request :: earlier →
        earlier.find? Event.writes = some (.updated c refreshed) →
        request.refreshToken = refreshed.refreshToken := by
  intro later d request earlier c refreshed hsplit hfind
  rcases hm.history_cases with hh | ⟨ev, hh⟩
  · exact h.last later d request earlier c refreshed (hh ▸ hsplit) hfind
  · rw [hh] at hsplit
    rcases List.cons_eq_append_iff.mp hsplit with ⟨rfl, heq⟩ | ⟨later', rfl, hrest⟩
    · obtain ⟨rfl, rfl⟩ := List.cons.inj heq
      cases hm.event hh with
      | refreshCalled _ o e _ data was made now =>
        obtain ⟨old, hold⟩ := hL.last_write c refreshed hfind
        have hdata : s.tokens.dataAt api.key = some data := hW.sees d _ was
        obtain rfl := Option.some.inj (hdata.symm.trans hold)
        rw [made]
        rfl
      | ended _ o phase ends => exact absurd ends (by simp [Event.ends])
    · exact h.last later' d request earlier c refreshed hrest hfind

theorem presented_mono {evs evs' : List Event} (h : evs' ⊆ evs) :
    presented evs' ⊆ presented evs := by
  intro x hx
  obtain ⟨ev, hev, he⟩ := List.mem_filterMap.mp hx
  exact List.mem_filterMap.mpr ⟨ev, h hev, he⟩

/-- An answer under way was under way before, or has just arrived. -/
theorem Move.updating_back (hm : Move api s l t) {d : ℕ} {o e : String}
    {refreshed : RefreshedTokenData} (hd : t.calls.get d = some ⟨o, .updating e refreshed⟩) :
    s.calls.get d = some ⟨o, .updating e refreshed⟩ ∨
      (l = .answered d (.ok refreshed) ∧ t.history = s.history) := by
  have hother : ∀ (c : ℕ) (call : Call), (∀ e r, call.phase ≠ .updating e r) →
      (s.calls.insert c call).get d = some ⟨o, .updating e refreshed⟩ →
      s.calls.get d = some ⟨o, .updating e refreshed⟩ := by
    intro c call hne hg
    rw [HashMap.get_insert] at hg
    split_ifs at hg
    · obtain rfl := Option.some.inj hg
      exact absurd rfl (hne e refreshed)
    · exact hg
  have hremove : ∀ c : ℕ, (s.calls.remove c).get d = some ⟨o, .updating e refreshed⟩ →
      s.calls.get d = some ⟨o, .updating e refreshed⟩ := by
    intro c hg
    rw [HashMap.get_remove] at hg
    split_ifs at hg
    exact hg
  cases hm with
  | start owner phase label free =>
    refine Or.inl (hother _ ⟨owner, phase⟩ ?_ hd)
    rintro e r rfl
    exact absurd free (by simp [Phase.holds])
  | walk c owner phase phase' tokens running holds data sees save get busy undecided early answer =>
    simp only [State.goto, HashMap.get_insert] at hd
    split_ifs at hd with hdc
    · simp only [Option.some.injEq, Call.mk.injEq] at hd
      subst hdc
      exact Or.inr ⟨answer e refreshed hd.2, rfl⟩
    · exact Or.inl hd
  | call c => exact Or.inl (hother c _ (by simp) hd)
  | update c => exact Or.inl (hother c _ (by simp) hd)
  | acquire c owner phase phase' history label running free waits holds ok save get logged =>
    refine Or.inl (hother c ⟨owner, phase'⟩ ?_ hd)
    rcases logged with ⟨-, e', rfl⟩ | ⟨-, hg⟩
    · simp
    · rintro e r rfl
      exact absurd hg (by simp [Phase.isGet])
  | leave c => exact Or.inl (hremove c hd)
  | refuse c => exact Or.inl (hremove c hd)
  | release c => exact Or.inl (hremove c hd)
  | unlock => exact Or.inl hd
  | tick => exact Or.inl hd

theorem Rotated.answer_step (h : Rotated api s) (hsole : Sole s) (hm : Move api s l t)
    (hok : NewRefreshToken s l t) :
    ∀ c o e refreshed, t.calls.get c = some ⟨o, .updating e refreshed⟩ →
      refreshed.refreshToken ∉ presented t.history := by
  intro d o e refreshed hd
  rcases hm.updating_back hd with hs | ⟨hl, hh⟩
  · have hold := h.answer d o e refreshed hs
    rcases hm.history_cases with hh | ⟨ev, hh⟩
    · rw [hh]
      exact hold
    · rw [hh]
      cases hm.event hh with
      | locked => exact hold
      | updated => exact hold
      | refreshCalled c q e' request data was made now =>
        obtain rfl := hsole d c o q ⟨_, hs, rfl⟩ ⟨_, was, rfl⟩
        exact absurd (hd.symm.trans now) (by simp)
      | ended ev q phase ends =>
        cases ev <;> first | exact hold | exact absurd ends (by simp [Event.ends])
  · rw [hh]
    exact hok d refreshed hl

theorem Rotated.stored_step (h : Rotated api s) (hU : Successive api s) (hm : Move api s l t) :
    ∀ later c refreshed earlier data, t.history = later ++ .updated c refreshed :: earlier →
      t.tokens.dataAt api.key = some data → data.refreshToken ∉ presented earlier := by
  intro later c refreshed earlier data hsplit hdata
  have hnew : ∀ d r, t.history = .updated d r :: s.history →
      r.refreshToken ∉ presented s.history := by
    intro d r hh
    cases hm.event hh with
    | updated _ o e _ was now => exact h.answer d o e r was
    | ended _ o phase ends => exact absurd ends (by simp [Event.ends])
  rcases hm.effect with ⟨hh, hsame⟩ | ⟨ev, call, hh, -, he⟩
  · exact h.stored later c refreshed earlier data (hh ▸ hsplit) (hsame ▸ hdata)
  · have hsplit' := hsplit
    rw [hh] at hsplit'
    rcases List.cons_eq_append_iff.mp hsplit' with ⟨rfl, heq⟩ | ⟨later', rfl, hrest⟩
    · obtain ⟨rfl, rfl⟩ := List.cons.inj heq
      cases he with
      | none _ writes => exact absurd writes (by simp [Event.writes])
      | updated _ _ old stored now =>
        obtain rfl := Option.some.inj (now.symm.trans hdata)
        exact hnew c refreshed hh
    · have hsub : earlier ⊆ s.history := by
        rw [hrest]
        intro x hx
        simp [hx]
      cases he with
      | none _ writes same => exact h.stored later' c refreshed earlier data hrest (same ▸ hdata)
      | updated d r old stored now =>
        obtain rfl := Option.some.inj (now.symm.trans hdata)
        exact fun hmem => hnew d r hh (presented_mono hsub hmem)
      | saved d data' now =>
        cases hm.event hh with
        | ended _ o phase ends was gone error writes =>
          exact absurd (hU.gets d _ was) (by simp [(writes rfl).2])
      | removed d now => exact absurd (now.symm.trans hdata) (by simp)

theorem Rotated.once_step (h : Rotated api s) (hW : Watch api s) (hm : Move api s l t) :
    ∀ later d request mid c refreshed earlier,
      t.history = later ++ Event.refreshCalled d request ::
        (mid ++ Event.updated c refreshed :: earlier) →
      request.refreshToken ∉ presented earlier := by
  intro later d request mid c refreshed earlier hsplit
  rcases hm.history_cases with hh | ⟨ev, hh⟩
  · exact h.once later d request mid c refreshed earlier (hh ▸ hsplit)
  · rw [hh] at hsplit
    rcases List.cons_eq_append_iff.mp hsplit with ⟨rfl, heq⟩ | ⟨later', rfl, hrest⟩
    · obtain ⟨rfl, hrest⟩ := List.cons.inj heq
      cases hm.event hh with
      | refreshCalled _ o e _ data was made now =>
        have hstored : s.tokens.dataAt api.key = some data := hW.sees d _ was
        rw [made]
        exact h.stored mid c refreshed earlier data hrest.symm hstored
      | ended _ o phase ends => exact absurd ends (by simp [Event.ends])
    · exact h.once later' d request mid c refreshed earlier hrest

theorem Successive.of_init (h : (machine api).init s) : Successive api s := by
  obtain ⟨-, hc, hg, -, hh, -⟩ := h
  exact ⟨by simp [hc], by simp [hg], by simp [hh]⟩

theorem Rotated.of_init (h : (machine api).init s) : Rotated api s := by
  obtain ⟨-, hc, -, -, hh, -⟩ := h
  exact ⟨by simp [hc], by simp [hh], by simp [hh]⟩

theorem Successive.step (h : Successive api s) (hS : Serial api s) (hn : next api s l = some t)
    (hreq : Requests api s l t) (hno : NoReentry api s l t) : Serial api t ∧ Successive api t := by
  have hm := next_move hS.inv.saves hn
  have hI := hS.inv.step hn hreq.1
  have hU : Successive api t :=
    ⟨h.gets_step hm hreq, h.alone_step hS.inv hm hno, h.last_step hS.log hS.watch hm⟩
  exact ⟨⟨hI, hS.log.step hS.inv hm, hS.watch.step hS.log hS.sole hm, hU.sole hI⟩, hU⟩

theorem successive_of_init (h : (machine api).init s) : Serial api s ∧ Successive api s :=
  have hU := Successive.of_init h
  ⟨⟨Inv.of_init h, Log.of_init h, Watch.of_init h, hU.sole (Inv.of_init h)⟩, hU⟩

theorem successive_of_reach
    (h : Machine.Reach (machine api) (fun s l t => Requests api s l t ∧ NoReentry api s l t) s) :
    Serial api s ∧ Successive api s :=
  h.invariant (P := fun s => Serial api s ∧ Successive api s) (fun _ => successive_of_init)
    fun _ _ _ hs hn hok => hs.2.step hs.1 hn hok.1 hok.2

theorem rotated_of_reach (h : Machine.Reach (machine api)
    (fun s l t => (Requests api s l t ∧ NoReentry api s l t) ∧ NewRefreshToken s l t) s) :
      Rotated api s := by
  have hall : (Serial api s ∧ Successive api s) ∧ Rotated api s := by
    refine h.invariant (P := fun s => (Serial api s ∧ Successive api s) ∧ Rotated api s) ?_ ?_
    · exact fun s₀ h₀ => ⟨successive_of_init h₀, Rotated.of_init h₀⟩
    · rintro a l b ⟨⟨hS, hU⟩, hR⟩ hn ⟨⟨hreq, hno⟩, hnew⟩
      have hm := next_move hS.inv.saves hn
      exact ⟨hU.step hS hn hreq hno,
        hR.answer_step hS.sole hm hnew, hR.stored_step hU hm, hR.once_step hS.watch hm⟩
  exact hall.2

end Rotated

/-- Requests that never re-enter each other's lock refresh one at a time, each with the refresh
token that the last answer has left in the store; and none presents one that another has already
exchanged, where every answer brings a new one. -/
theorem requests_refresh_once {api : TokenClientApi} {s : State}
    (h : Machine.Reach (machine api) (fun s l t => Requests api s l t ∧ NoReentry api s l t) s) :
    (∀ c d o q e e' r r', s.calls.get c = some ⟨o, .refreshing e r⟩ →
        s.calls.get d = some ⟨q, .refreshing e' r'⟩ → c = d) ∧
      (∀ later d request earlier c refreshed,
        s.history = later ++ .refreshCalled d request :: earlier →
        earlier.find? Event.writes = some (.updated c refreshed) →
        request.refreshToken = refreshed.refreshToken) ∧
      (Machine.Reach (machine api)
          (fun s l t => (Requests api s l t ∧ NoReentry api s l t) ∧ NewRefreshToken s l t) s →
        ∀ later d request' mid c refreshed earlier request,
          s.history = later ++ .refreshCalled d request' ::
            (mid ++ .updated c refreshed :: earlier) →
          .refreshCalled c request ∈ earlier → request'.refreshToken ≠ request.refreshToken) := by
  obtain ⟨hS, hU⟩ := successive_of_reach h
  refine ⟨fun c d o q e e' r r' hc hd => hS.no_overlap hc hd, hU.last, ?_⟩
  intro hnew later d request' mid c refreshed earlier request hsplit hmem heq
  apply (rotated_of_reach hnew).once later d request' mid c refreshed earlier hsplit
  rw [heq]
  exact List.mem_filterMap.mpr ⟨_, hmem, rfl⟩

def requestsCheck (api : TokenClientApi) (s : State) (l : Label) (_ : State) : Bool :=
  unexpiredCheck api s && (match l with
    | .getToken owner => decide (owner = handlerOwner api.identifier)
    | .saveToken _ _ | .deleteToken _ => false
    | _ => true)

theorem requests_of_check (api : TokenClientApi) (s : State) (l : Label) (t : State)
    (h : requestsCheck api s l t = true) : Requests api s l t := by
  simp only [requestsCheck, Bool.and_eq_true] at h
  obtain ⟨hu, hl⟩ := h
  refine ⟨unexpired_of_check hu, ?_⟩
  intro call hcall
  cases l <;> simp_all [Label.starts]

def newRefreshTokenCheck (s : State) (l : Label) (_ : State) : Bool :=
  match l with
  | .answered _ (.ok refreshed) => decide (refreshed.refreshToken ∉ presented s.history)
  | _ => true

theorem newRefreshToken_of_check (s : State) (l : Label) (t : State)
    (h : newRefreshTokenCheck s l t = true) : NewRefreshToken s l t := by
  rintro c refreshed rfl
  simpa [newRefreshTokenCheck] using h

def noReentryCheck (api : TokenClientApi) (s : State) (l : Label) (_ : State) : Bool :=
  match l with
  | .step c =>
    match s.calls.get c, s.locks.get api.identifier with
    | some call, some r =>
      !call.phase.awaitsLock || decide (r.reentrantCount ≤ s.pendingUnlocks.length)
    | _, _ => true
  | _ => true

theorem noReentry_of_check (api : TokenClientApi) (s : State) (l : Label) (t : State)
    (h : noReentryCheck api s l t = true) : NoReentry api s l t := by
  rintro c call r rfl hc hw hr
  simpa [noReentryCheck, hc, hr, hw] using h

/-- The client with an expired record in its store. -/
def demoStored : State :=
  { demoStart with tokens := HashMap.empty.insert ("pc", "flow") (demoData.record 0) }

theorem demoStored_init : (machine demoApi).init demoStored := by
  refine ⟨rfl, rfl, rfl, rfl, rfl, ?_⟩
  intro data hdata
  obtain rfl := Option.some.inj hdata
  rfl

/-- Two requests one after the other; the refreshed token has expired when the second comes. -/
def expiringLabels (refreshed : RefreshedTokenData) : List Label :=
  [.getToken "flow", .step 0, .step 0, .step 0, .step 0, .step 0, .answered 0 (.ok refreshed),
    .step 0, .step 0, .unlock "flow", .tick 60000, .getToken "flow", .step 1, .step 1,
    .step 1, .step 1, .step 1]

def refreshedTwice : State :=
  (machine demoApi).final
    (fun s l t => (requestsCheck demoApi s l t && noReentryCheck demoApi s l t) &&
      newRefreshTokenCheck s l t) demoStored
    (expiringLabels demoRefreshed)

theorem second_request_presents_new_token :
    presented refreshedTwice.history = ["r2", "r1"] ∧
      (demoApi.refreshRequest (demoData.refresh demoRefreshed)).refreshToken =
        demoRefreshed.refreshToken ∧
      (demoApi.refreshRequest (demoData.refresh demoRefreshed)).refreshToken ≠
        (demoApi.refreshRequest demoData).refreshToken := by
  have h : Machine.Reach (machine demoApi)
      (fun s l t => (Requests demoApi s l t ∧ NoReentry demoApi s l t) ∧ NewRefreshToken s l t)
      refreshedTwice := by
    refine ⟨demoStored, _, demoStored_init, Machine.path_final ?_ (by decide +kernel)⟩
    intro a l b hab
    simp only [Bool.and_eq_true] at hab
    exact ⟨⟨requests_of_check demoApi a l b hab.1.1, noReentry_of_check demoApi a l b hab.1.2⟩,
      newRefreshToken_of_check a l b hab.2⟩
  have hsplit : refreshedTwice.history =
      [] ++ Event.refreshCalled 1 (demoApi.refreshRequest (demoData.refresh demoRefreshed)) ::
        ([.locked 1, .got 0 (.ok ⟨"t2", "https://provider/data"⟩)] ++
          Event.updated 0 demoRefreshed ::
          [.refreshCalled 0 (demoApi.refreshRequest demoData), .locked 0]) := rfl
  obtain ⟨-, hlast, honce⟩ := requests_refresh_once (h.mono fun _ _ _ hok => hok.1)
  exact ⟨rfl, hlast _ _ _ _ _ _ hsplit rfl, honce h _ _ _ _ _ _ _ _ hsplit (by simp)⟩

/-- Three concurrent requests re-enter the lock and read the same record under it. -/
def overlapping : State := (machine demoApi).final (requestsCheck demoApi) demoStored
  [.getToken "flow", .step 0, .step 0, .step 0, .step 0, .getToken "flow", .step 1,
    .step 1, .step 1, .step 1, .getToken "flow", .step 2, .step 2, .step 2,
    .step 2, .step 0, .step 1]

/-- The first refresh is stored; the third request then presents the old refresh token. -/
def presentedAgain : State := (machine demoApi).final (requestsCheck demoApi) overlapping
  [.answered 0 (.ok demoRefreshed), .step 0, .step 2]

/-- The endpoint sends no refresh token, so the client keeps the one that it presented. -/
def demoKept : RefreshedTokenData := ⟨"t2", "r1", 60000, "https://provider/refresh"⟩

def keptToken : State :=
  (machine demoApi).final (fun s l t => requestsCheck demoApi s l t &&
    noReentryCheck demoApi s l t) demoStored
    (expiringLabels demoKept)

theorem concurrent_requests_refresh_twice :
    ¬ (∀ (api : TokenClientApi) (s : State), Machine.Reach (machine api) (Requests api) s →
        ∀ c d o q e e' r r', s.calls.get c = some ⟨o, .refreshing e r⟩ →
          s.calls.get d = some ⟨q, .refreshing e' r'⟩ → c = d) ∧
      (¬ ∀ (api : TokenClientApi) (s : State), Machine.Reach (machine api) (Requests api) s →
        ∀ later d request' mid c refreshed earlier request,
          s.history = later ++ .refreshCalled d request' ::
            (mid ++ .updated c refreshed :: earlier) →
          .refreshCalled c request ∈ earlier → request'.refreshToken ≠ request.refreshToken) ∧
      ¬ ∀ (api : TokenClientApi) (s : State),
        Machine.Reach (machine api) (fun s l t => Requests api s l t ∧ NoReentry api s l t) s →
        ∀ later d request' mid c refreshed earlier request,
          s.history = later ++ .refreshCalled d request' ::
            (mid ++ .updated c refreshed :: earlier) →
          .refreshCalled c request ∈ earlier → request'.refreshToken ≠ request.refreshToken := by
  have h₁ : Machine.Reach (machine demoApi) (Requests demoApi) overlapping :=
    ⟨demoStored, _, demoStored_init, Machine.path_final (requests_of_check demoApi)
      (by decide +kernel)⟩
  have h₂ : Machine.Reach (machine demoApi) (Requests demoApi) presentedAgain :=
    h₁.extend (Machine.path_final (requests_of_check demoApi) (by decide +kernel))
  have h₃ : Machine.Reach (machine demoApi)
      (fun s l t => Requests demoApi s l t ∧ NoReentry demoApi s l t) keptToken := by
    refine ⟨demoStored, _, demoStored_init, Machine.path_final ?_ (by decide +kernel)⟩
    intro a l b hab
    simp only [Bool.and_eq_true] at hab
    exact ⟨requests_of_check demoApi a l b hab.1, noReentry_of_check demoApi a l b hab.2⟩
  refine ⟨?_, ?_, ?_⟩
  · intro h
    have h0 : overlapping.calls.get 0 = some ⟨"flow", .refreshing "https://provider/data"
        (demoApi.refreshRequest demoData)⟩ := rfl
    have h1 : overlapping.calls.get 1 = some ⟨"flow", .refreshing "https://provider/data"
        (demoApi.refreshRequest demoData)⟩ := rfl
    exact absurd (h demoApi overlapping h₁ 0 1 _ _ _ _ _ _ h0 h1) (by decide)
  · intro h
    have hsplit : presentedAgain.history =
        [] ++ .refreshCalled 2 (demoApi.refreshRequest demoData) ::
          ([] ++ .updated 0 demoRefreshed :: overlapping.history) := rfl
    have hmem : .refreshCalled 0 (demoApi.refreshRequest demoData) ∈ overlapping.history := by
      have hhist : overlapping.history = [.refreshCalled 1 (demoApi.refreshRequest demoData),
        .refreshCalled 0 (demoApi.refreshRequest demoData), .locked 2, .locked 1, .locked 0] := rfl
      simp [hhist]
    exact h demoApi presentedAgain h₂ _ _ _ _ _ _ _ _ hsplit hmem rfl
  · intro h
    have hsplit : keptToken.history =
        [] ++ Event.refreshCalled 1 (demoApi.refreshRequest (demoData.refresh demoKept)) ::
          ([.locked 1, .got 0 (.ok ⟨"t2", "https://provider/data"⟩)] ++ Event.updated 0 demoKept ::
            [.refreshCalled 0 (demoApi.refreshRequest demoData), .locked 0]) := rfl
    exact h demoApi keptToken h₃ _ _ _ _ _ _ _ (demoApi.refreshRequest demoData)
      hsplit (by simp) rfl

end Facet.Client
