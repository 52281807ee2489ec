import Facet.TokenClientRuns

/-!
# The endpoint a token is returned with

`get_token` keeps the endpoint of its first read, made before it has the lock, and takes
the token from its second read or from a refresh. The two belong together when the record
still has the first endpoint at the second read.
-/
namespace Facet.Client

/-- The record was stored at some time of the run. -/
def Version (api : TokenClientApi) (visited : List State) (data : TokenData) : Prop :=
  ∃ v ∈ visited, v.tokens.dataAt api.key = some data

/-- Call `c` read `data` under the lock and asked for it to be refreshed. -/
def Asks (api : TokenClientApi) (visited : List State) (history : List Event) (c : ℕ)
    (data : TokenData) : Prop :=
  (∃ v ∈ visited, ∃ owner endpoint, v.calls.get c = some ⟨owner, .rechecking endpoint data⟩) ∧
    .refreshCalled c (api.refreshRequest data) ∈ history

/-- One version of the record had the endpoint and had, or was refreshed to, the token. -/
def Paired (api : TokenClientApi) (visited : List State) (history : List Event) (c : ℕ)
    (result : TokenResult) : Prop :=
  ∃ data, Version api visited data ∧ data.endpoint = result.endpoint ∧
    (data.token = result.token ∨ Asks api visited history c data ∧
      ∃ refreshed, .updated c refreshed ∈ history ∧ refreshed.token = result.token)

/-- The phases that say nothing about what will be returned with the endpoint. -/
def Phase.plain : Phase → Bool
  | .checking _ | .rechecking .. | .refreshing .. | .updating .. | .returning _ => false
  | _ => true

/-- How a call comes to the phase it is in after a step. -/
inductive Entered (api : TokenClientApi) (s t : State) (l : Label) (c : ℕ) : Phase → Prop
  | plain (phase : Phase) (plain : phase.plain = true) : Entered api s t l c phase
  | checking (data : TokenData) (stored : s.tokens.dataAt api.key = some data) :
      Entered api s t l c (.checking data)
  | rechecking (owner endpoint : String) (data : TokenData) (label : l = .step c)
      (before : s.calls.get c = some ⟨owner, .refetching endpoint⟩)
      (stored : s.tokens.dataAt api.key = some data) :
      Entered api s t l c (.rechecking endpoint data)
  | refreshing (owner endpoint : String) (data : TokenData)
      (before : s.calls.get c = some ⟨owner, .rechecking endpoint data⟩)
      (logged : .refreshCalled c (api.refreshRequest data) ∈ t.history) :
      Entered api s t l c (.refreshing endpoint (api.refreshRequest data))
  | updating (owner endpoint : String) (request : RefreshRequest) (refreshed : RefreshedTokenData)
      (before : s.calls.get c = some ⟨owner, .refreshing endpoint request⟩) :
      Entered api s t l c (.updating endpoint refreshed)
  | returning (owner endpoint : String) (refreshed : RefreshedTokenData)
      (before : s.calls.get c = some ⟨owner, .updating endpoint refreshed⟩)
      (logged : .updated c refreshed ∈ t.history) :
      Entered api s t l c (.returning ⟨refreshed.token, endpoint⟩)

/-- The phases in which a call returns a token. -/
inductive Returns (result : TokenResult) : Phase → Prop
  | checked (data : TokenData) (eq : result = ⟨data.token, data.endpoint⟩) :
      Returns result (.checking data)
  | rechecked (endpoint : String) (data : TokenData) (eq : result = ⟨data.token, endpoint⟩) :
      Returns result (.rechecking endpoint data)
  | refreshed : Returns result (.returning result)

section Steps
variable {api : TokenClientApi} {s t : State} {l : Label}

/-- What a step did to the calls and to the history. -/
structure Traced (api : TokenClientApi) (s t : State) (l : Label) : Prop where
  calls : ∀ d call, t.calls.get d = some call → s.calls.get d = some call ∨
    Entered api s t l d call.phase
  kept : s.history ⊆ t.history
  got : ∀ d result, .got d (.ok result) ∈ t.history →
    .got d (.ok result) ∈ s.history ∨ ∃ call, s.calls.get d = some call ∧ Returns result call.phase

theorem Traced.of_goto {c : ℕ} {call : Call} (hc : t.calls = s.calls.insert c call)
    (hh : t.history = s.history ∨ ∃ ev, t.history = ev :: s.history ∧ ev.ends = false)
    (he : Entered api s t l c call.phase) : Traced api s t l where
  calls d call' hd := by
    rw [hc] at hd
    rcases HashMap.get_insert_eq_some hd with ⟨rfl, rfl⟩ | ⟨-, hd⟩
    · exact Or.inr he
    · exact Or.inl hd
  kept := by
    rcases hh with hh | ⟨ev, hh, -⟩ <;> rw [hh]
    · exact List.Subset.refl _
    · exact List.subset_cons_self ev _
  got d result hmem := by
    rcases hh with hh | ⟨ev, hh, hends⟩ <;> rw [hh] at hmem
    · exact Or.inl hmem
    · rcases List.mem_cons.mp hmem with rfl | hmem
      · exact absurd hends (by simp [Event.ends])
      · exact Or.inl hmem

theorem Traced.of_finish {c : ℕ} {call : Call} {ev : Event} (hc : s.calls.get c = some call)
    (ht : t.calls = s.calls.remove c) (hh : t.history = ev :: s.history)
    (hev : ∀ d result, ev = .got d (.ok result) → d = c ∧ Returns result call.phase) :
    Traced api s t l where
  calls d call' hd := by
    rw [ht] at hd
    exact Or.inl (HashMap.get_remove_eq_some hd).2
  kept := by
    rw [hh]
    exact List.subset_cons_self ev _
  got d result hmem := by
    rw [hh] at hmem
    rcases List.mem_cons.mp hmem with heq | hmem
    · obtain ⟨rfl, hr⟩ := hev d result heq.symm
      exact Or.inr ⟨call, hc, hr⟩
    · exact Or.inl hmem

theorem Traced.of_same (hc : t.calls = s.calls) (hh : t.history = s.history) :
    Traced api s t l where
  calls _ _ hd := Or.inl (hc ▸ hd)
  kept := hh ▸ List.Subset.refl _
  got _ _ hmem := Or.inl (hh ▸ hmem)

theorem lockThen_traced {c : ℕ} {call : Call} {identifier owner : String} {phase' : Phase}
    {acquired : State → State} {refused : TokenError → Event} (hc : s.calls.get c = some call)
    (hplain : phase'.plain = true) (hacq : acquired = (State.log · (.locked c)) ∨ acquired = id)
    (href : ∀ e d result, refused e ≠ .got d (.ok result)) :
    Traced api s (lockThen api s c identifier owner phase' acquired refused) l := by
  unfold lockThen
  dsimp only
  split
  · rcases hacq with rfl | rfl
    · exact Traced.of_goto rfl (Or.inr ⟨_, rfl, rfl⟩) (.plain _ hplain)
    · exact Traced.of_goto rfl (Or.inl rfl) (.plain _ hplain)
  · exact Traced.of_finish hc rfl rfl (fun d result h => absurd h (href _ d result))

theorem stepCall_traced {c : ℕ} {owner : String} {phase : Phase}
    (hc : s.calls.get c = some ⟨owner, phase⟩) (h : stepCall api s c owner phase = some t) :
    Traced api s t (.step c) := by
  cases phase with
  | fetching =>
    rcases s.tokens.getToken_cases s.now api.pc api.identifier with ⟨-, he⟩ | ⟨data, hd, -, he⟩ <;>
      simp only [stepCall, he, Option.some.injEq] at h <;> rw [← h]
    · exact Traced.of_finish hc rfl rfl (by simp)
    · exact Traced.of_goto rfl (Or.inl rfl) (.checking data hd)
  | checking data =>
    simp only [stepCall] at h
    split_ifs at h <;> rw [← Option.some.inj h]
    · refine Traced.of_finish hc rfl rfl ?_
      intro d result heq
      injection heq with h₁ h₂
      exact ⟨h₁.symm, .checked data (Except.ok.inj h₂).symm⟩
    · exact Traced.of_goto rfl (Or.inl rfl) (.plain _ rfl)
  | locking endpoint =>
    rw [← Option.some.inj h]
    exact lockThen_traced hc rfl (Or.inl rfl) (by simp)
  | refetching endpoint =>
    rcases s.tokens.getToken_cases s.now api.pc api.identifier with ⟨-, he⟩ | ⟨data, hd, -, he⟩ <;>
      simp only [stepCall, he, Option.some.injEq] at h <;> rw [← h]
    · exact Traced.of_finish hc rfl rfl (by simp)
    · exact Traced.of_goto rfl (Or.inl rfl) (.rechecking owner endpoint data rfl hc hd)
  | rechecking endpoint data =>
    simp only [stepCall] at h
    split_ifs at h <;> rw [← Option.some.inj h]
    · refine Traced.of_finish hc rfl rfl ?_
      intro d result heq
      injection heq with h₁ h₂
      exact ⟨h₁.symm, .rechecked endpoint data (Except.ok.inj h₂).symm⟩
    · exact Traced.of_goto rfl (Or.inr ⟨_, rfl, rfl⟩)
        (.refreshing owner endpoint data hc (List.mem_cons_self ..))
  | refreshing endpoint request => simp [stepCall] at h
  | updating endpoint refreshed =>
    rcases s.tokens.updateToken_cases s.now api.pc.id api.identifier refreshed with
      ⟨-, he⟩ | ⟨old, -, he, -⟩ <;>
      simp only [stepCall, he, Option.some.injEq] at h <;> rw [← h]
    · exact Traced.of_finish hc rfl rfl (by simp)
    · exact Traced.of_goto rfl (Or.inr ⟨_, rfl, rfl⟩)
        (.returning owner endpoint refreshed hc (List.mem_cons_self ..))
  | returning result =>
    rw [← Option.some.inj h]
    refine Traced.of_finish hc rfl rfl ?_
    intro d result' heq
    injection heq with h₁ h₂
    obtain rfl := Except.ok.inj h₂
    exact ⟨h₁.symm, .refreshed⟩
  | saveLocking data =>
    rw [← Option.some.inj h]
    exact lockThen_traced hc rfl (Or.inr rfl) (by simp)
  | saving data =>
    rw [← Option.some.inj h]
    exact Traced.of_finish hc rfl rfl (by simp)
  | deleteLocking =>
    rw [← Option.some.inj h]
    exact lockThen_traced hc rfl (Or.inr rfl) (by simp)
  | deleting =>
    rcases s.tokens.removeToken_cases api.pc.id api.identifier with ⟨-, he⟩ | ⟨old, -, he, -⟩ <;>
      simp only [stepCall, he, Option.some.injEq] at h <;> rw [← h] <;>
      exact Traced.of_finish hc rfl rfl (by simp)

theorem next_traced (h : next api s l = some t) : Traced api s t l := by
  cases l with
  | getToken owner =>
    rw [← Option.some.inj h]
    exact Traced.of_goto rfl (Or.inl rfl) (.plain _ rfl)
  | saveToken data owner =>
    simp only [next] at h
    split_ifs at h
    rw [← Option.some.inj h]
    exact Traced.of_goto rfl (Or.inl rfl) (.plain _ rfl)
  | deleteToken owner =>
    rw [← Option.some.inj h]
    exact Traced.of_goto rfl (Or.inl rfl) (.plain _ rfl)
  | step c =>
    cases hc : s.calls.get c with
    | none => simp [next, hc] at h
    | some call =>
      simp only [next, hc] at h
      exact stepCall_traced hc h
  | answered c result =>
    simp only [next] at h
    split at h
    · rename_i owner endpoint request hc
      split at h <;> rw [← Option.some.inj h]
      · exact Traced.of_goto rfl (Or.inl rfl) (.updating owner endpoint request _ hc)
      · exact Traced.of_finish hc rfl rfl (by simp)
    · exact absurd h (by simp)
  | unlock owner =>
    simp only [next] at h
    split_ifs at h
    rw [← Option.some.inj h]
    exact Traced.of_same rfl rfl
  | tick elapsed =>
    rw [← Option.some.inj h]
    exact Traced.of_same rfl rfl

end Steps

/-! ## Where a returned pair comes from -/

/-- What is known of the record that a call in this phase is going to answer from. -/
def Phase.Backed (api : TokenClientApi) (visited : List State) (history : List Event)
    (c : ℕ) : Phase → Prop
  | .checking data => Version api visited data
  | .rechecking endpoint data => Version api visited data ∧ data.endpoint = endpoint
  | .refreshing endpoint _ | .updating endpoint _ =>
    ∃ data, Version api visited data ∧ data.endpoint = endpoint ∧ Asks api visited history c data
  | .returning result => Paired api visited history c result
  | _ => True

/-- The second read of a call finds a record with the endpoint that the call got from its first
read. -/
def EndpointKept (api : TokenClientApi) (s : State) (l : Label) (_ : State) : Prop :=
  ∀ c owner endpoint data, l = .step c → s.calls.get c = some ⟨owner, .refetching endpoint⟩ →
    s.tokens.dataAt api.key = some data → data.endpoint = endpoint

structure Origins (api : TokenClientApi) (visited : List State) (s : State) : Prop where
  current : s ∈ visited
  backed : ∀ c call, s.calls.get c = some call → call.phase.Backed api visited s.history c
  paired : ∀ c result, .got c (.ok result) ∈ s.history → Paired api visited s.history c result

section Origins
variable {api : TokenClientApi} {visited visited' : List State} {history history' : List Event}
  {s t : State} {l : Label}

theorem Version.mono {data : TokenData} (h : Version api visited data) (hv : visited ⊆ visited') :
    Version api visited' data := by
  obtain ⟨v, hmem, hdata⟩ := h
  exact ⟨v, hv hmem, hdata⟩

theorem Asks.mono {c : ℕ} {data : TokenData} (h : Asks api visited history c data)
    (hv : visited ⊆ visited') (hh : history ⊆ history') : Asks api visited' history' c data := by
  obtain ⟨⟨v, hmem, hread⟩, hcalled⟩ := h
  exact ⟨⟨v, hv hmem, hread⟩, hh hcalled⟩

theorem Paired.mono {c : ℕ} {result : TokenResult} (h : Paired api visited history c result)
    (hv : visited ⊆ visited') (hh : history ⊆ history') :
    Paired api visited' history' c result := by
  obtain ⟨data, hver, he, htoken | ⟨hasks, refreshed, hup, htoken⟩⟩ := h
  · exact ⟨data, hver.mono hv, he, Or.inl htoken⟩
  · exact ⟨data, hver.mono hv, he, Or.inr ⟨hasks.mono hv hh, refreshed, hh hup, htoken⟩⟩

theorem Phase.Backed.mono {c : ℕ} {phase : Phase} (h : phase.Backed api visited history c)
    (hv : visited ⊆ visited') (hh : history ⊆ history') : phase.Backed api visited' history' c := by
  cases phase with
  | checking data => exact Version.mono h hv
  | rechecking endpoint data => exact ⟨h.1.mono hv, h.2⟩
  | refreshing endpoint request | updating endpoint refreshed =>
    obtain ⟨data, hver, he, hasks⟩ := h
    exact ⟨data, hver.mono hv, he, hasks.mono hv hh⟩
  | returning result => exact Paired.mono h hv hh
  | _ => trivial

theorem Origins.of_init (h : (machine api).init s) : Origins api [s] s := by
  obtain ⟨-, hcalls, -, -, hhist, -⟩ := h
  exact ⟨by simp, by simp [hcalls], by simp [hhist]⟩

theorem Origins.returns (h : Origins api visited s) {c : ℕ} {call : Call} {result : TokenResult}
    (hc : s.calls.get c = some call) (hr : Returns result call.phase) :
    Paired api visited s.history c result := by
  have hb := h.backed c call hc
  obtain ⟨owner, phase⟩ := call
  cases hr with
  | checked data heq => exact ⟨data, hb, by rw [heq], Or.inl (by rw [heq])⟩
  | rechecked endpoint data heq => exact ⟨data, hb.1, by rw [heq, hb.2], Or.inl (by rw [heq])⟩
  | refreshed => exact hb

theorem Origins.entered (h : Origins api visited s) (hok : EndpointKept api s l t)
    (hh : s.history ⊆ t.history) {c : ℕ} {phase : Phase} (he : Entered api s t l c phase) :
    phase.Backed api visited t.history c := by
  cases he with
  | plain phase hplain => cases phase <;> simp_all [Phase.plain, Phase.Backed]
  | checking data hstored => exact ⟨s, h.current, hstored⟩
  | rechecking owner endpoint data hl hbefore hstored =>
    exact ⟨⟨s, h.current, hstored⟩, hok c owner endpoint data hl hbefore hstored⟩
  | refreshing owner endpoint data hbefore hlogged =>
    obtain ⟨hver, hend⟩ := h.backed c _ hbefore
    exact ⟨data, hver, hend, ⟨s, h.current, owner, endpoint, hbefore⟩, hlogged⟩
  | updating owner endpoint request refreshed hbefore =>
    exact Phase.Backed.mono (h.backed c _ hbefore) (List.Subset.refl _) hh
  | returning owner endpoint refreshed hbefore hlogged =>
    obtain ⟨data, hver, hend, hasks⟩ := h.backed c _ hbefore
    exact ⟨data, hver, hend, Or.inr ⟨hasks.mono (List.Subset.refl _) hh, refreshed, hlogged, rfl⟩⟩

theorem Origins.step (h : Origins api visited s) (hn : next api s l = some t)
    (hok : EndpointKept api s l t) : Origins api (visited ++ [t]) t := by
  have htr := next_traced hn
  have hv : visited ⊆ visited ++ [t] := List.subset_append_left _ _
  refine ⟨by simp, ?_, ?_⟩
  · intro c call hc
    rcases htr.calls c call hc with hold | hnew
    · exact (h.backed c call hold).mono hv htr.kept
    · exact (h.entered hok htr.kept hnew).mono hv (List.Subset.refl _)
  · intro c result hmem
    rcases htr.got c result hmem with hold | ⟨call, hc, hr⟩
    · exact (h.paired c result hold).mono hv htr.kept
    · exact (h.returns hc hr).mono hv htr.kept

end Origins

/-- In a run in which no record's endpoint is replaced between the two reads of a call, every
token is returned with the endpoint of the version it belongs to. -/
theorem returned_token_of_endpoint {api : TokenClientApi} {s₀ s : State} {ls : List Label}
    (hinit : (machine api).init s₀) (h : Machine.Path (machine api) (EndpointKept api) s₀ ls s)
    (c : ℕ) (result : TokenResult) (hgot : .got c (.ok result) ∈ s.history) :
    Paired api ((machine api).visited s₀ ls) s.history c result :=
  (h.visited_invariant (fun _ _ _ _ ho hn hok => Origins.step ho hn hok)
    (Origins.of_init hinit)).paired c result hgot

def endpointKeptCheck (api : TokenClientApi) (s : State) (l : Label) (_ : State) : Bool :=
  match l with
  | .step c => match s.calls.get c, s.tokens.dataAt api.key with
    | some ⟨_, .refetching endpoint⟩, some data => decide (data.endpoint = endpoint)
    | _, _ => true
  | _ => true

theorem endpointKept_of_check (api : TokenClientApi) (s : State) (l : Label) (t : State)
    (h : endpointKeptCheck api s l t = true) : EndpointKept api s l t := by
  intro c owner endpoint data hl hc hdata
  subst hl
  simpa [endpointKeptCheck, hc, hdata] using h

def renewedData : TokenData :=
  { demoData with token := "t9", refreshToken := "r9", expiresAt := 60000 }

/-- Call 0 has read the record when call 1 replaces it with `data`, and reads it again
afterwards. -/
def replaceLabels (data : TokenData) : List Label :=
  [.getToken "a", .step 0, .step 0, .saveToken data "s", .step 1, .step 1, .unlock "s",
    .step 0, .step 0, .step 0]

def renewed : State :=
  (machine demoApi).final (endpointKeptCheck demoApi) demoStored (replaceLabels renewedData)

theorem renewed_token_of_endpoint :
    Paired demoApi ((machine demoApi).visited demoStored (replaceLabels renewedData))
      renewed.history 0 ⟨"t9", "https://provider/data"⟩ :=
  returned_token_of_endpoint demoStored_init
    (Machine.path_final (endpointKept_of_check demoApi) (by decide)) 0 _ (List.mem_cons_self ..)

/-! With another endpoint in the new record, its token goes out with the old endpoint. -/

def movedData : TokenData := { renewedData with endpoint := "https://elsewhere/data" }

def moved : State :=
  (machine demoApi).final (fun _ _ _ => true) demoStored (replaceLabels movedData)

theorem replaced_token_with_old_endpoint :
    ¬ ∀ (api : TokenClientApi) (s₀ s : State) (ls : List Label), (machine api).init s₀ →
      Machine.Path (machine api) Machine.Any s₀ ls s → ∀ c result, .got c (.ok result) ∈ s.history →
        Paired api ((machine api).visited s₀ ls) s.history c result := by
  intro h
  have hpath : Machine.Path (machine demoApi) Machine.Any demoStored
      (replaceLabels movedData) moved :=
    Machine.path_final (fun _ _ _ _ => trivial) (by decide)
  have hgot : .got 0 (.ok ⟨"t9", "https://provider/data"⟩) ∈ moved.history := List.mem_cons_self ..
  obtain ⟨data, ⟨v, hv, hdata⟩, he, htoken⟩ := h demoApi _ _ _ demoStored_init hpath 0 _ hgot
  have hold : ∀ v ∈ (machine demoApi).visited demoStored (replaceLabels movedData),
      v.tokens.dataAt demoApi.key = some demoData ∨
        v.tokens.dataAt demoApi.key = some movedData := by
    decide
  rcases hold v hv with hv | hv <;> rw [hv] at hdata <;> obtain rfl := Option.some.inj hdata
  · rcases htoken with htoken | ⟨⟨-, hasks⟩, -⟩
    · exact absurd htoken (by decide)
    · have hhist : moved.history = [.got 0 (.ok ⟨"t9", "https://provider/data"⟩), .locked 0,
        .saved 1 movedData] := rfl
      simp [hhist] at hasks
  · exact absurd he (by decide)

end Facet.Client
