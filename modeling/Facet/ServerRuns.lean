import Facet.JoinSet
import Facet.Machine
import Facet.SocketAddr

/-!
# The servers of the siglet

`run_server`: four APIs, each a task that parses its address, binds and serves until the token is
cancelled. The parent waits for a shutdown signal or for the first task to end, and then for all
the others. What a task meets (a port in use, callers, a panic) is chosen by the environment.
-/
namespace Facet.Server
open Net

/-- The variants of `SigletError` that the servers return. -/
inductive ServerError
  | io (message : String)
  | network (message : String)
  | taskPanic (message : String)

inductive Api
  | signaling
  | siglet
  | refresh
  | management
  deriving DecidableEq

instance : Fintype Api where
  elems := {.signaling, .siglet, .refresh, .management}
  complete api := by cases api <;> decide

structure ServerConfig where
  bind : IpAddr
  signalingPort : UInt16
  sigletApiPort : UInt16
  refreshApiPort : UInt16
  managementApiPort : UInt16

def ServerConfig.port (cfg : ServerConfig) : Api → UInt16
  | .signaling => cfg.signalingPort
  | .siglet => cfg.sigletApiPort
  | .refresh => cfg.refreshApiPort
  | .management => cfg.managementApiPort

/-- `callers` are the connections that are open; `closing` once the server has seen the token
cancelled. -/
inductive ApiState
  | starting
  | binding (addr : SocketAddr)
  | serving (addr : SocketAddr) (callers : ℕ) (closing : Bool)

inductive ApiLabel
  | parse
  | bind (result : Except String Unit)
  | accept
  | close
  | cancelled
  | stop
  | fail (message : String)
  | panic (message : String)

/-- `{bind}:{port}`. -/
def addrText (bind : IpAddr) (port : UInt16) : List Char :=
  bind.text ++ ':' :: port.toNat.repr.toList

/-- What the four functions have in common: they differ in the application that they serve. -/
def runApi (inBrackets : InBrackets) (bind : IpAddr) (port : UInt16) (cancelled : Bool) :
    ApiState → ApiLabel → Option (ApiState ⊕ TaskEnd ServerError)
  | .starting, .parse =>
    match parseSocketAddr inBrackets (addrText bind port) with
    | .ok addr => some (.inl (.binding addr))
    | .error e => some (.inr (.failed (.network e)))
  | .binding addr, .bind (.ok ()) => some (.inl (.serving addr 0 false))
  | .binding _, .bind (.error e) => some (.inr (.failed (.io e)))
  | .serving addr callers false, .accept => some (.inl (.serving addr (callers + 1) false))
  | .serving addr (callers + 1) closing, .close => some (.inl (.serving addr callers closing))
  | .serving addr callers false, .cancelled =>
    if cancelled then some (.inl (.serving addr callers true)) else none
  | .serving _ 0 true, .stop => some (.inr .ok)
  | .serving _ _ _, .fail e => some (.inr (.failed (.io e)))
  | _, .panic e => some (.inr (.panicked e))
  | _, _ => none

section Apis
variable (inBrackets : InBrackets) (cfg : ServerConfig)

def runSignalingApi := runApi inBrackets cfg.bind cfg.signalingPort

def runSigletApi := runApi inBrackets cfg.bind cfg.sigletApiPort

def runRefreshApi := runApi inBrackets cfg.bind cfg.refreshApiPort

def runManagementApi := runApi inBrackets cfg.bind cfg.managementApiPort

def apis : TaskProgram Api ApiState ApiLabel ServerError where
  start _ := .starting
  step
    | .signaling => runSignalingApi inBrackets cfg
    | .siglet => runSigletApi inBrackets cfg
    | .refresh => runRefreshApi inBrackets cfg
    | .management => runManagementApi inBrackets cfg

theorem apis_step (api : Api) :
    (apis inBrackets cfg).step api = runApi inBrackets cfg.bind (cfg.port api) := by
  cases api <;> rfl

end Apis

/-! ## The parent -/

inductive Phase
  | waiting
  | draining
  | returned (result : Except ServerError Unit)

/-- `signalled` and `joins` are what the parent has seen: the signal, and the ended tasks in
order. -/
structure State where
  joinSet : JoinSet Api ApiState ServerError
  phase : Phase
  signalled : Bool
  joins : List (Api × TaskEnd ServerError)

inductive Label
  | task (api : Api) (l : ApiLabel)
  | waitForShutdown
  | joinNext (api : Api)
  | shutdownComplete

def handleTaskResult (joinSet : JoinSet Api ApiState ServerError) : TaskEnd ServerError →
    Except ServerError Unit × JoinSet Api ApiState ServerError
  | .ok => (.ok (), joinSet)
  | .failed e => (.error e, joinSet.cancel.abortAll)
  | .panicked e => (.error (.taskPanic e), joinSet.cancel.abortAll)

/-- The phase after the first task: `?` returns its error. -/
def afterFirst : Except ServerError Unit → Phase
  | .ok () => .draining
  | .error e => .returned (.error e)

section Machine
variable (inBrackets : InBrackets) (cfg : ServerConfig)

def next (s : State) : Label → Option State
  | .task api l =>
    match s.phase with
    | .returned _ => none
    | _ => (s.joinSet.runTask (apis inBrackets cfg) api l).map fun joinSet =>
        { s with joinSet := joinSet }
  | .waitForShutdown =>
    match s.phase with
    | .waiting => some { s with joinSet := s.joinSet.cancel, phase := .draining, signalled := true }
    | _ => none
  | .joinNext api =>
    match s.phase, s.joinSet.joinNext api with
    | .waiting, some (result, joinSet) =>
      let handled := handleTaskResult joinSet result
      some { s with joinSet := handled.2, phase := afterFirst handled.1, joins := s.joins ++
        [(api, result)] }
    | .draining, some (result, joinSet) =>
      some { s with joinSet := joinSet, joins := s.joins ++ [(api, result)] }
    | _, _ => none
  | .shutdownComplete =>
    match s.phase with
    | .draining => if s.joinSet.isEmpty then some { s with phase := .returned (.ok ()) } else none
    | _ => none

def runServer : Machine State Label where
  init s := s = ⟨JoinSet.spawned (apis inBrackets cfg), .waiting, false, []⟩
  next := next inBrackets cfg

inductive Step (s t : State) : Label → Prop
  | task (api : Api) (l : ApiLabel) (joinSet : JoinSet Api ApiState ServerError)
      (hphase : ∀ result, s.phase ≠ .returned result)
      (hrun : s.joinSet.runTask (apis inBrackets cfg) api l = some joinSet)
      (ht : t = { s with joinSet := joinSet }) : Step s t (.task api l)
  | signal (hphase : s.phase = .waiting)
      (ht : t = { s with joinSet := s.joinSet.cancel, phase := .draining, signalled := true }) :
      Step s t .waitForShutdown
  | first (api : Api) (result : TaskEnd ServerError) (joinSet : JoinSet Api ApiState ServerError)
      (hphase : s.phase = .waiting) (hjoin : s.joinSet.joinNext api = some (result, joinSet))
      (ht : t = { s with
        joinSet := (handleTaskResult joinSet result).2
        phase := afterFirst (handleTaskResult joinSet result).1
        joins := s.joins ++ [(api, result)] }) : Step s t (.joinNext api)
  | further (api : Api) (result : TaskEnd ServerError) (joinSet : JoinSet Api ApiState ServerError)
      (hphase : s.phase = .draining) (hjoin : s.joinSet.joinNext api = some (result, joinSet))
      (ht : t = { s with joinSet := joinSet, joins := s.joins ++ [(api, result)] }) :
      Step s t (.joinNext api)
  | complete (hphase : s.phase = .draining) (hempty : s.joinSet.isEmpty = true)
      (ht : t = { s with phase := .returned (.ok ()) }) : Step s t .shutdownComplete

end Machine

section Steps
variable {inBrackets : InBrackets} {cfg : ServerConfig} {s t : State}

theorem next_iff {l : Label} : next inBrackets cfg s l = some t ↔ Step inBrackets cfg s t l := by
  constructor
  · intro h
    cases l with
    | task api l =>
      unfold next at h
      cases hphase : s.phase with
      | returned result => simp [hphase] at h
      | waiting =>
        simp only [hphase, Option.map_eq_some_iff] at h
        obtain ⟨joinSet, hrun, ht⟩ := h
        exact .task api l joinSet (by simp [hphase]) hrun (by rw [← ht, hphase])
      | draining =>
        simp only [hphase, Option.map_eq_some_iff] at h
        obtain ⟨joinSet, hrun, ht⟩ := h
        exact .task api l joinSet (by simp [hphase]) hrun (by rw [← ht, hphase])
    | waitForShutdown =>
      cases hphase : s.phase with
      | waiting => exact .signal hphase (by simpa [next, hphase] using h.symm)
      | draining => simp [next, hphase] at h
      | returned result => simp [next, hphase] at h
    | joinNext api =>
      cases hjoin : s.joinSet.joinNext api with
      | none =>
        unfold next at h
        cases hphase : s.phase <;> simp [hphase, hjoin] at h
      | some joined =>
        obtain ⟨result, joinSet⟩ := joined
        cases hphase : s.phase with
        | waiting => exact .first api result joinSet hphase hjoin (by simpa [next,
            hphase, hjoin] using h.symm)
        | draining =>
          exact .further api result joinSet hphase hjoin
            (by simpa [next, hphase, hjoin] using h.symm)
        | returned result => simp [next, hphase] at h
    | shutdownComplete =>
      cases hphase : s.phase with
      | waiting => simp [next, hphase] at h
      | returned result => simp [next, hphase] at h
      | draining =>
        simp only [next, hphase] at h
        split_ifs at h with hempty
        exact .complete hphase hempty (Option.some.inj h).symm
  · intro h
    cases h with
    | task api l joinSet hphase hrun ht =>
      unfold next
      cases hp : s.phase with
      | returned result => exact absurd hp (hphase result)
      | waiting => simp [hrun, ht, hp]
      | draining => simp [hrun, ht, hp]
    | signal hphase ht => simp [next, hphase, ht]
    | first api result joinSet hphase hjoin ht => simp [next, hphase, hjoin, ht]
    | further api result joinSet hphase hjoin ht => simp [next, hphase, hjoin, ht]
    | complete hphase hempty ht => simp [next, hphase, hempty, ht]

/-! ## What the tasks keep -/

/-- A server that closes has seen the token, and serves at the address that it was given. -/
def Running (inBrackets : InBrackets) (cfg : ServerConfig) (api : Api) (cancelled : Bool) :
    ApiState → Prop
  | .starting => True
  | .binding addr => parseSocketAddr inBrackets (addrText cfg.bind (cfg.port api)) = .ok addr
  | .serving addr _ closing =>
    parseSocketAddr inBrackets (addrText cfg.bind (cfg.port api)) = .ok addr ∧
      (closing = true → cancelled = true)

/-- A task ends well after the token was cancelled only, and with a network error when its address
is none. -/
def Ended (inBrackets : InBrackets) (cfg : ServerConfig) (api : Api) (cancelled : Bool) :
    TaskEnd ServerError → Prop
  | .ok =>
    cancelled = true ∧
      ∃ addr, parseSocketAddr inBrackets (addrText cfg.bind (cfg.port api)) = .ok addr
  | .failed (.network e) => parseSocketAddr inBrackets (addrText cfg.bind (cfg.port api)) = .error e
  | .failed (.io _) =>
    ∃ addr, parseSocketAddr inBrackets (addrText cfg.bind (cfg.port api)) = .ok addr
  | .failed (.taskPanic _) => False
  | .panicked _ => True

/-- What one step of a task makes of it. -/
inductive ApiStep (inBrackets : InBrackets) (bind : IpAddr) (port : UInt16)
    (cancelled : Bool) : ApiState → ApiLabel → ApiState ⊕ TaskEnd ServerError → Prop
  | parsed {addr : SocketAddr} (h : parseSocketAddr inBrackets (addrText bind port) = .ok addr) :
      ApiStep inBrackets bind port cancelled .starting .parse (.inl (.binding addr))
  | unparsed {e : String} (h : parseSocketAddr inBrackets (addrText bind port) = .error e) :
      ApiStep inBrackets bind port cancelled .starting .parse (.inr (.failed (.network e)))
  | bound (addr : SocketAddr) :
      ApiStep inBrackets bind port cancelled (.binding addr) (.bind (.ok ()))
        (.inl (.serving addr 0 false))
  | unbound (addr : SocketAddr) (e : String) :
      ApiStep inBrackets bind port cancelled (.binding addr) (.bind (.error e))
        (.inr (.failed (.io e)))
  | accepted (addr : SocketAddr) (callers : ℕ) :
      ApiStep inBrackets bind port cancelled (.serving addr callers false)
      .accept (.inl (.serving addr (callers + 1) false))
  | closed (addr : SocketAddr) (callers : ℕ) (closing : Bool) :
      ApiStep inBrackets bind port cancelled
      (.serving addr (callers + 1) closing) .close (.inl (.serving addr callers closing))
  | cancelled (addr : SocketAddr) (callers : ℕ) (h : cancelled = true) :
      ApiStep inBrackets bind port cancelled
      (.serving addr callers false) .cancelled (.inl (.serving addr callers true))
  | stopped (addr : SocketAddr) :
      ApiStep inBrackets bind port cancelled (.serving addr 0 true) .stop (.inr .ok)
  | failed (addr : SocketAddr) (callers : ℕ) (closing : Bool) (e : String) :
      ApiStep inBrackets bind port cancelled
      (.serving addr callers closing) (.fail e) (.inr (.failed (.io e)))
  | panicked (p : ApiState) (e : String) :
      ApiStep inBrackets bind port cancelled p (.panic e) (.inr (.panicked e))

theorem apiStep_of_runApi {bind : IpAddr} {port : UInt16} {cancelled : Bool} {p : ApiState}
    {l : ApiLabel} {r : ApiState ⊕ TaskEnd ServerError}
    (h : runApi inBrackets bind port cancelled p l = some r) :
    ApiStep inBrackets bind port cancelled p l r := by
  unfold runApi at h
  split at h
  · cases hparse : parseSocketAddr inBrackets (addrText bind port) with
    | ok addr =>
      simp only [hparse, Option.some.injEq] at h
      exact h ▸ .parsed hparse
    | error e =>
      simp only [hparse, Option.some.injEq] at h
      exact h ▸ .unparsed hparse
  · exact Option.some.inj h ▸ .bound _
  · exact Option.some.inj h ▸ .unbound _ _
  · exact Option.some.inj h ▸ .accepted _ _
  · exact Option.some.inj h ▸ .closed _ _ _
  · split_ifs at h with hc
    exact Option.some.inj h ▸ .cancelled _ _ hc
  · exact Option.some.inj h ▸ .stopped _
  · exact Option.some.inj h ▸ .failed _ _ _ _
  · exact Option.some.inj h ▸ .panicked _ _
  · exact absurd h (by simp)

theorem apis_keep (inBrackets : InBrackets) (cfg : ServerConfig) :
    JoinSet.Keeps (apis inBrackets cfg) (Running inBrackets cfg) (Ended inBrackets cfg) where
  start _ := trivial
  step api cancelled p l q hp hstep := by
    rw [apis_step] at hstep
    cases apiStep_of_runApi hstep with
    | parsed h => exact h
    | bound addr => exact ⟨hp, by simp⟩
    | accepted addr callers => exact ⟨hp.1, by simp⟩
    | closed addr callers closing => exact hp
    | cancelled addr callers h => exact ⟨hp.1, fun _ => h⟩
  stop api cancelled p l result hp hstep := by
    rw [apis_step] at hstep
    cases apiStep_of_runApi hstep with
    | unparsed h => exact h
    | unbound addr e => exact ⟨addr, hp⟩
    | stopped addr => exact ⟨hp.2 rfl, addr, hp.1⟩
    | failed addr callers closing e => exact ⟨addr, hp.1⟩
    | panicked p e => trivial
  cancel api p hp := by
    cases p with
    | starting => trivial
    | binding addr => exact hp
    | serving addr callers closing => exact ⟨hp.1, fun _ => rfl⟩
  cancel_end api result h := by
    cases result with
    | ok => exact ⟨rfl, h.2⟩
    | failed e => cases e <;> exact h
    | panicked e => trivial

/-! ## What the parent returns -/

/-- The tasks taken out are those of the record, each once. -/
structure Recorded (s : State) : Prop where
  nodup : (s.joins.map Prod.fst).Nodup
  joined : ∀ api, s.joinSet.tasks api = .joined ↔ api ∈ s.joins.map Prod.fst

structure Inv (inBrackets : InBrackets) (cfg : ServerConfig) (s : State) : Prop where
  holds : JoinSet.Holds (Running inBrackets cfg) (Ended inBrackets cfg) s.joinSet
  recorded : Recorded s
  waiting : s.phase = .waiting → s.signalled = false ∧ s.joinSet.cancelled = false ∧ s.joins = []
  aborted : (∀ e, s.phase ≠ .returned (.error e)) → ∀ api, s.joinSet.tasks api ≠ .aborted
  draining : s.phase = .draining ∨ s.phase = .returned (.ok ()) → s.signalled = true ∧
    s.joinSet.cancelled = true
  complete : s.phase = .returned (.ok ()) → ∀ api, s.joinSet.tasks api = .joined
  failed : ∀ e, s.phase = .returned (.error e) → s.signalled = false ∧ s.joinSet.cancelled = true ∧
    (∀ api p, s.joinSet.tasks api ≠ .running p) ∧ ∃ api result, s.joins = [(api, result)] ∧
      (handleTaskResult s.joinSet result).1 = .error e ∧ Ended inBrackets cfg api true result

theorem Recorded.join (h : Recorded s) {api : Api} {result : TaskEnd ServerError}
    {joinSet : JoinSet Api ApiState ServerError}
    (hjoin : s.joinSet.joinNext api = some (result, joinSet)) :
    Recorded { s with joinSet := joinSet, joins := s.joins ++ [(api, result)] } := by
  obtain ⟨htask, rfl⟩ := JoinSet.joinNext_eq_some.mp hjoin
  have hnew : api ∉ s.joins.map Prod.fst := by
    rw [← h.joined, htask]
    simp
  constructor
  · rw [List.map_append, List.nodup_append]
    refine ⟨h.nodup, by simp, ?_⟩
    intro other hother joined hjoined heq
    obtain rfl : joined = api := by simpa using hjoined
    exact hnew (heq ▸ hother)
  · intro other
    by_cases hother : other = api
    · subst hother
      simp
    · dsimp only
      rw [JoinSet.put_of_ne _ hother, h.joined]
      simp [hother]

theorem Recorded.put (h : Recorded s) {api : Api} (hold : s.joinSet.tasks api ≠ .joined)
    {task : TaskState ApiState ServerError} (hnew : task ≠ .joined) :
    Recorded { s with joinSet := s.joinSet.put api task } where
  nodup := h.nodup
  joined other := by
    by_cases hother : other = api
    · subst hother
      dsimp only
      rw [JoinSet.put_self, ← h.joined]
      exact iff_of_false hnew hold
    · dsimp only
      rw [JoinSet.put_of_ne _ hother, h.joined]

/-- Every task that did not end well makes the parent return, with all others aborted. -/
theorem handleTaskResult_cases (result : TaskEnd ServerError) : result = .ok ∨
    ∃ e, ∀ joinSet, handleTaskResult joinSet result = (.error e, joinSet.cancel.abortAll) := by
  cases result with
  | ok => exact Or.inl rfl
  | failed e => exact Or.inr ⟨e, fun _ => rfl⟩
  | panicked e => exact Or.inr ⟨.taskPanic e, fun _ => rfl⟩

theorem abortAll_joined {joinSet : JoinSet Api ApiState ServerError} {api : Api} :
    joinSet.abortAll.tasks api = .joined ↔ joinSet.tasks api = .joined := by
  unfold JoinSet.abortAll
  cases htask : joinSet.tasks api <;> simp [htask]

theorem inv_init : Inv inBrackets cfg
    ⟨JoinSet.spawned (apis inBrackets cfg), .waiting, false, []⟩ where
  holds := (apis_keep inBrackets cfg).spawned
  recorded := ⟨List.nodup_nil, fun api => by simp [JoinSet.spawned]⟩
  waiting _ := ⟨rfl, rfl, rfl⟩
  aborted _ api := by simp [JoinSet.spawned]
  draining h := by simp at h
  complete h := by simp at h
  failed e h := by simp at h

theorem Inv.step (h : Inv inBrackets cfg s) {l : Label} (hn : next inBrackets cfg s l = some t) :
    Inv inBrackets cfg t := by
  cases next_iff.mp hn with
  | task api l joinSet hphase hrun ht =>
    subst ht
    have hholds := h.holds.runTask (apis_keep inBrackets cfg) hrun
    obtain ⟨p, htask, hnext⟩ := JoinSet.runTask_eq_some.mp hrun
    obtain ⟨task, rfl, hjoined, haborted⟩ :
        ∃ task, joinSet = s.joinSet.put api task ∧ task ≠ .joined ∧ task ≠ .aborted := by
      rcases hnext with ⟨q, -, rfl⟩ | ⟨result, -, rfl⟩
      · exact ⟨_, rfl, by simp, by simp⟩
      · exact ⟨_, rfl, by simp, by simp⟩
    refine ⟨hholds, h.recorded.put (by simp [htask]) hjoined, h.waiting, ?_, h.draining, ?_, ?_⟩
    · intro hne other
      by_cases hother : other = api
      · subst hother
        simpa using haborted
      · dsimp only
        rw [JoinSet.put_of_ne _ hother]
        exact h.aborted hne other
    · exact fun hreturned => absurd hreturned (hphase _)
    · exact fun e hreturned => absurd hreturned (hphase _)
  | signal hphase ht =>
    subst ht
    refine ⟨h.holds.cancel (apis_keep inBrackets cfg), ⟨h.recorded.nodup,
      h.recorded.joined⟩, by simp, ?_, ?_, by simp, by simp⟩
    · exact fun _ => h.aborted (by simp [hphase])
    · exact fun _ => ⟨rfl, rfl⟩
  | first api result joinSet hphase hjoin ht =>
    subst ht
    obtain ⟨hsignal, hcancelled, hjoins⟩ := h.waiting hphase
    obtain ⟨hended, hholds⟩ := h.holds.joinNext hjoin
    have hrecorded := h.recorded.join hjoin
    have hlater := (apis_keep inBrackets cfg).cancel_end api result (hcancelled ▸ hended)
    rcases handleTaskResult_cases result with rfl | ⟨e, he⟩
    · exact absurd (hcancelled ▸ hended).1 (by simp)
    · simp only [he, afterFirst]
      refine ⟨(hholds.cancel (apis_keep inBrackets cfg)).abortAll,
        ⟨hrecorded.nodup, fun api => ?_⟩, by simp, by simp, by simp, by simp, ?_⟩
      · rw [← hrecorded.joined]
        exact abortAll_joined
      · rintro _ ⟨⟩
        exact ⟨hsignal, rfl, fun api p => JoinSet.abortAll_running _ api p,
          api, result, by simp [hjoins], by rw [he], hlater⟩
  | further api result joinSet hphase hjoin ht =>
    subst ht
    obtain ⟨-, hholds⟩ := h.holds.joinNext hjoin
    obtain ⟨hsignal, hcancelled⟩ := h.draining (Or.inl hphase)
    have hrecorded := h.recorded.join hjoin
    obtain ⟨htask, rfl⟩ := JoinSet.joinNext_eq_some.mp hjoin
    refine ⟨hholds,
      hrecorded, by simp [hphase], ?_, fun _ => ⟨hsignal,
        hcancelled⟩, by simp [hphase], by simp [hphase]⟩
    intro hne other
    by_cases hother : other = api
    · subst hother
      simp
    · dsimp only
      rw [JoinSet.put_of_ne _ hother]
      exact h.aborted hne other
  | complete hphase hempty ht =>
    subst ht
    obtain ⟨hsignal, hcancelled⟩ := h.draining (Or.inl hphase)
    exact ⟨h.holds, ⟨h.recorded.nodup, h.recorded.joined⟩, by simp, fun _ =>
      h.aborted (by simp [hphase]),
      fun _ => ⟨hsignal, hcancelled⟩, fun _ => JoinSet.isEmpty_iff.mp hempty, by simp⟩

theorem inv_of_reach (h : Machine.Reach (runServer inBrackets cfg) Machine.Any s) :
    Inv inBrackets cfg s :=
  h.invariant (fun _ hs => hs ▸ inv_init) fun _ _ _ ha hn _ => ha.step hn

def anyAddress : IpAddr := .v4 ⟨fun _ => ⟨0, Nat.zero_lt_succ 255⟩⟩

def demoConfig (bind : IpAddr) : ServerConfig := ⟨bind, 8081, 8080, 8082, 8083⟩

def demoFinal (bind : IpAddr) (ls : List Label) : State :=
  (runServer (fun _ => none) (demoConfig bind)).final (fun _ _ _ => true)
    ⟨JoinSet.spawned (apis (fun _ => none) (demoConfig bind)), .waiting, false, []⟩ ls

theorem reach_demoFinal (bind : IpAddr) (ls : List Label)
    (h : ((runServer (fun _ => none) (demoConfig bind)).run (fun _ _ _ => true)
      ⟨JoinSet.spawned (apis (fun _ => none) (demoConfig bind)), .waiting, false, []⟩ ls).isSome =
        true) :
    Machine.Reach (runServer (fun _ => none) (demoConfig bind)) Machine.Any (demoFinal bind ls) :=
  ⟨_, ls, rfl, Machine.path_final (fun _ _ _ _ => trivial) h⟩

/-- How many steps a server still has, once it takes no more callers. -/
def rank : ApiState → ℕ
  | .starting => 4
  | .binding _ => 3
  | .serving _ callers closing => callers + if closing then 1 else 2

def remaining (s : State) : ℕ :=
  s.joinSet.remaining rank + match s.phase with
    | .returned _ => 0
    | _ => 1

/-- No API takes a new caller. -/
def Quiet (_ : State) (l : Label) (_ : State) : Prop := ∀ api, l ≠ .task api .accept

theorem rank_lt {bind : IpAddr} {port : UInt16} {cancelled : Bool} {p q : ApiState} {l : ApiLabel}
    (h : runApi inBrackets bind port cancelled p l = some (.inl q)) (hl : l ≠ .accept) :
    rank q < rank p := by
  cases apiStep_of_runApi h with
  | parsed h => simp [rank]
  | bound addr => simp [rank]
  | accepted addr callers => exact absurd rfl hl
  | closed addr callers closing => simp [rank]
  | cancelled addr callers h => simp [rank]

/-- Shutting down, or done. -/
def Draining (inBrackets : InBrackets) (cfg : ServerConfig) (s : State) : Prop :=
  Inv inBrackets cfg s ∧ (s.phase = .draining ∨ s.phase = .returned (.ok ()))

theorem Draining.step (h : Draining inBrackets cfg s) {l : Label}
    (hn : next inBrackets cfg s l = some t) (hquiet : Quiet s l t) :
    Draining inBrackets cfg t ∧ remaining t < remaining s := by
  obtain ⟨hinv, hphase⟩ := h
  have hnext := hinv.step hn
  cases next_iff.mp hn with
  | task api l joinSet hp hrun ht =>
    subst ht
    refine ⟨⟨hnext, hphase⟩, ?_⟩
    have hlt := JoinSet.remaining_runTask rank hrun fun p q _ hstep => by
      rw [apis_step] at hstep
      exact rank_lt hstep fun hl => hquiet api (hl ▸ rfl)
    simpa [remaining] using hlt
  | signal hp ht => simp [hp] at hphase
  | first api result joinSet hp hjoin ht => simp [hp] at hphase
  | further api result joinSet hp hjoin ht =>
    subst ht
    refine ⟨⟨hnext, hphase⟩, ?_⟩
    simpa [remaining] using JoinSet.remaining_joinNext rank hjoin
  | complete hp hempty ht =>
    subst ht
    refine ⟨⟨hnext, Or.inr rfl⟩, ?_⟩
    simp [remaining, hp]

/-- A server that is not done can go on, once the token is cancelled and without a new caller. -/
theorem exists_apiStep (inBrackets : InBrackets) (bind : IpAddr) (port : UInt16) (p : ApiState) :
    ∃ l r, l ≠ .accept ∧ runApi inBrackets bind port true p l = some r := by
  cases p with
  | starting =>
    cases hparse : parseSocketAddr inBrackets (addrText bind port) with
    | ok addr => exact ⟨.parse, _, by simp, by simp only [runApi, hparse]; rfl⟩
    | error e => exact ⟨.parse, _, by simp, by simp only [runApi, hparse]; rfl⟩
  | binding addr => exact ⟨.bind (.ok ()), _, by simp, rfl⟩
  | serving addr callers closing =>
    cases callers with
    | succ callers =>
      exact ⟨.close, .inl (.serving addr callers closing), by simp, by cases closing <;> rfl⟩
    | zero =>
      cases closing with
      | true => exact ⟨.stop, _, by simp, rfl⟩
      | false => exact ⟨.cancelled, _, by simp, rfl⟩

theorem Draining.progress (h : Draining inBrackets cfg s) : s.phase = .returned (.ok ()) ∨
    ∃ l t, next inBrackets cfg s l = some t ∧ Quiet s l t ∧ Draining inBrackets cfg t ∧
      remaining t < remaining s := by
  have hstep : ∀ l t, Step inBrackets cfg s t l →
      Quiet s l t → ∃ l t, next inBrackets cfg s l = some t ∧
      Quiet s l t ∧ Draining inBrackets cfg t ∧ remaining t < remaining s := by
    intro l t hs hquiet
    obtain ⟨ht, hlt⟩ := h.step (next_iff.mpr hs) hquiet
    exact ⟨l, t, next_iff.mpr hs, hquiet, ht, hlt⟩
  rcases h.2 with hphase | hdone
  · refine Or.inr ?_
    by_cases hempty : s.joinSet.isEmpty = true
    · exact hstep _ _ (.complete hphase hempty rfl) (by simp [Quiet])
    · obtain ⟨api, hapi⟩ : ∃ api, s.joinSet.tasks api ≠ .joined := by
        rw [JoinSet.isEmpty_iff] at hempty
        exact not_forall.mp hempty
      cases htask : s.joinSet.tasks api with
      | joined => exact absurd htask hapi
      | aborted => exact absurd htask (h.1.aborted (by simp [hphase]) api)
      | ended result =>
        have hjoin := JoinSet.joinNext_eq_some.mpr ⟨htask, rfl⟩
        exact hstep _ _ (.further api result _ hphase hjoin rfl) (by simp [Quiet])
      | running p =>
        obtain ⟨-, hcancelled⟩ := h.1.draining (Or.inl hphase)
        obtain ⟨l, r, hl, hrun⟩ := exists_apiStep inBrackets cfg.bind (cfg.port api) p
        rw [← hcancelled, ← apis_step] at hrun
        obtain ⟨joinSet, htasks⟩ : ∃ joinSet,
            s.joinSet.runTask (apis inBrackets cfg) api l = some joinSet := by
          cases r with
          | inl q => exact ⟨_, JoinSet.runTask_eq_some.mpr ⟨p, htask, Or.inl ⟨q, hrun, rfl⟩⟩⟩
          | inr result =>
            exact ⟨_, JoinSet.runTask_eq_some.mpr ⟨p, htask, Or.inr ⟨result, hrun, rfl⟩⟩⟩
        refine hstep _ _ (.task api l joinSet (by simp [hphase]) htasks rfl) ?_
        intro other heq
        exact hl (Label.task.inj heq).2
  · exact Or.inl hdone

/-- A shutdown comes to its end: once the parent waits for the remaining tasks, all steps but new
callers take it closer, and from wherever they have led it can still return without an error. -/
theorem shutdown_completes (inBrackets : InBrackets) (cfg : ServerConfig) {s : State}
    (h : Machine.Reach (runServer inBrackets cfg) Machine.Any s) (hphase : s.phase = .draining)
    {ls : List Label} {t : State} (hpath : Machine.Path (runServer inBrackets cfg) Quiet s ls t) :
    remaining t + ls.length ≤ remaining s ∧
      ∃ ms u, Machine.Path (runServer inBrackets cfg) Quiet t ms u ∧
        u.phase = .returned (.ok ()) := by
  have hs : Draining inBrackets cfg s := ⟨inv_of_reach h, Or.inl hphase⟩
  have ht : Draining inBrackets cfg t := hpath.invariant hs fun a l b ha hn hq => (ha.step hn hq).1
  refine ⟨hpath.length_add_le remaining (fun a l b ha hn hq => Draining.step ha hn hq) hs, ?_⟩
  exact Machine.exists_path_to remaining (fun a (ha : Draining inBrackets cfg a) => ha.progress) ht

/-- A caller is there when the signal comes; three APIs have not bound their ports yet. -/
def demoShutdown : List Label :=
  [.task .signaling .parse, .task .signaling (.bind (.ok ())), .task .signaling .accept,
    .waitForShutdown]

theorem open_connection_drained :
    ∃ ms u, Machine.Path (runServer (fun _ => none) (demoConfig anyAddress)) Quiet
    (demoFinal anyAddress demoShutdown) ms u ∧ u.phase = .returned (.ok ()) :=
  (shutdown_completes _ _ (reach_demoFinal anyAddress demoShutdown (by rfl)) (by rfl) (.nil _)).2

/-! ## Addresses -/

/-- With an IPv4 address every API listens there, at its own port. With an IPv6 address none ever
does, as the port is written behind the address without brackets: the first API to end has a network
error, if it does not panic. -/
theorem apis_listen (inBrackets : InBrackets) (cfg : ServerConfig) {s : State}
    (h : Machine.Reach (runServer inBrackets cfg) Machine.Any s) :
    (∀ ip, cfg.bind = .v4 ip → (∀ api addr callers closing,
      s.joinSet.tasks api = .running (.serving addr callers closing) →
        addr = .v4 ip (cfg.port api).toNat) ∧
      ∀ m, s.phase ≠ .returned (.error (.network m))) ∧
    ∀ ip, cfg.bind = .v6 ip → (∀ api addr callers closing,
      s.joinSet.tasks api ≠ .running (.serving addr callers closing)) ∧
      ∀ e, s.phase = .returned (.error e) → (∃ m, e = .network m) ∨ ∃ m, e = .taskPanic m := by
  have hinv := inv_of_reach h
  constructor
  · intro ip hip
    have hparse : ∀ api, parseSocketAddr inBrackets (addrText cfg.bind (cfg.port api)) =
        .ok (.v4 ip (cfg.port api).toNat) := by
      intro api
      rw [hip]
      exact parseSocketAddr_v4 inBrackets ip (cfg.port api).toNat_lt
    refine ⟨fun api addr callers closing htask => ?_, fun m hphase => ?_⟩
    · have hserving := (hinv.holds.running api _ htask).1
      rw [hparse api] at hserving
      exact (Except.ok.inj hserving).symm
    · obtain ⟨-, -, -, api, result, -, herror, hended⟩ := hinv.failed _ hphase
      cases result with
      | ok => simp [handleTaskResult] at herror
      | panicked e => simp [handleTaskResult] at herror
      | failed e =>
        obtain rfl : e = .network m := by simpa [handleTaskResult] using herror
        have hnone : parseSocketAddr inBrackets (addrText cfg.bind (cfg.port api)) =
            .error m := hended
        rw [hparse api] at hnone
        exact absurd hnone (by simp)
  · intro ip hip
    have hparse : ∀ api addr,
        parseSocketAddr inBrackets (addrText cfg.bind (cfg.port api)) ≠ .ok addr := by
      intro api addr
      have hcolon : ColonFirst (addrText cfg.bind (cfg.port api)) := by
        rw [hip]
        exact ip.colonFirst.append _
      rw [hcolon.unread]
      simp
    refine ⟨fun api addr callers closing htask =>
      hparse api addr (hinv.holds.running api _ htask).1, fun e hphase => ?_⟩
    obtain ⟨-, -, -, api, result, -, herror, hended⟩ := hinv.failed e hphase
    cases result with
    | ok => simp [handleTaskResult] at herror
    | panicked m => exact Or.inr ⟨m, (by simpa [handleTaskResult] using herror.symm)⟩
    | failed e' =>
      obtain rfl : e' = e := by simpa [handleTaskResult] using herror
      cases e' with
      | network m => exact Or.inl ⟨m, rfl⟩
      | taskPanic m => exact absurd hended id
      | io m =>
        obtain ⟨addr, haddr⟩ := hended
        exact absurd haddr (hparse api addr)

def localhostV6 : IpAddr := .v6 ⟨[0, 0, 0, 0, 0, 0, 0, 1], rfl, by decide⟩

def demoUnparsed : List Label := [.task .siglet .parse, .joinNext .siglet]

theorem localhost_v6_not_served :
    (demoFinal localhostV6 demoUnparsed).phase =
      .returned (.error (.network "invalid socket address syntax")) ∧ ∀ api addr callers closing,
        (demoFinal localhostV6 demoUnparsed).joinSet.tasks api ≠
          .running (.serving addr callers closing) :=
  ⟨by rfl, ((apis_listen _ _ (reach_demoFinal localhostV6 demoUnparsed (by rfl))).2 _ rfl).1⟩

end Steps
end Facet.Server
