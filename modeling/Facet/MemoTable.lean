import Facet.HashMap
import Facet.Machine

/-!
# A memo table shared by interleaved calls

Any number of calls ask for values of one fallible function and share a table of the values
found so far. To ask is to read the table, to compute on a miss, and to write where the table
has room; other calls step in between. Either access may find the table unavailable.
-/
namespace Facet

/-- A call asks for values and goes on with the answers. -/
inductive Script (κ ε α ρ : Type)
  | done (result : ρ)
  | ask (key : κ) (resume : Except ε α → Script κ ε α ρ)

/-- The result when every value is computed where it is asked for. -/
def Script.eval {κ ε α ρ : Type} (compute : κ → Except ε α) : Script κ ε α ρ → ρ
  | done result => result
  | ask key resume => (resume (compute key)).eval compute

theorem HashMap.length_insert_le {κ α : Type*} [DecidableEq κ] (m : HashMap κ α) (k : κ) (v : α) :
    (m.insert k v).entries.length ≤ m.entries.length + 1 := by
  have hremove : (m.remove k).entries.length ≤ m.entries.length := List.length_filter_le ..
  simpa [HashMap.insert] using hremove

namespace MemoTable

/-- Where a call stands with the value that it asks for. -/
inductive Phase (κ ε α ρ : Type)
  | reading (key : κ) (resume : Except ε α → Script κ ε α ρ)
  | computing (key : κ) (resume : Except ε α → Script κ ε α ρ)
  | storing (key : κ) (value : α) (resume : Except ε α → Script κ ε α ρ)

structure Call (ι κ ε α ρ : Type) where
  request : ι
  phase : Phase κ ε α ρ

structure Returned (ι ρ : Type) where
  call : ℕ
  request : ι
  result : ρ

/-- The newest result comes first. -/
structure State (ι κ ε α ρ : Type) where
  table : HashMap κ α
  calls : HashMap ℕ (Call ι κ ε α ρ)
  results : List (Returned ι ρ)

inductive Label (ι : Type)
  | start (call : ℕ) (request : ι)
  | read (call : ℕ) (available : Bool)
  | compute (call : ℕ)
  | store (call : ℕ) (available : Bool)

def Label.call {ι : Type} : Label ι → ℕ
  | start call _ => call
  | read call _ => call
  | compute call => call
  | store call _ => call

section Steps
variable {ι κ ε α ρ : Type}

def State.move (s : State ι κ ε α ρ) (call : ℕ) (request : ι) (phase : Phase κ ε α ρ) :
    State ι κ ε α ρ :=
  { s with calls := s.calls.insert call ⟨request, phase⟩ }

theorem State.get_move (s : State ι κ ε α ρ) (call : ℕ) (request : ι) (phase : Phase κ ε α ρ) :
    (s.move call request phase).calls.get call = some ⟨request, phase⟩ := by
  simp [move]

/-- The call goes on up to the next value that it asks for, or returns. -/
def State.proceed (s : State ι κ ε α ρ) (call : ℕ) (request : ι) : Script κ ε α ρ → State ι κ ε α ρ
  | .done result =>
    { s with calls := s.calls.remove call, results := ⟨call, request, result⟩ :: s.results }
  | .ask key resume => s.move call request (.reading key resume)

variable [DecidableEq κ]

/-- A write takes effect while fewer than `capacity` values are kept. -/
def write (capacity : ℕ) (table : HashMap κ α) (key : κ) (value : α) : HashMap κ α :=
  if table.entries.length < capacity then table.insert key value else table

variable (capacity : ℕ) (compute : κ → Except ε α) (script : ι → Script κ ε α ρ)

/-- A call that nobody interrupts: its result and the table that it leaves. -/
def run : Script κ ε α ρ → HashMap κ α → ρ × HashMap κ α
  | .done result, table => (result, table)
  | .ask key resume, table =>
    match table.get key with
    | some value => run (resume (.ok value)) table
    | none =>
      match compute key with
      | .error e => run (resume (.error e)) table
      | .ok value => run (resume (.ok value)) (write capacity table key value)

def next (s : State ι κ ε α ρ) : Label ι → Option (State ι κ ε α ρ)
  | .start call request =>
    match s.calls.get call with
    | some _ => none
    | none => some (s.proceed call request (script request))
  | .read call available =>
    match s.calls.get call with
    | some ⟨request, .reading key resume⟩ =>
      match s.table.get key, available with
      | some value, true => some (s.proceed call request (resume (.ok value)))
      | _, _ => some (s.move call request (.computing key resume))
    | _ => none
  | .compute call =>
    match s.calls.get call with
    | some ⟨request, .computing key resume⟩ =>
      match compute key with
      | .error e => some (s.proceed call request (resume (.error e)))
      | .ok value => some (s.move call request (.storing key value resume))
    | _ => none
  | .store call available =>
    match s.calls.get call with
    | some ⟨request, .storing key value resume⟩ =>
      let table := if available then write capacity s.table key value else s.table
      some ({ s with table := table }.proceed call request (resume (.ok value)))
    | _ => none

def machine : Machine (State ι κ ε α ρ) (Label ι) where
  init s := s.table = HashMap.empty ∧ s.calls = HashMap.empty ∧ s.results = []
  next := next capacity compute script

/-! ## What a step does -/

variable {capacity compute script}

theorem next_read {s t : State ι κ ε α ρ} {call : ℕ} {available : Bool}
    (hnext : next capacity compute script s (.read call available) = some t) :
    ∃ request key resume, s.calls.get call = some ⟨request, .reading key resume⟩ ∧
      ((∃ value, s.table.get key = some value ∧ t = s.proceed call request (resume (.ok value))) ∨
        t = s.move call request (.computing key resume)) := by
  unfold next at hnext
  dsimp only at hnext
  split at hnext
  · rename_i request key resume hcall
    refine ⟨request, key, resume, hcall, ?_⟩
    split at hnext
    · rename_i value hvalue
      exact Or.inl ⟨value, hvalue, (Option.some.inj hnext).symm⟩
    · exact Or.inr (Option.some.inj hnext).symm
  · exact absurd hnext (by simp)

theorem next_compute {s t : State ι κ ε α ρ} {call : ℕ}
    (hnext : next capacity compute script s (.compute call) = some t) :
    ∃ request key resume, s.calls.get call = some ⟨request, .computing key resume⟩ ∧
      ((∃ e, compute key = .error e ∧ t = s.proceed call request (resume (.error e))) ∨
        ∃ value, compute key = .ok value ∧
          t = s.move call request (.storing key value resume)) := by
  unfold next at hnext
  dsimp only at hnext
  split at hnext
  · rename_i request key resume hcall
    refine ⟨request, key, resume, hcall, ?_⟩
    split at hnext
    · rename_i e hvalue
      exact Or.inl ⟨e, hvalue, (Option.some.inj hnext).symm⟩
    · rename_i value hvalue
      exact Or.inr ⟨value, hvalue, (Option.some.inj hnext).symm⟩
  · exact absurd hnext (by simp)

theorem next_store {s t : State ι κ ε α ρ} {call : ℕ} {available : Bool}
    (hnext : next capacity compute script s (.store call available) = some t) :
    ∃ request key value resume, s.calls.get call = some ⟨request, .storing key value resume⟩ ∧
      (t = { s with table := write capacity s.table key value }.proceed call request
        (resume (.ok value)) ∨ t = s.proceed call request (resume (.ok value))) := by
  unfold next at hnext
  dsimp only at hnext
  split at hnext
  · rename_i request key value resume hcall
    refine ⟨request, key, value, resume, hcall, ?_⟩
    obtain rfl := Option.some.inj hnext
    cases available with
    | true => exact Or.inl rfl
    | false => exact Or.inr rfl
  · exact absurd hnext (by simp)

/-! ## The table does not show -/

/-- What is left of the call comes to `result`. -/
def Phase.ComesTo (compute : κ → Except ε α) (result : ρ) : Phase κ ε α ρ → Prop
  | .reading key resume => (resume (compute key)).eval compute = result
  | .computing key resume => (resume (compute key)).eval compute = result
  | .storing key value resume =>
    compute key = .ok value ∧ (resume (.ok value)).eval compute = result

/-- Every stored value is that of its key, the table keeps to its capacity, and every call comes to
the result of its request. -/
structure Coherent (capacity : ℕ) (compute : κ → Except ε α) (script : ι → Script κ ε α ρ)
    (s : State ι κ ε α ρ) : Prop where
  table : ∀ key value, s.table.get key = some value → compute key = .ok value
  bounded : s.table.entries.length ≤ capacity
  calls : ∀ call c, s.calls.get call = some c →
    c.phase.ComesTo compute ((script c.request).eval compute)
  returned : ∀ r ∈ s.results, r.result = (script r.request).eval compute

theorem get_write {table : HashMap κ α} {key j : κ} {value v : α}
    (hget : (write capacity table key value).get j = some v) :
    j = key ∧ v = value ∨ table.get j = some v := by
  unfold write at hget
  split_ifs at hget with hroom
  · rcases HashMap.get_insert_eq_some hget with hnew | ⟨-, hold⟩
    · exact Or.inl hnew
    · exact Or.inr hold
  · exact Or.inr hget

/-- The length is read and the value written in one step, so the bound holds whatever else is
pending. -/
theorem length_write_le {table : HashMap κ α} (key : κ) (value : α)
    (hbound : table.entries.length ≤ capacity) :
    (write capacity table key value).entries.length ≤ capacity := by
  unfold write
  split_ifs with hroom
  · have := table.length_insert_le key value
    omega
  · exact hbound

namespace Coherent
variable {s : State ι κ ε α ρ} (hs : Coherent capacity compute script s)
include hs

theorem move {call : ℕ} {request : ι} {phase : Phase κ ε α ρ}
    (hphase : phase.ComesTo compute ((script request).eval compute)) :
    Coherent capacity compute script (s.move call request phase) := by
  refine ⟨hs.table, hs.bounded, ?_, hs.returned⟩
  intro other c hget
  rcases HashMap.get_insert_eq_some hget with ⟨-, rfl⟩ | ⟨-, hold⟩
  · exact hphase
  · exact hs.calls other c hold

theorem proceed {call : ℕ} {request : ι} {rest : Script κ ε α ρ}
    (hrest : rest.eval compute = (script request).eval compute) :
    Coherent capacity compute script (s.proceed call request rest) := by
  cases rest with
  | ask key resume => exact hs.move hrest
  | done result =>
    refine ⟨hs.table, hs.bounded, ?_, ?_⟩
    · intro other c hget
      exact hs.calls other c (HashMap.get_remove_eq_some hget).2
    · intro r hr
      rcases List.mem_cons.mp hr with rfl | hold
      · exact hrest
      · exact hs.returned r hold

theorem write {key : κ} {value : α} (hvalue : compute key = .ok value) :
    Coherent capacity compute script { s with table := write capacity s.table key value } := by
  refine ⟨?_, length_write_le key value hs.bounded, hs.calls, hs.returned⟩
  intro j v hget
  rcases get_write hget with ⟨rfl, rfl⟩ | hold
  · exact hvalue
  · exact hs.table j v hold

theorem next {label : Label ι} {t : State ι κ ε α ρ}
    (hnext : next capacity compute script s label = some t) :
    Coherent capacity compute script t := by
  cases label with
  | start call request =>
    cases hcall : s.calls.get call with
    | some c => simp [MemoTable.next, hcall] at hnext
    | none =>
      simp only [MemoTable.next, hcall, Option.some.injEq] at hnext
      exact hnext ▸ hs.proceed rfl
  | read call available =>
    obtain ⟨request, key, resume, hcall, ⟨value, hvalue, rfl⟩ | rfl⟩ := next_read hnext
    · have hrest : (resume (compute key)).eval compute = _ := hs.calls call _ hcall
      rw [hs.table key value hvalue] at hrest
      exact hs.proceed hrest
    · exact hs.move (hs.calls call _ hcall)
  | compute call =>
    obtain ⟨request, key, resume, hcall, ⟨e, hvalue, rfl⟩ | ⟨value, hvalue, rfl⟩⟩ :=
      next_compute hnext
    · have hrest : (resume (compute key)).eval compute = _ := hs.calls call _ hcall
      rw [hvalue] at hrest
      exact hs.proceed hrest
    · have hrest : (resume (compute key)).eval compute = _ := hs.calls call _ hcall
      rw [hvalue] at hrest
      exact hs.move ⟨hvalue, hrest⟩
  | store call available =>
    obtain ⟨request, key, value, resume, hcall, rfl | rfl⟩ := next_store hnext
    · exact (hs.write (hs.calls call _ hcall).1).proceed (hs.calls call _ hcall).2
    · exact hs.proceed (hs.calls call _ hcall).2

end Coherent

theorem coherent_of_reach {s : State ι κ ε α ρ}
    (hreach : (machine capacity compute script).Reach Machine.Any s) :
    Coherent capacity compute script s := by
  apply hreach.invariant
  · intro s hinit
    obtain ⟨htable, hcalls, hresults⟩ := hinit
    refine ⟨?_, ?_, ?_, ?_⟩
    · simp [htable]
    · simp [htable, HashMap.empty]
    · simp [hcalls]
    · simp [hresults]
  · intro a label b ha hnext _
    exact ha.next hnext

/-! ## Every call returns -/

/-- By steps of its own alone the call gets to add a result to `results`, and leaves a table. -/
def Returns (capacity : ℕ) (compute : κ → Except ε α) (script : ι → Script κ ε α ρ) (call : ℕ)
    (request : ι) (results : List (Returned ι ρ)) (outcome : ρ × HashMap κ α)
    (s : State ι κ ε α ρ) : Prop :=
  ∃ labels t, (machine capacity compute script).Path Machine.Any s labels t ∧
    (∀ label ∈ labels, label.call = call) ∧
    t.results = ⟨call, request, outcome.1⟩ :: results ∧ t.table = outcome.2

section Alone
variable {call : ℕ} {request : ι} {s : State ι κ ε α ρ}

theorem Returns.step {results : List (Returned ι ρ)} {outcome : ρ × HashMap κ α} (label : Label ι)
    (t : State ι κ ε α ρ) (hnext : next capacity compute script s label = some t)
    (hown : label.call = call)
    (hreturns : Returns capacity compute script call request results outcome t) :
    Returns capacity compute script call request results outcome s := by
  obtain ⟨labels, u, hpath, hlabels, houtcome⟩ := hreturns
  refine ⟨label :: labels, u, Machine.Path.cons hnext trivial hpath, ?_, houtcome⟩
  intro other hother
  rcases List.mem_cons.mp hother with rfl | hother
  · exact hown
  · exact hlabels other hother

section Resumed
variable {key : κ} {resume : Except ε α → Script κ ε α ρ}
  (hresume : ∀ answer (t : State ι κ ε α ρ), Returns capacity compute script call request t.results
    (run capacity compute (resume answer) t.table) (t.proceed call request (resume answer)))
include hresume

theorem returns_of_storing {value : α}
    (hcall : s.calls.get call = some ⟨request, .storing key value resume⟩) :
    Returns capacity compute script call request s.results
      (run capacity compute (resume (.ok value)) (write capacity s.table key value)) s := by
  refine Returns.step (.store call true) _ ?_ rfl
    (hresume (.ok value) { s with table := write capacity s.table key value })
  simp [next, hcall]

theorem returns_of_computing_ok {value : α}
    (hcall : s.calls.get call = some ⟨request, .computing key resume⟩)
    (hvalue : compute key = .ok value) :
    Returns capacity compute script call request s.results
      (run capacity compute (resume (.ok value)) (write capacity s.table key value)) s := by
  refine Returns.step (.compute call) (s.move call request (.storing key value resume)) ?_ rfl ?_
  · simp [next, hcall, hvalue]
  · exact returns_of_storing hresume (State.get_move ..)

theorem returns_of_computing_error {e : ε}
    (hcall : s.calls.get call = some ⟨request, .computing key resume⟩)
    (hvalue : compute key = .error e) :
    Returns capacity compute script call request s.results
      (run capacity compute (resume (.error e)) s.table) s := by
  refine Returns.step (.compute call) (s.proceed call request (resume (.error e)))
    ?_ rfl (hresume _ s)
  simp [next, hcall, hvalue]

theorem returns_of_reading (hcall : s.calls.get call = some ⟨request, .reading key resume⟩) :
    Returns capacity compute script call request s.results
      (run capacity compute (.ask key resume) s.table) s := by
  unfold run
  cases hget : s.table.get key with
  | some value =>
    refine Returns.step (.read call true) (s.proceed call request (resume (.ok value)))
      ?_ rfl (hresume _ s)
    simp [next, hcall, hget]
  | none =>
    refine Returns.step (.read call true) (s.move call request (.computing key resume)) ?_ rfl ?_
    · simp [next, hcall, hget]
    · cases hvalue : compute key with
      | error e => exact returns_of_computing_error hresume (State.get_move ..) hvalue
      | ok value => exact returns_of_computing_ok hresume (State.get_move ..) hvalue

end Resumed

theorem returns_of_proceed (rest : Script κ ε α ρ) (s : State ι κ ε α ρ) :
    Returns capacity compute script call request s.results (run capacity compute rest s.table)
      (s.proceed call request rest) := by
  induction rest generalizing s with
  | done result => exact ⟨[], _, Machine.Path.nil _, by simp, rfl, rfl⟩
  | ask key resume ih =>
    exact returns_of_reading ih (State.get_move s call request (.reading key resume))

/-- A call that nobody interrupts from its start on does what `run` does. -/
theorem returns_of_start (hfree : s.calls.get call = none) (request : ι) :
    Returns capacity compute script call request s.results
      (run capacity compute (script request) s.table) s := by
  refine Returns.step (.start call request) (s.proceed call request (script request)) ?_ rfl
    (returns_of_proceed (script request) s)
  simp [next, hfree]

/-- A call in progress returns, whatever the others have done and without waiting for them. -/
theorem returns_of_call {c : Call ι κ ε α ρ} (hcall : s.calls.get call = some c) :
    ∃ outcome, Returns capacity compute script call c.request s.results outcome s := by
  obtain ⟨request, phase⟩ := c
  cases phase with
  | reading key resume =>
    exact ⟨_, returns_of_reading (fun answer => returns_of_proceed (resume answer)) hcall⟩
  | storing key value resume =>
    exact ⟨_, returns_of_storing (fun answer => returns_of_proceed (resume answer)) hcall⟩
  | computing key resume =>
    cases hvalue : compute key with
    | error e =>
      exact ⟨_, returns_of_computing_error (fun answer =>
        returns_of_proceed (resume answer)) hcall hvalue⟩
    | ok value =>
      exact ⟨_, returns_of_computing_ok (fun answer =>
        returns_of_proceed (resume answer)) hcall hvalue⟩

end Alone

end Steps
end MemoTable
end Facet
