import Mathlib

/-!
# Sets of tasks

Tasks that run beside their parent and share a cancellation token with it. A task runs a program
whose steps see whether the token is cancelled; the parent takes the results of ended tasks out of
the set, one at a time and in any order. What all tasks keep is proved from their programs, and a
rank of the programs bounds what is left to do.
-/
namespace Facet

/-- How a task ended; a panic is a join error to the parent. -/
inductive TaskEnd (ε : Type)
  | ok
  | failed (e : ε)
  | panicked (message : String)

inductive TaskState (π ε : Type)
  | running (p : π)
  | ended (result : TaskEnd ε)
  | joined
  | aborted

/-- The programs of the tasks `κ`; a step goes on with the program or ends the task. -/
structure TaskProgram (κ π ι ε : Type) where
  start : κ → π
  step : κ → Bool → π → ι → Option (π ⊕ TaskEnd ε)

structure JoinSet (κ π ε : Type) where
  tasks : κ → TaskState π ε
  cancelled : Bool

def TaskState.isJoined {π ε : Type} : TaskState π ε → Bool
  | .joined => true
  | _ => false

namespace JoinSet
variable {κ π ι ε : Type} {P : TaskProgram κ π ι ε} {S T : JoinSet κ π ε} {i : κ}

def spawned (P : TaskProgram κ π ι ε) : JoinSet κ π ε := ⟨fun i => .running (P.start i), false⟩

def cancel (S : JoinSet κ π ε) : JoinSet κ π ε := { S with cancelled := true }

def abortAll (S : JoinSet κ π ε) : JoinSet κ π ε where
  tasks i :=
    match S.tasks i with
    | .running _ => .aborted
    | task => task
  cancelled := S.cancelled

/-- Every task was taken out. -/
def isEmpty [Fintype κ] (S : JoinSet κ π ε) : Bool := decide (∀ i, (S.tasks i).isJoined = true)

theorem isEmpty_iff [Fintype κ] : S.isEmpty = true ↔ ∀ i, S.tasks i = .joined := by
  rw [isEmpty, decide_eq_true_iff]
  refine forall_congr' fun i => ?_
  cases S.tasks i <;> simp [TaskState.isJoined]

theorem abortAll_running (S : JoinSet κ π ε) (i : κ) (p : π) : S.abortAll.tasks i ≠ .running p := by
  unfold abortAll
  cases htask : S.tasks i <;> simp [htask]

theorem abortAll_ended {result : TaskEnd ε} : S.abortAll.tasks i = .ended result ↔
    S.tasks i = .ended result := by
  unfold abortAll
  cases htask : S.tasks i <;> simp [htask]

/-! ## Tasks one at a time -/

section Tasks
variable [DecidableEq κ]

def put (S : JoinSet κ π ε) (i : κ) (task : TaskState π ε) : JoinSet κ π ε :=
  { S with tasks := Function.update S.tasks i task }

def runTask (P : TaskProgram κ π ι ε) (S : JoinSet κ π ε) (i : κ) (l : ι) :
    Option (JoinSet κ π ε) :=
  match S.tasks i with
  | .running p =>
    match P.step i S.cancelled p l with
    | some (.inl q) => some (S.put i (.running q))
    | some (.inr result) => some (S.put i (.ended result))
    | none => none
  | _ => none

def joinNext (S : JoinSet κ π ε) (i : κ) : Option (TaskEnd ε × JoinSet κ π ε) :=
  match S.tasks i with
  | .ended result => some (result, S.put i .joined)
  | _ => none

@[simp] theorem put_cancelled (S : JoinSet κ π ε) (i : κ) (task : TaskState π ε) :
    (S.put i task).cancelled = S.cancelled := rfl

@[simp] theorem put_self (S : JoinSet κ π ε) (i : κ) (task : TaskState π ε) :
    (S.put i task).tasks i = task := by
  simp [put]

theorem put_of_ne (S : JoinSet κ π ε) {i j : κ} (h : j ≠ i) (task : TaskState π ε) :
    (S.put i task).tasks j = S.tasks j := by
  simp [put, h]

theorem runTask_eq_some {l : ι} : S.runTask P i l = some T ↔ ∃ p, S.tasks i = .running p ∧
    ((∃ q, P.step i S.cancelled p l = some (.inl q) ∧ T = S.put i (.running q)) ∨
      ∃ result, P.step i S.cancelled p l = some (.inr result) ∧ T = S.put i (.ended result)) := by
  unfold runTask
  cases htask : S.tasks i with
  | running p =>
    cases hstep : P.step i S.cancelled p l with
    | none => simp [hstep]
    | some next =>
      cases next with
      | inl q => simp [hstep, eq_comm]
      | inr result => simp [hstep, eq_comm]
  | ended result => simp
  | joined => simp
  | aborted => simp

theorem joinNext_eq_some {result : TaskEnd ε} : S.joinNext i = some (result, T) ↔
    S.tasks i = .ended result ∧ T = S.put i .joined := by
  unfold joinNext
  cases htask : S.tasks i with
  | ended result' =>
    simp only [Option.some.injEq, Prod.mk.injEq, TaskState.ended.injEq]
    exact and_congr_right fun _ => eq_comm
  | running p => simp
  | joined => simp
  | aborted => simp

end Tasks

/-! ## What the programs keep -/

/-- `I` holds while a program runs and `R` of what it ends with; cancelling the token harms
neither. -/
structure Keeps (P : TaskProgram κ π ι ε) (I : κ → Bool → π → Prop)
    (R : κ → Bool → TaskEnd ε → Prop) : Prop where
  start : ∀ i, I i false (P.start i)
  step : ∀ i c p l q, I i c p → P.step i c p l = some (.inl q) → I i c q
  stop : ∀ i c p l result, I i c p → P.step i c p l = some (.inr result) → R i c result
  cancel : ∀ i p, I i false p → I i true p
  cancel_end : ∀ i result, R i false result → R i true result

structure Holds (I : κ → Bool → π → Prop) (R : κ → Bool → TaskEnd ε → Prop)
    (S : JoinSet κ π ε) : Prop where
  running : ∀ i p, S.tasks i = .running p → I i S.cancelled p
  ended : ∀ i result, S.tasks i = .ended result → R i S.cancelled result

section Rules
variable {I : κ → Bool → π → Prop} {R : κ → Bool → TaskEnd ε → Prop}

theorem Keeps.spawned (hP : Keeps P I R) : Holds I R (spawned P) where
  running i p h := by
    obtain rfl : P.start i = p := TaskState.running.inj h
    exact hP.start i
  ended i result h := by simp [JoinSet.spawned] at h

theorem Holds.cancel (h : Holds I R S) (hP : Keeps P I R) : Holds I R S.cancel where
  running i p htask := by
    change I i true p
    have hold := h.running i p htask
    cases hc : S.cancelled with
    | true => rwa [hc] at hold
    | false =>
      rw [hc] at hold
      exact hP.cancel i p hold
  ended i result htask := by
    change R i true result
    have hold := h.ended i result htask
    cases hc : S.cancelled with
    | true => rwa [hc] at hold
    | false =>
      rw [hc] at hold
      exact hP.cancel_end i result hold

theorem Holds.abortAll (h : Holds I R S) : Holds I R S.abortAll where
  running i p htask := absurd htask (S.abortAll_running i p)
  ended i result htask := h.ended i result (abortAll_ended.mp htask)

variable [DecidableEq κ]

theorem Holds.put (h : Holds I R S) {task : TaskState π ε}
    (hrunning : ∀ p, task = .running p → I i S.cancelled p)
    (hended : ∀ result, task = .ended result → R i S.cancelled result) :
    Holds I R (S.put i task) where
  running j p hj := by
    by_cases hij : j = i
    · subst hij
      rw [put_self] at hj
      exact hrunning p hj
    · rw [put_of_ne S hij] at hj
      exact h.running j p hj
  ended j result hj := by
    by_cases hij : j = i
    · subst hij
      rw [put_self] at hj
      exact hended result hj
    · rw [put_of_ne S hij] at hj
      exact h.ended j result hj

theorem Holds.runTask (h : Holds I R S) (hP : Keeps P I R) {l : ι}
    (hrun : S.runTask P i l = some T) : Holds I R T := by
  obtain ⟨p, htask, ⟨q, hstep, rfl⟩ | ⟨result, hstep, rfl⟩⟩ := runTask_eq_some.mp hrun
  · refine h.put ?_ (by simp)
    rintro _ ⟨⟩
    exact hP.step i S.cancelled p l q (h.running i p htask) hstep
  · refine h.put (by simp) ?_
    rintro _ ⟨⟩
    exact hP.stop i S.cancelled p l result (h.running i p htask) hstep

theorem Holds.joinNext (h : Holds I R S) {result : TaskEnd ε}
    (hjoin : S.joinNext i = some (result, T)) : R i S.cancelled result ∧ Holds I R T := by
  obtain ⟨htask, rfl⟩ := joinNext_eq_some.mp hjoin
  exact ⟨h.ended i result htask, h.put (by simp) (by simp)⟩

end Rules

/-! ## What is left to do -/

section Rank
variable [DecidableEq κ] [Fintype κ] (rank : π → ℕ)

def weight : TaskState π ε → ℕ
  | .running p => rank p + 2
  | .ended _ => 1
  | .joined => 0
  | .aborted => 0

def remaining (S : JoinSet κ π ε) : ℕ := ∑ i, weight rank (S.tasks i)

theorem remaining_put {task : TaskState π ε} (h : weight rank task < weight rank (S.tasks i)) :
    (S.put i task).remaining rank < S.remaining rank := by
  refine Finset.sum_lt_sum ?_ ⟨i, Finset.mem_univ i, ?_⟩
  · intro j _
    by_cases hij : j = i
    · subst hij
      rw [put_self]
      exact h.le
    · rw [put_of_ne S hij]
  · rw [put_self]
    exact h

/-- A step that brings its program closer to its end brings the set closer. -/
theorem remaining_runTask {l : ι} (hrun : S.runTask P i l = some T)
    (hdown : ∀ p q, S.tasks i = .running p → P.step i S.cancelled p l = some (.inl q) →
      rank q < rank p) :
    T.remaining rank < S.remaining rank := by
  obtain ⟨p, htask, ⟨q, hstep, rfl⟩ | ⟨result, hstep, rfl⟩⟩ := runTask_eq_some.mp hrun
  · refine remaining_put rank ?_
    rw [htask]
    have := hdown p q htask hstep
    simp only [weight]
    omega
  · refine remaining_put rank ?_
    rw [htask]
    simp only [weight]
    omega

theorem remaining_joinNext {result : TaskEnd ε} (hjoin : S.joinNext i = some (result, T)) :
    T.remaining rank < S.remaining rank := by
  obtain ⟨htask, rfl⟩ := joinNext_eq_some.mp hjoin
  refine remaining_put rank ?_
  rw [htask]
  exact Nat.zero_lt_one

end Rank
end JoinSet
end Facet
