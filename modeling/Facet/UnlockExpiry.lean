import Facet.PostgresLock

/-!
# Unlocking and expiry

`lock` and `lock_count` take an expired record for none; `unlock` works on the record as it is
stored. What `unlock` is documented to do therefore holds where the record of the identifier has
not expired. The in-memory manager returns its count as a 32-bit number and has to be kept away
from the multiples of 2^32 as well.
-/
namespace Facet.Lock

/-- The contract of `unlock`, with `lock_count` saying who holds the lock. -/
structure HonoursExpiry (count : LockTable → String → String → ℕ)
    (unlock : LockTable → String → String → Except LockError Unit × LockTable) (table : LockTable)
    (id o : String) : Prop where
  ok : (unlock table id o).1 = .ok () ↔ 0 < count table id o
  held : ∀ p, (unlock table id o).1 = .error (.lockAlreadyHeld id p o) ↔
    p ≠ o ∧ 0 < count table id p
  notFound : (unlock table id o).1 = .error (.lockNotFound id o) ↔ ∀ p, count table id p = 0
  kept : (unlock table id o).1 ≠ .ok () → ∀ j p, count (unlock table id o).2 j p = count table j p
  decreased : (unlock table id o).1 = .ok () →
    count (unlock table id o).2 id o + 1 = count table id o ∧
    ∀ j p, (j, p) ≠ (id, o) → count (unlock table id o).2 j p = count table j p

/-- What the two managers have in common: `shown` is the count as it is returned. -/
structure UnlocksRaw (timeout now : ℤ) (shown : ℕ → ℕ) (count : LockTable → String → String → ℕ)
    (unlock : LockTable → String → String → Except LockError Unit × LockTable) (table : LockTable)
    (id o : String) : Prop where
  count_eq : ∀ table j p, count table j p = shown (heldCount p (liveRecord timeout now table j))
  reply : (unlock table id o).1 = match table.get id with
    | none => .error (.lockNotFound id o)
    | some r => if r.owner = o then .ok () else .error (.lockAlreadyHeld id r.owner o)
  same : (unlock table id o).2.get id = (table.get id).bind (giveBack o)
  other : ∀ j, j ≠ id → (unlock table id o).2.get j = table.get j
  shown_zero : shown 0 = 0
  shown_pred : ∀ n, shown n ≠ 0 → shown (n - 1) + 1 = shown n

section Contract
variable {timeout now : ℤ} {shown : ℕ → ℕ} {count : LockTable → String → String → ℕ}
  {unlock : LockTable → String → String → Except LockError Unit × LockTable} {table : LockTable}
  {id o : String}

theorem heldCount_of_ne {p : String} {r : LockRecord} (h : r.owner ≠ p) :
    heldCount p (alive timeout now (some r)) = 0 := by
  cases halive : alive timeout now (some r) with
  | none => rfl
  | some r' =>
    rw [← Option.some.inj (alive_eq_some.mp halive).1, heldCount, if_neg h]

theorem UnlocksRaw.count_other (h : UnlocksRaw timeout now shown count unlock table id o)
    {j : String} (hj : j ≠ id) (p : String) :
    count (unlock table id o).2 j p = count table j p := by
  rw [h.count_eq, h.count_eq, liveRecord_eq_alive, liveRecord_eq_alive, h.other j hj]

theorem UnlocksRaw.honours_of_none (h : UnlocksRaw timeout now shown count unlock table id o)
    (hg : table.get id = none) : HonoursExpiry count unlock table id o := by
  have hreply : (unlock table id o).1 = .error (.lockNotFound id o) := by rw [h.reply, hg]
  have hcount : ∀ p, count table id p = 0 := by
    intro p
    rw [h.count_eq, liveRecord_eq_alive, hg]
    exact h.shown_zero
  have hafter : ∀ p, count (unlock table id o).2 id p = 0 := by
    intro p
    rw [h.count_eq, liveRecord_eq_alive, h.same, hg]
    exact h.shown_zero
  refine ⟨by simp [hreply, hcount], by simp [hreply, hcount], by simp [hreply,
    hcount], ?_, by simp [hreply]⟩
  intro _ j p
  by_cases hj : j = id
  · rw [hj, hafter, hcount]
  · exact h.count_other hj p

theorem UnlocksRaw.honours_of_other (h : UnlocksRaw timeout now shown count unlock table id o)
    {r : LockRecord} (hg : table.get id = some r) (ho : r.owner ≠ o) :
    HonoursExpiry count unlock table id o ↔ 0 < count table id r.owner := by
  have hreply : (unlock table id o).1 = .error (.lockAlreadyHeld id r.owner o) := by
    simp [h.reply, hg, ho]
  have hcount : ∀ p, p ≠ r.owner → count table id p = 0 := by
    intro p hp
    rw [h.count_eq, liveRecord_eq_alive, hg, heldCount_of_ne hp.symm, h.shown_zero]
  constructor
  · intro hh
    exact ((hh.held r.owner).mp hreply).2
  · intro hpos
    refine ⟨?_, ?_, ?_, ?_, by simp [hreply]⟩
    · simp [hreply, hcount o ho.symm]
    · intro p
      rw [hreply]
      constructor
      · intro heq
        have hp : r.owner = p := by simpa using heq
        exact ⟨hp ▸ ho, hp ▸ hpos⟩
      · intro hp
        have hpr : p = r.owner := not_not.mp fun hne => absurd hp.2 (by simp [hcount p hne])
        rw [hpr]
    · simp only [hreply, Except.error.injEq, reduceCtorEq, false_iff, not_forall]
      exact ⟨r.owner, by omega⟩
    · intro _ j p
      by_cases hj : j = id
      · rw [hj, h.count_eq, h.count_eq, liveRecord_eq_alive, liveRecord_eq_alive, h.same, hg,
          Option.bind_some, giveBack, if_neg ho]
      · exact h.count_other hj p

theorem UnlocksRaw.honours_of_own (h : UnlocksRaw timeout now shown count unlock table id o)
    {r : LockRecord} (hg : table.get id = some r) (ho : r.owner = o) :
    HonoursExpiry count unlock table id o ↔ 0 < count table id o := by
  have hreply : (unlock table id o).1 = .ok () := by
    simp [h.reply, hg, ho]
  constructor
  · intro hh
    exact hh.ok.mp hreply
  · intro hcount
    have hlive : alive timeout now (some r) = some r := by
      cases halive : alive timeout now (some r) with
      | none =>
        rw [h.count_eq, liveRecord_eq_alive, hg, halive] at hcount
        simp [heldCount, h.shown_zero] at hcount
      | some r' => rw [Option.some.inj (alive_eq_some.mp halive).1]
    have hbefore : ∀ p, count table id p = shown (if r.owner = p then r.reentrantCount else 0) := by
      intro p
      rw [h.count_eq, liveRecord_eq_alive, hg, hlive, heldCount]
    have hafter : ∀ p, count (unlock table id o).2 id p =
        shown (if r.owner = p then r.reentrantCount - 1 else 0) := by
      intro p
      rw [h.count_eq, liveRecord_eq_alive, h.same, hg, alive_bind_giveBack, hlive, Option.bind_some,
        giveBack, if_pos ho]
      by_cases h1 : r.reentrantCount = 1
      · simp [h1, heldCount]
      · rw [if_neg h1, heldCount]
    have hzero : ∀ p, p ≠ o → count table id p = 0 := by
      intro p hp
      rw [hbefore, if_neg (fun heq => hp (heq.symm.trans ho)), h.shown_zero]
    refine ⟨by simp [hreply, hcount], ?_, ?_, by simp [hreply], ?_⟩
    · intro p
      rw [hreply]
      simp only [reduceCtorEq, false_iff, not_and]
      intro hp
      simp [hzero p hp]
    · simp only [hreply, reduceCtorEq, false_iff, not_forall]
      exact ⟨o, by omega⟩
    · intro _
      have hshown : shown r.reentrantCount ≠ 0 := by
        rw [hbefore, if_pos ho] at hcount
        omega
      refine ⟨?_, ?_⟩
      · rw [hafter, hbefore, if_pos ho, if_pos ho]
        exact h.shown_pred r.reentrantCount hshown
      · intro j p hjp
        by_cases hj : j = id
        · have hp : p ≠ o := fun heq => hjp (by rw [hj, heq])
          rw [hj, hafter, hzero p hp, if_neg (fun heq => hp (heq.symm.trans ho)), h.shown_zero]
        · exact h.count_other hj p

theorem UnlocksRaw.honours_iff (h : UnlocksRaw timeout now shown count unlock table id o) :
    HonoursExpiry count unlock table id o ↔
      ∀ r, table.get id = some r → now - r.acquiredAt ≤ timeout ∧ shown r.reentrantCount ≠ 0 := by
  cases hg : table.get id with
  | none => exact iff_of_true (h.honours_of_none hg) (by simp)
  | some r =>
    have hheld : 0 < count table id r.owner ↔ now - r.acquiredAt ≤ timeout ∧
        shown r.reentrantCount ≠ 0 := by
      rw [h.count_eq, liveRecord_eq_alive, hg]
      by_cases hlive : now - r.acquiredAt ≤ timeout
      · rw [alive_eq_some.mpr ⟨rfl, hlive⟩, heldCount, if_pos rfl]
        simp [hlive, Nat.pos_iff_ne_zero]
      · have hnone : alive timeout now (some r) = none := by
          cases halive : alive timeout now (some r) with
          | none => rfl
          | some r' =>
            obtain ⟨heq, hle⟩ := alive_eq_some.mp halive
            rw [← Option.some.inj heq] at hle
            exact absurd hle hlive
        simp [hnone, heldCount, h.shown_zero, hlive]
    simp only [Option.some.injEq, forall_eq']
    by_cases ho : r.owner = o
    · rw [h.honours_of_own hg ho, ← ho, hheld]
    · rw [h.honours_of_other hg ho, hheld]

end Contract

/-! ## The two managers -/

section Managers
variable {timeout now : ℤ} {table : LockTable} {id o : String}

theorem memory_unlocksRaw (hpos : Positive table) :
    UnlocksRaw timeout now (· % 2 ^ 32) (lockCount timeout now) unlock table id o where
  count_eq _ _ _ := lockCount_eq
  reply := by
    rcases unlock_cases table id o with ⟨hg, he⟩ | ⟨r, hg, ho, he⟩ | ⟨r, hg, ho, hok, -⟩
    · rw [he, hg]
    · simp [he, hg, ho]
    · simp [hok, hg, ho]
  same := unlock_get_eq (hpos id)
  other _ hj := unlock_get_of_ne hj
  shown_zero := rfl
  shown_pred n hn := by omega

theorem Postgres.unlocksRaw (hpos : Positive table) :
    UnlocksRaw timeout now (fun n => n) (Postgres.lockCount timeout now)
      Postgres.unlock table id o where
  count_eq _ _ _ := Postgres.lockCount_eq
  reply := by
    unfold Postgres.unlock
    cases hg : table.get id with
    | none => rfl
    | some r =>
      have hr : 0 < r.reentrantCount := Nat.pos_of_ne_zero (hpos id r hg)
      by_cases ho : r.owner = o
      · simp only [ho, hr, and_self, if_true]
        split_ifs <;> rfl
      · simp [ho]
  same := Postgres.unlock_get_eq (hpos id)
  other _ hj := Postgres.unlock_get_of_ne hj
  shown_zero := rfl
  shown_pred n hn := by omega

theorem positive_after_memory (timeout start : ℤ) (calls : List (ℤ × LockCall)) :
    Positive ((MemoryLockManager timeout start).after ⟨start, HashMap.empty⟩ calls).table := by
  refine Service.after_invariant (P := fun s : LockState => Positive s.table)
    ?_ positive_empty calls
  intro s call h
  obtain ⟨now, call⟩ := call
  cases call with
  | lock identifier owner => exact h.lock
  | unlock identifier owner => exact h.unlock
  | lockCount identifier owner => exact h
  | releaseLocks owner => exact h.retain _

theorem positive_after_postgres (timeout start : ℤ) (cleanup : ℤ × LockCall → Bool)
    (calls : List (ℤ × LockCall)) :
    Positive
      ((PostgresLockManager timeout start cleanup).after ⟨start, HashMap.empty⟩ calls).table := by
  refine Service.after_invariant (P := fun s : LockState => Positive s.table)
    ?_ positive_empty calls
  intro s call h
  obtain ⟨now, call⟩ := call
  cases call with
  | lock identifier owner => exact h.postgresLock _
  | unlock identifier owner => exact h.postgresUnlock
  | lockCount identifier owner => exact h
  | releaseLocks owner => exact h.retain _

end Managers

/-- In every state reached and at every instant, `unlock` does what it is documented to do exactly
when the record of the identifier has not expired and, in memory, its count does not show as
zero. -/
theorem unlock_honours_expiry_iff (timeout start : ℤ) (cleanup : ℤ × LockCall → Bool)
    (calls : List (ℤ × LockCall)) (now : ℤ) (id o : String) :
    (HonoursExpiry (lockCount timeout now) unlock
        ((MemoryLockManager timeout start).after ⟨start, HashMap.empty⟩ calls).table id o ↔
      ∀ r, ((MemoryLockManager timeout start).after ⟨start, HashMap.empty⟩ calls).table.get id =
        some r → now - r.acquiredAt ≤ timeout ∧ r.reentrantCount % 2 ^ 32 ≠ 0) ∧
    (HonoursExpiry (Postgres.lockCount timeout now) Postgres.unlock
        ((PostgresLockManager timeout start cleanup).after
          ⟨start, HashMap.empty⟩ calls).table id o ↔
      ∀ r, ((PostgresLockManager timeout start cleanup).after ⟨start, HashMap.empty⟩
        calls).table.get id = some r → now - r.acquiredAt ≤ timeout) := by
  have hmemory := positive_after_memory timeout start calls
  have hpostgres := positive_after_postgres timeout start cleanup calls
  refine ⟨(memory_unlocksRaw hmemory).honours_iff, ?_⟩
  rw [(Postgres.unlocksRaw hpostgres).honours_iff]
  constructor
  · intro h r hr
    exact (h r hr).1
  · intro h r hr
    exact ⟨h r hr, hpostgres id r hr⟩

/-- The owner of an expired lock gives it back and is told that it held it. -/
theorem unlock_of_expired_lock_succeeds :
    (¬ ∀ (timeout start : ℤ) (calls : List (ℤ × LockCall)) (now : ℤ) (id o : String),
      HonoursExpiry (lockCount timeout now) unlock
        ((MemoryLockManager timeout start).after ⟨start, HashMap.empty⟩ calls).table id o) ∧
    ¬ ∀ (timeout start : ℤ) (cleanup : ℤ × LockCall → Bool) (calls : List (ℤ × LockCall))
      (now : ℤ) (id o : String), HonoursExpiry (Postgres.lockCount timeout now) Postgres.unlock
        ((PostgresLockManager timeout start cleanup).after ⟨start, HashMap.empty⟩ calls).table
        id o := by
  constructor
  · intro h
    have hok := (h 20 0 [(0, .lock "flow" "a")] 21 "flow" "a").ok.mp rfl
    exact absurd hok (by decide)
  · intro h
    have hok := (h 20 0 (fun _ => true) [(0, .lock "flow" "a")] 21 "flow" "a").ok.mp rfl
    exact absurd hok (by decide)

end Facet.Lock
