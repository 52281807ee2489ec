import Mathlib

/-!
# Rows that transactions lock

A transaction that writes a row locks it until it ends; meanwhile the others read the committed
version. So what a transaction makes of a row when it commits is what it made of the version that
was committed when it locked the row, and that version is the committed one still.
-/
namespace Facet.RowLocks

structure Rows (κ α : Type*) where
  committed : κ → Option α
  /-- The transaction that has locked a row, with the version it is going to commit. -/
  locked : κ → Option (ℕ × Option α)

namespace Rows
variable {κ α : Type*}

def empty : Rows κ α := ⟨fun _ => none, fun _ => none⟩

/-- What a transaction reads: its own version, else the committed one. -/
def version (rows : Rows κ α) (t : ℕ) (k : κ) : Option α :=
  match rows.locked k with
  | some (u, v) => if u = t then v else rows.committed k
  | none => rows.committed k

/-- No other transaction has locked the row. -/
def free (rows : Rows κ α) (t : ℕ) (k : κ) : Bool :=
  match rows.locked k with
  | some (u, _) => u = t
  | none => true

def write [DecidableEq κ] (rows : Rows κ α) (t : ℕ) (k : κ) (v : Option α) : Rows κ α where
  committed := rows.committed
  locked := Function.update rows.locked k (some (t, v))

/-- The locks without those of a transaction. -/
def unlock (rows : Rows κ α) (t : ℕ) (k : κ) : Option (ℕ × Option α) :=
  (rows.locked k).filter fun entry => entry.1 ≠ t

def commit (rows : Rows κ α) (t : ℕ) : Rows κ α := ⟨rows.version t, rows.unlock t⟩

def rollback (rows : Rows κ α) (t : ℕ) : Rows κ α := ⟨rows.committed, rows.unlock t⟩

def Locks (rows : Rows κ α) (t : ℕ) (k : κ) : Prop := ∃ v, rows.locked k = some (t, v)

/-- What a transaction is going to make of the rows it has locked. -/
def Based (rows : Rows κ α) (t : ℕ) (P : κ → Option α → Option α → Prop) : Prop :=
  ∀ k v, rows.locked k = some (t, v) → P k (rows.committed k) v

variable {rows : Rows κ α} {t u : ℕ} {k j : κ} {v w : Option α} {P : κ → Option α → Option α → Prop}

theorem version_of_locked (h : rows.locked k = some (t, v)) : rows.version t k = v := by
    simp [version, h]

theorem version_of_not_locks (h : ¬ rows.Locks t k) : rows.version t k = rows.committed k := by
  unfold version
  split
  · rename_i u v hlocked
    refine if_neg fun hu => h ⟨v, ?_⟩
    rw [hlocked, hu]
  · rfl

theorem free_iff : rows.free t k = true ↔ ∀ u, rows.Locks u k → u = t := by
  unfold free Locks
  cases hlocked : rows.locked k with
  | none => simp
  | some entry =>
    constructor
    · intro hfree u hu
      obtain ⟨v, hv⟩ := hu
      obtain rfl := Option.some.inj hv
      simpa using hfree
    · intro hall
      simpa using hall entry.1 ⟨entry.2, rfl⟩

theorem Locks.unique (h : rows.Locks t k) (h' : rows.Locks u k) : t = u := by
  obtain ⟨v, hv⟩ := h
  obtain ⟨w, hw⟩ := h'
  exact (Prod.mk.inj (Option.some.inj (hv.symm.trans hw))).1

theorem unlock_eq_some {entry : ℕ × Option α} :
    rows.unlock t k = some entry ↔ rows.locked k = some entry ∧ entry.1 ≠ t := by
  simp [unlock, Option.filter_eq_some_iff]

/-! ## Locks after a step -/

theorem locks_commit : (rows.commit t).Locks u k ↔ rows.Locks u k ∧ u ≠ t := by
  simp [Locks, commit, unlock_eq_some]

theorem locks_rollback : (rows.rollback t).Locks u k ↔ rows.Locks u k ∧ u ≠ t := by
  simp [Locks, rollback, unlock_eq_some]

section Write
variable [DecidableEq κ]

theorem locks_write (hfree : rows.free t k = true) : (rows.write t k v).Locks u j ↔ rows.Locks u j ∨
    j = k ∧ u = t := by
  unfold Locks write
  by_cases hj : j = k
  · subst hj
    simp only [Function.update_self, Option.some.injEq, Prod.mk.injEq, true_and]
    constructor
    · intro hu
      obtain ⟨w, rfl, -⟩ := hu
      exact Or.inr rfl
    · intro hu
      rcases hu with hlocks | rfl
      · exact ⟨v, (free_iff.mp hfree u hlocks).symm, rfl⟩
      · exact ⟨v, rfl, rfl⟩
  · simp [hj]

end Write

/-! ## What a transaction is going to commit -/

theorem Based.of_not_locks (h : ∀ k, ¬ rows.Locks t k) : rows.Based t P :=
  fun k v hk => absurd ⟨v, hk⟩ (h k)

theorem Based.version (h : rows.Based t P) (hk : rows.Locks t k) :
    P k (rows.committed k) (rows.version t k) := by
  obtain ⟨v, hv⟩ := hk
  rw [version_of_locked hv]
  exact h k v hv

theorem Based.write_self [DecidableEq κ]
    (h : ∀ j w, j ≠ k → rows.locked j = some (t, w) → P j (rows.committed j) w)
    (hv : P k (rows.committed k) v) : (rows.write t k v).Based t P := by
  intro j w hj
  by_cases hjk : j = k
  · subst hjk
    obtain rfl : v = w := by simpa [write] using hj
    exact hv
  · exact h j w hjk (by simpa [write, hjk] using hj)

theorem Based.write_other [DecidableEq κ] (h : rows.Based u P) (hne : u ≠ t) :
    (rows.write t k v).Based u P := by
  intro j w hj
  by_cases hjk : j = k
  · subst hjk
    have hsame : t = u ∧ v = w := by simpa [write] using hj
    exact absurd hsame.1.symm hne
  · exact h j w (by simpa [write, hjk] using hj)

/-- The committed version of a locked row stays when another transaction ends. -/
theorem Based.commit_other (h : rows.Based u P) (hne : u ≠ t) : (rows.commit t).Based u P := by
  intro j w hj
  have hlocked := (unlock_eq_some.mp hj).1
  have hother : ¬ rows.Locks t j := fun hlocks => hne (Locks.unique ⟨w, hlocked⟩ hlocks)
  have hsame : (rows.commit t).committed j = rows.committed j := version_of_not_locks hother
  rw [hsame]
  exact h j w hlocked

theorem Based.rollback_other (h : rows.Based u P) : (rows.rollback t).Based u P :=
  fun j w hj => h j w (unlock_eq_some.mp hj).1

end Rows
end Facet.RowLocks
