import Facet.HashMap

/-!
# The in-memory lock manager

`lock`, `unlock`, `lock_count` and `release_locks` of `MemoryLockManager`. The
mutex makes each of them one atomic step on the table. Instants and durations
are integers in the clock's unit; one call reads the clock once.
-/
namespace Facet.Lock

structure LockRecord where
  owner : String
  acquiredAt : ℤ
  reentrantCount : ℕ
  deriving DecidableEq, Repr

inductive LockError
  | lockAlreadyHeld (identifier owner attemptedOwner : String)
  | lockNotFound (identifier owner : String)
  | storeError (message : String)
  | internalError (message : String)
  deriving DecidableEq, Repr

def LockError.isRetriable : LockError → Bool
  | .lockAlreadyHeld .. | .storeError _ => true
  | .lockNotFound .. | .internalError _ => false

def LockError.message : LockError → String
  | .lockAlreadyHeld identifier owner attemptedOwner =>
    "Lock conflict for '" ++ identifier ++ "': owned by '" ++ owner ++
      "', but operation requested by '" ++
      attemptedOwner ++ "'"
  | .lockNotFound identifier owner =>
    "No lock found for identifier '" ++ identifier ++ "' owned by '" ++ owner ++ "'"
  | .storeError message => "Store error: " ++ message
  | .internalError message => "Internal lock error: " ++ message

/-- What a guard carries: it names the identifier and the owner, not the acquisition. -/
structure LockGuard where
  identifier : String
  owner : String
  deriving DecidableEq, Repr

abbrev LockTable := HashMap String LockRecord

def isExpired (timeout now : ℤ) (lock : LockRecord) : Bool :=
  decide (now - lock.acquiredAt > timeout)

def cleanupExpiredLock (timeout now : ℤ) (locks : LockTable) (identifier : String) : LockTable :=
  match locks.get identifier with
  | some lock => if isExpired timeout now lock then locks.remove identifier else locks
  | none => locks

def lock (timeout now : ℤ) (table : LockTable) (identifier owner : String) :
    Except LockError LockGuard × LockTable :=
  let locks := cleanupExpiredLock timeout now table identifier
  match locks.get identifier with
  | some existing =>
    if existing.owner = owner then
      (.ok ⟨identifier, owner⟩, locks.insert identifier
        { existing with reentrantCount := existing.reentrantCount + 1, acquiredAt := now })
    else (.error (.lockAlreadyHeld identifier existing.owner owner), locks)
  | none => (.ok ⟨identifier, owner⟩, locks.insert identifier ⟨owner, now, 1⟩)

/-- `reentrant_count -= 1` on a 64-bit `usize`: an unchecked decrement wraps at zero. -/
def decrement (n : ℕ) : ℕ := if n = 0 then 2 ^ 64 - 1 else n - 1

def unlock (locks : LockTable) (identifier owner : String) : Except LockError Unit × LockTable :=
  match locks.get identifier with
  | some lock =>
    if lock.owner ≠ owner then (.error (.lockAlreadyHeld identifier lock.owner owner), locks)
    else
      let count := decrement lock.reentrantCount
      if count = 0 then (.ok (), locks.remove identifier)
      else (.ok (), locks.insert identifier { lock with reentrantCount := count })
  | none => (.error (.lockNotFound identifier owner), locks)

/-- The count is returned as a `u32`. -/
def lockCount (timeout now : ℤ) (locks : LockTable) (identifier owner : String) : ℕ :=
  match locks.get identifier with
  | some lock =>
    if lock.owner = owner ∧ isExpired timeout now lock = false then
      lock.reentrantCount % 2 ^ 32
    else 0
  | none => 0

def releaseLocks (locks : LockTable) (owner : String) : LockTable :=
  locks.retain (fun _ lock => decide (lock.owner ≠ owner))

/-! ## What each operation does to the table -/

/-- The record of `identifier` unless its last acquisition is older than the timeout. -/
def liveRecord (timeout now : ℤ) (locks : LockTable) (identifier : String) : Option LockRecord :=
  (locks.get identifier).filter (fun lock => !isExpired timeout now lock)

theorem liveRecord_eq_some {timeout now : ℤ} {locks : LockTable} {id : String} {r : LockRecord} :
    liveRecord timeout now locks id = some r ↔
      locks.get id = some r ∧ now - r.acquiredAt ≤ timeout := by
  simp [liveRecord, isExpired, Option.filter_eq_some_iff]

theorem get_cleanupExpiredLock (timeout now : ℤ) (locks : LockTable) (id j : String) :
    (cleanupExpiredLock timeout now locks id).get j =
      if j = id then liveRecord timeout now locks id else locks.get j := by
  unfold cleanupExpiredLock liveRecord
  cases hg : locks.get id with
  | none => by_cases hj : j = id <;> simp [hj, hg]
  | some r =>
    by_cases he : isExpired timeout now r <;> by_cases hj :
      j = id <;> simp [he, hj, hg, Option.filter]

/-- The three outcomes of `lock`: a new record, a re-entry, a refusal. -/
theorem lock_cases (timeout now : ℤ) (locks : LockTable) (id o : String) :
    (liveRecord timeout now locks id = none ∧ (lock timeout now locks id o).1 = .ok ⟨id, o⟩ ∧
        (lock timeout now locks id o).2.get id = some ⟨o, now, 1⟩) ∨
      (∃ r, liveRecord timeout now locks id = some r ∧ r.owner = o ∧
        (lock timeout now locks id o).1 = .ok ⟨id, o⟩ ∧
        (lock timeout now locks id o).2.get id =
          some { r with reentrantCount := r.reentrantCount + 1, acquiredAt := now }) ∨
      (∃ r, liveRecord timeout now locks id = some r ∧ r.owner ≠ o ∧
        (lock timeout now locks id o).1 = .error (.lockAlreadyHeld id r.owner o) ∧
        (lock timeout now locks id o).2.get id = some r) := by
  have hg := get_cleanupExpiredLock timeout now locks id id
  rw [if_pos rfl] at hg
  unfold lock
  cases hl : liveRecord timeout now locks id with
  | none =>
    rw [hl] at hg
    exact Or.inl ⟨rfl, by simp [hg], by simp [hg]⟩
  | some r =>
    rw [hl] at hg
    by_cases ho : r.owner = o
    · exact Or.inr (Or.inl ⟨r, rfl, ho, by simp [hg, ho], by simp [hg, ho]⟩)
    · exact Or.inr (Or.inr ⟨r, rfl, ho, by simp [hg, ho], by simp [hg, ho]⟩)

/-- A granted `lock` made a new record or re-entered the owner's own. -/
theorem lock_ok_cases {timeout now : ℤ} {locks : LockTable} {id o : String} {g : LockGuard}
    (hok : (lock timeout now locks id o).1 = .ok g) :
    g = ⟨id, o⟩ ∧
      ((liveRecord timeout now locks id = none ∧
        (lock timeout now locks id o).2.get id = some ⟨o, now, 1⟩) ∨
        ∃ r, liveRecord timeout now locks id = some r ∧ r.owner = o ∧
          (lock timeout now locks id o).2.get id =
            some { r with reentrantCount := r.reentrantCount + 1, acquiredAt := now }) := by
  rcases lock_cases timeout now locks id o with
    ⟨hl, hr, hg⟩ | ⟨r, hl, ho, hr, hg⟩ | ⟨r, -, -, hr, -⟩
  · exact ⟨Except.ok.inj (hok.symm.trans hr), Or.inl ⟨hl, hg⟩⟩
  · exact ⟨Except.ok.inj (hok.symm.trans hr), Or.inr ⟨r, hl, ho, hg⟩⟩
  · rw [hr] at hok
    exact absurd hok (by simp)

/-- A refused `lock` leaves the live record of another owner as it was. -/
theorem lock_error_cases {timeout now : ℤ} {locks : LockTable} {id o : String} {e : LockError}
    (herr : (lock timeout now locks id o).1 = .error e) :
    ∃ r, liveRecord timeout now locks id = some r ∧ r.owner ≠ o ∧
      e = .lockAlreadyHeld id r.owner o ∧ (lock timeout now locks id o).2.get id = some r := by
  rcases lock_cases timeout now locks id o with
    ⟨-, hr, -⟩ | ⟨r, -, -, hr, -⟩ | ⟨r, hl, ho, hr, hg⟩
  · rw [hr] at herr
    exact absurd herr (by simp)
  · rw [hr] at herr
    exact absurd herr (by simp)
  · exact ⟨r, hl, ho, Except.error.inj (herr.symm.trans hr), hg⟩

theorem lock_get_of_ne {timeout now : ℤ} {locks : LockTable} {id o j : String} (hj : j ≠ id) :
    (lock timeout now locks id o).2.get j = locks.get j := by
  have hg := get_cleanupExpiredLock timeout now locks id j
  rw [if_neg hj] at hg
  unfold lock
  dsimp only
  split
  · split_ifs <;> simp [hj, hg]
  · simp [hj, hg]

/-- The three outcomes of `unlock`: nothing stored, another owner's record, one count less. -/
theorem unlock_cases (locks : LockTable) (id o : String) :
    (locks.get id = none ∧ unlock locks id o = (.error (.lockNotFound id o), locks)) ∨
      (∃ r, locks.get id = some r ∧ r.owner ≠ o ∧
        unlock locks id o = (.error (.lockAlreadyHeld id r.owner o), locks)) ∨
      (∃ r, locks.get id = some r ∧ r.owner = o ∧ (unlock locks id o).1 = .ok () ∧
        (unlock locks id o).2.get id = if decrement r.reentrantCount = 0 then none
          else some { r with reentrantCount := decrement r.reentrantCount }) := by
  unfold unlock
  cases hg : locks.get id with
  | none => exact Or.inl ⟨rfl, rfl⟩
  | some r =>
    by_cases ho : r.owner = o
    · refine Or.inr (Or.inr ⟨r, rfl, ho, ?_, ?_⟩)
      · simp only [ho, ne_eq, not_true_eq_false, if_false]
        split_ifs <;> rfl
      · simp only [ho, ne_eq, not_true_eq_false, if_false]
        split_ifs <;> simp
    · exact Or.inr (Or.inl ⟨r, rfl, ho, by simp [ho]⟩)

theorem unlock_get_of_ne {locks : LockTable} {id o j : String} (hj : j ≠ id) :
    (unlock locks id o).2.get j = locks.get j := by
  unfold unlock
  split
  · dsimp only
    split_ifs <;> simp [hj]
  · rfl

theorem get_releaseLocks (locks : LockTable) (o id : String) :
    (releaseLocks locks o).get id = (locks.get id).filter (fun r => decide (r.owner ≠ o)) := by
  simp [releaseLocks]

theorem decrement_of_pos {n : ℕ} (h : n ≠ 0) : decrement n = n - 1 := by simp [decrement, h]

/-! ## Accounting

A record accounts for the owners of the guards taken on it: its count is their
number and its owner is the owner of each. -/

structure LockRecord.Counts (r : LockRecord) (owners : List String) : Prop where
  nonempty : owners ≠ []
  count_eq : r.reentrantCount = owners.length
  owner_eq : ∀ o ∈ owners, o = r.owner

namespace LockRecord.Counts
variable {r : LockRecord} {owners : List String}

theorem count_ne_zero (h : r.Counts owners) : r.reentrantCount ≠ 0 := by
  rw [h.count_eq]
  exact fun h0 => h.nonempty (List.length_eq_zero_iff.mp h0)

theorem single (o : String) (now : ℤ) : LockRecord.Counts ⟨o, now, 1⟩ [o] := ⟨by simp, rfl, by simp⟩

theorem reenter (h : r.Counts owners) (now : ℤ) :
    LockRecord.Counts { r with reentrantCount := r.reentrantCount + 1, acquiredAt := now }
      (r.owner :: owners) := by
  refine ⟨by simp, by simp [h.count_eq], ?_⟩
  intro o ho
  rcases List.mem_cons.mp ho with rfl | ho
  · rfl
  · exact h.owner_eq o ho

/-- Giving one guard back: the record goes when it was the last one. -/
theorem release (h : r.Counts owners) {rest : List String} (hlen : rest.length + 1 = owners.length)
    (hsub : ∀ p ∈ rest, p ∈ owners) :
    if decrement r.reentrantCount = 0 then rest = []
      else LockRecord.Counts { r with reentrantCount := decrement r.reentrantCount } rest := by
  have hd : decrement r.reentrantCount = rest.length := by
    rw [decrement_of_pos h.count_ne_zero, h.count_eq]
    omega
  rw [hd]
  split_ifs with h0
  · exact List.length_eq_zero_iff.mp h0
  · exact ⟨fun he => h0 (by simp [he]), rfl, fun p hp => h.owner_eq p (hsub p hp)⟩

end LockRecord.Counts

/-- The table's record of `id` accounts for exactly these owners; no record, no owners. -/
def Accounted (locks : LockTable) (id : String) (owners : List String) : Prop :=
  match locks.get id with
  | none => owners = []
  | some r => r.Counts owners

theorem accounted_of_get_none {locks : LockTable} {id : String} {owners : List String}
    (hg : locks.get id = none) : Accounted locks id owners ↔ owners = [] := by
  simp [Accounted, hg]

theorem accounted_of_get_some {locks : LockTable} {id : String} {owners : List String}
    {r : LockRecord} (hg : locks.get id = some r) :
    Accounted locks id owners ↔ r.Counts owners := by
  simp [Accounted, hg]

theorem Accounted.congr {locks table : LockTable} {id : String} {owners : List String}
    (h : Accounted locks id owners) (hg : table.get id = locks.get id) :
    Accounted table id owners := by
  unfold Accounted at h ⊢
  rwa [hg]

/-- All guards on one record have one owner. -/
theorem Accounted.owner_eq {locks : LockTable} {id o p : String} {owners : List String}
    (h : Accounted locks id owners) (ho : o ∈ owners) (hp : p ∈ owners) : o = p := by
  cases hg : locks.get id with
  | none =>
    rw [(accounted_of_get_none hg).mp h] at ho
    exact absurd ho (by simp)
  | some r =>
    have hr := (accounted_of_get_some hg).mp h
    exact (hr.owner_eq o ho).trans (hr.owner_eq p hp).symm

/-- Only the number of owners and which they are matter. -/
theorem Accounted.perm {locks : LockTable} {id : String} {owners owners' : List String}
    (h : Accounted locks id owners) (hp : owners.Perm owners') : Accounted locks id owners' := by
  cases hg : locks.get id with
  | none =>
    rw [accounted_of_get_none hg] at h ⊢
    rw [h] at hp
    exact hp.nil_eq.symm
  | some r =>
    rw [accounted_of_get_some hg] at h ⊢
    refine ⟨?_, h.count_eq.trans hp.length_eq, fun o ho => h.owner_eq o (hp.mem_iff.mpr ho)⟩
    rintro rfl
    exact h.nonempty hp.eq_nil

/-- No record of `id` is older than the timeout. -/
def Unexpired (timeout now : ℤ) (locks : LockTable) (id : String) : Prop :=
  ∀ r, locks.get id = some r → now - r.acquiredAt ≤ timeout

theorem Unexpired.live {timeout now : ℤ} {locks : LockTable} {id : String}
    (h : Unexpired timeout now locks id) : liveRecord timeout now locks id = locks.get id := by
  cases hg : locks.get id with
  | none => simp [liveRecord, hg]
  | some r => exact liveRecord_eq_some.mpr ⟨hg, h r hg⟩

section Accounting
variable {timeout now : ℤ} {locks : LockTable} {id o : String} {owners : List String}

/-- While nothing expires, `lock` succeeds exactly when no other owner has a guard out. -/
theorem Accounted.lock_ok_iff (h : Accounted locks id owners)
    (hu : Unexpired timeout now locks id) :
    (lock timeout now locks id o).1 = .ok ⟨id, o⟩ ↔ ∀ p ∈ owners, p = o := by
  rcases lock_cases timeout now locks id o with
    ⟨hl, hok, -⟩ | ⟨r, hl, ho, hok, -⟩ | ⟨r, hl, ho, herr, -⟩
  · rw [hu.live] at hl
    have he := (accounted_of_get_none hl).mp h
    simp [hok, he]
  · rw [hu.live] at hl
    have hc := (accounted_of_get_some hl).mp h
    simp only [hok, true_iff]
    intro p hp
    exact (hc.owner_eq p hp).trans ho
  · rw [hu.live] at hl
    have hc := (accounted_of_get_some hl).mp h
    obtain ⟨p, hp⟩ := List.exists_mem_of_ne_nil _ hc.nonempty
    simp only [herr, reduceCtorEq, false_iff]
    intro hall
    exact ho ((hc.owner_eq p hp).symm.trans (hall p hp))

theorem Accounted.lock_ok (h : Accounted locks id owners) (hu : Unexpired timeout now locks id)
    (hok : (lock timeout now locks id o).1 = .ok ⟨id, o⟩) :
    Accounted (lock timeout now locks id o).2 id (o :: owners) := by
  rcases (lock_ok_cases hok).2 with ⟨hl, hg⟩ | ⟨r, hl, ho, hg⟩
  · rw [hu.live] at hl
    rw [accounted_of_get_some hg, (accounted_of_get_none hl).mp h]
    exact LockRecord.Counts.single o now
  · rw [hu.live] at hl
    subst ho
    rw [accounted_of_get_some hg]
    exact ((accounted_of_get_some hl).mp h).reenter now

theorem Accounted.lock_error (h : Accounted locks id owners) (hu : Unexpired timeout now locks id)
    {e : LockError} (herr : (lock timeout now locks id o).1 = .error e) :
    Accounted (lock timeout now locks id o).2 id owners := by
  obtain ⟨r, hl, -, -, hg⟩ := lock_error_cases herr
  rw [hu.live] at hl
  exact h.congr (hg.trans hl.symm)

/-- Every outstanding guard's unlock succeeds and gives back exactly one count. -/
theorem Accounted.unlock (h : Accounted locks id owners) (ho : o ∈ owners) {rest : List String}
    (hlen : rest.length + 1 = owners.length) (hsub : ∀ p ∈ rest, p ∈ owners) :
    (unlock locks id o).1 = .ok () ∧ Accounted (unlock locks id o).2 id rest := by
  rcases unlock_cases locks id o with ⟨hg, -⟩ | ⟨r, hg, hne, -⟩ | ⟨r, hg, -, hok, hget⟩
  · rw [(accounted_of_get_none hg).mp h] at ho
    exact absurd ho (by simp)
  · exact absurd (((accounted_of_get_some hg).mp h).owner_eq o ho).symm hne
  · have hrel := ((accounted_of_get_some hg).mp h).release hlen hsub
    refine ⟨hok, ?_⟩
    split_ifs at hget hrel with h0
    · exact (accounted_of_get_none hget).mpr hrel
    · exact (accounted_of_get_some hget).mpr hrel

end Accounting

end Facet.Lock
