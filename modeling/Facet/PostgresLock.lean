import Facet.LockManager
import Facet.Service

/-!
# The lock manager in Postgres

The table `distributed_locks` keyed by identifier, beside the in-memory manager. Expired rows
are purged by any `lock` in one and only for the requested identifier in the other, so the two
are compared by the records that have not expired. The column keeps whole microseconds: on a finer
clock the two managers part within a microsecond of the expiry.
-/
namespace Facet.Lock
namespace Postgres

def outOfRange : LockError :=
  .storeError "Failed to acquire lock: error returned from database: integer out of range"

/-- `DELETE .. WHERE acquired_at < $1`. -/
def purge (cutoff : ℤ) (table : LockTable) : LockTable :=
  table.retain fun _ row => decide (cutoff ≤ row.acquiredAt)

/-- `lock_internal` with the instants as they are bound; `cleanup` says whether this call purges.
Calls run one after the other, so the row an insert conflicts with is still there for the select
after it, and an attempt is never repeated. A failed statement rolls the purge back. -/
def lockAt (cutoff now : ℤ) (cleanup : Bool) (table : LockTable) (identifier owner : String) :
    Except LockError LockGuard × LockTable :=
  let purged := if cleanup then purge cutoff table else table
  match purged.get identifier with
  | none => (.ok ⟨identifier, owner⟩, purged.insert identifier ⟨owner, now, 1⟩)
  | some row =>
    if row.owner = owner then
      if row.reentrantCount + 1 < 2 ^ 31 then
        (.ok ⟨identifier, owner⟩, purged.insert identifier
          { row with acquiredAt := now, reentrantCount := row.reentrantCount + 1 })
      else (.error outOfRange, table)
    else (.error (.lockAlreadyHeld identifier row.owner owner), purged)

/-- On a clock of whole microseconds. -/
def lock (timeout now : ℤ) (cleanup : Bool) (table : LockTable) (identifier owner : String) :
    Except LockError LockGuard × LockTable :=
  lockAt (now - timeout) now cleanup table identifier owner

/-- `UPDATE` of a positive count, then `DELETE` of what has come down to zero. -/
def unlock (table : LockTable) (identifier owner : String) : Except LockError Unit × LockTable :=
  match table.get identifier with
  | none => (.error (.lockNotFound identifier owner), table)
  | some row =>
    if row.owner = owner ∧ 0 < row.reentrantCount then
      if row.reentrantCount - 1 = 0 then (.ok (), table.remove identifier)
      else (.ok (), table.insert identifier { row with reentrantCount := row.reentrantCount - 1 })
    else if row.owner ≠ owner then (.error (.lockAlreadyHeld identifier row.owner owner), table)
    else (.error (.lockNotFound identifier owner), table)

def lockCountAt (cutoff : ℤ) (table : LockTable) (identifier owner : String) : ℕ :=
  match table.get identifier with
  | none => 0
  | some row => if row.owner = owner ∧ cutoff ≤ row.acquiredAt then row.reentrantCount else 0

def lockCount (timeout now : ℤ) (table : LockTable) (identifier owner : String) : ℕ :=
  lockCountAt (now - timeout) table identifier owner

def releaseLocks (table : LockTable) (owner : String) : LockTable :=
  table.retain fun _ row => decide (row.owner ≠ owner)

end Postgres

/-! ## One identifier

What a call does to the record of its identifier, given the record unless it has expired. -/

def alive (timeout now : ℤ) (record : Option LockRecord) : Option LockRecord :=
  record.filter fun r => !isExpired timeout now r

/-- A new record, a re-entry, or a refusal. -/
def grant (now : ℤ) (identifier owner : String) :
    Option LockRecord → Except LockError LockGuard × Option LockRecord
  | none => (.ok ⟨identifier, owner⟩, some ⟨owner, now, 1⟩)
  | some r =>
    if r.owner = owner then
      (.ok ⟨identifier, owner⟩,
        some { r with reentrantCount := r.reentrantCount + 1, acquiredAt := now })
    else (.error (.lockAlreadyHeld identifier r.owner owner), some r)

/-- One count less for its owner. -/
def giveBack (owner : String) (r : LockRecord) : Option LockRecord :=
  if r.owner = owner then
    if r.reentrantCount = 1 then none else some { r with reentrantCount := r.reentrantCount - 1 }
  else some r

section Cells
variable {timeout now now' : ℤ} {locks : LockTable} {id o j : String} {r : LockRecord}

theorem liveRecord_eq_alive :
    liveRecord timeout now locks id = alive timeout now (locks.get id) := rfl

theorem alive_eq_some {record : Option LockRecord} :
    alive timeout now record = some r ↔ record = some r ∧ now - r.acquiredAt ≤ timeout := by
  simp [alive, isExpired, Option.filter_eq_some_iff]

/-- What has expired stays expired. -/
theorem alive_later (h : now ≤ now') (record : Option LockRecord) :
    alive timeout now' (alive timeout now record) = alive timeout now' record := by
  ext r
  simp only [alive_eq_some]
  constructor
  · intro hr
    exact ⟨hr.1.1, hr.2⟩
  · intro hr
    exact ⟨⟨hr.1, by omega⟩, hr.2⟩

theorem alive_idem (record : Option LockRecord) :
    alive timeout now (alive timeout now record) = alive timeout now record :=
  alive_later le_rfl record

/-- Giving back does not touch the instant of the acquisition. -/
theorem alive_bind_giveBack (record : Option LockRecord) :
    alive timeout now (record.bind (giveBack o)) =
      (alive timeout now record).bind (giveBack o) := by
  cases record with
  | none => rfl
  | some r =>
    unfold giveBack
    by_cases he : isExpired timeout now r
    · have hgone : ∀ r' : LockRecord, r'.acquiredAt = r.acquiredAt →
          alive timeout now (some r') = none := by
        intro r' hr'
        have he' : isExpired timeout now r' = true := by
          rw [isExpired, hr']
          exact he
        simp [alive, Option.filter, he']
      rw [Option.bind_some, hgone r rfl, Option.bind_none]
      split_ifs
      · rfl
      · exact hgone _ rfl
      · exact hgone _ rfl
    · have hkept : ∀ r' : LockRecord, r'.acquiredAt = r.acquiredAt →
          alive timeout now (some r') = some r' := by
        intro r' hr'
        have he' : ¬ isExpired timeout now r' = true := by
          rw [isExpired, hr']
          exact he
        simp [alive, Option.filter, he']
      rw [Option.bind_some, hkept r rfl, Option.bind_some]
      split_ifs
      · rfl
      · exact hkept _ rfl
      · exact hkept _ rfl

/-! ### In memory -/

variable (timeout now locks id o) in
theorem lock_eq_grant :
    (lock timeout now locks id o).1 = (grant now id o (liveRecord timeout now locks id)).1 ∧
      (lock timeout now locks id o).2.get id =
        (grant now id o (liveRecord timeout now locks id)).2 := by
  rcases lock_cases timeout now locks id o with ⟨hl, hok, hg⟩ | ⟨r, hl, ho, hok,
    hg⟩ | ⟨r, hl, ho, herr, hg⟩
  · rw [hl, hok, hg]
    exact ⟨rfl, rfl⟩
  · rw [hl, hok, hg, grant, if_pos ho]
    exact ⟨rfl, rfl⟩
  · rw [hl, herr, hg, grant, if_neg ho]
    exact ⟨rfl, rfl⟩

theorem unlock_get_eq (h : ∀ r, locks.get id = some r → r.reentrantCount ≠ 0) :
    (unlock locks id o).2.get id = (locks.get id).bind (giveBack o) := by
  rcases unlock_cases locks id o with ⟨hg, he⟩ | ⟨r, hg, ho, he⟩ | ⟨r, hg, ho, -, hget⟩
  · rw [he, hg, Option.bind_none]
  · rw [he, hg, Option.bind_some, giveBack, if_neg ho]
  · have hpos := h r hg
    rw [hget, hg, Option.bind_some, giveBack, if_pos ho, decrement_of_pos hpos]
    by_cases h1 : r.reentrantCount = 1
    · rw [if_pos (by omega), if_pos h1]
    · rw [if_neg (by omega), if_neg h1]

/-! ### In the table -/

theorem Postgres.get_purge :
    (Postgres.purge (now - timeout) locks).get j = liveRecord timeout now locks j := by
  rw [Postgres.purge, HashMap.get_retain, liveRecord]
  congr 1
  funext row
  by_cases he : now - row.acquiredAt > timeout
  · have hcut : ¬ now - timeout ≤ row.acquiredAt := by omega
    simp [isExpired, he, hcut]
  · have hcut : now - timeout ≤ row.acquiredAt := by omega
    simp [isExpired, he, hcut]

/-- With a purge in every call, `lock` sees the records that have not expired and leaves only
them. -/
theorem Postgres.lock_eq_grant
    (hfits : ∀ r, liveRecord timeout now locks id = some r → r.owner = o →
      r.reentrantCount + 1 < 2 ^ 31) :
    (Postgres.lock timeout now true locks id o).1 =
      (grant now id o (liveRecord timeout now locks id)).1 ∧
      ∀ j, (Postgres.lock timeout now true locks id o).2.get j =
        if j = id then (grant now id o (liveRecord timeout now locks id)).2 else liveRecord
          timeout now locks j := by
  unfold Postgres.lock Postgres.lockAt
  simp only [if_true, Postgres.get_purge]
  cases hl : liveRecord timeout now locks id with
  | none =>
    refine ⟨rfl, ?_⟩
    intro j
    simp only [HashMap.get_insert, Postgres.get_purge]
    rfl
  | some r =>
    by_cases ho : r.owner = o
    · simp only [grant, if_pos ho, if_pos (hfits r hl ho)]
      refine ⟨trivial, ?_⟩
      intro j
      simp only [HashMap.get_insert, Postgres.get_purge]
    · simp only [grant, if_neg ho]
      refine ⟨trivial, ?_⟩
      intro j
      rw [Postgres.get_purge]
      split_ifs with hj
      · rw [hj, hl]
      · rfl

theorem Postgres.unlock_get_eq (h : ∀ r, locks.get id = some r → r.reentrantCount ≠ 0) :
    (Postgres.unlock locks id o).2.get id = (locks.get id).bind (giveBack o) := by
  unfold Postgres.unlock
  cases hg : locks.get id with
  | none => simp [hg]
  | some r =>
    have hpos : 0 < r.reentrantCount := Nat.pos_of_ne_zero (h r hg)
    rw [Option.bind_some, giveBack]
    by_cases ho : r.owner = o
    · simp only [ho, hpos, and_self, if_true]
      by_cases h1 : r.reentrantCount = 1
      · simp [h1]
      · rw [if_neg (by omega), if_neg h1]
        simp
    · simp [ho, hg]

theorem Postgres.unlock_get_of_ne (hj : j ≠ id) :
    (Postgres.unlock locks id o).2.get j = locks.get j := by
  unfold Postgres.unlock
  split
  · rfl
  · split_ifs <;> simp [hj]

theorem Postgres.get_releaseLocks :
    (Postgres.releaseLocks locks o).get j =
      (locks.get j).filter (fun r => decide (r.owner ≠ o)) := by
  simp [Postgres.releaseLocks]

/-! ### Counts -/

/-- How often the owner has the record. -/
def heldCount (owner : String) : Option LockRecord → ℕ
  | none => 0
  | some r => if r.owner = owner then r.reentrantCount else 0

theorem lockCount_eq :
    lockCount timeout now locks id o = heldCount o (liveRecord timeout now locks id) % 2 ^ 32 := by
  unfold lockCount liveRecord
  cases locks.get id with
  | none => rfl
  | some r =>
    by_cases he : isExpired timeout now r
    · simp [he, Option.filter, heldCount]
    · by_cases ho : r.owner = o
      · simp [he, ho, Option.filter, heldCount]
      · simp [he, ho, Option.filter, heldCount]

theorem Postgres.lockCount_eq :
    Postgres.lockCount timeout now locks id o = heldCount o (liveRecord timeout now locks id) := by
  unfold Postgres.lockCount Postgres.lockCountAt liveRecord
  cases locks.get id with
  | none => rfl
  | some r =>
    by_cases he : now - r.acquiredAt > timeout
    · have hcut : ¬ now - timeout ≤ r.acquiredAt := by omega
      simp [isExpired, he, hcut, Option.filter, heldCount]
    · have hcut : now - timeout ≤ r.acquiredAt := by omega
      by_cases ho : r.owner = o
      · simp [isExpired, he, hcut, ho, Option.filter, heldCount]
      · simp [isExpired, he, hcut, ho, Option.filter, heldCount]

/-- No record is kept with a count of zero. -/
def Positive (locks : LockTable) : Prop := ∀ id r, locks.get id = some r → r.reentrantCount ≠ 0

theorem positive_empty : Positive HashMap.empty := by
  intro id r hr
  simp at hr

theorem grant_positive
    {record : Option LockRecord} (h : ∀ r, record = some r → r.reentrantCount ≠ 0)
    (hr : (grant now id o record).2 = some r) : r.reentrantCount ≠ 0 := by
  unfold grant at hr
  split at hr
  · obtain rfl := Option.some.inj hr
    simp
  · split_ifs at hr
    · obtain rfl := Option.some.inj hr
      simp
    · rw [← Option.some.inj hr]
      exact h _ rfl

theorem giveBack_positive {r' : LockRecord} (h : r.reentrantCount ≠ 0)
    (hr : giveBack o r = some r') : r'.reentrantCount ≠ 0 := by
  unfold giveBack at hr
  split_ifs at hr
  · obtain rfl := Option.some.inj hr
    dsimp only
    omega
  · obtain rfl := Option.some.inj hr
    exact h

theorem Positive.lock (h : Positive locks) : Positive (lock timeout now locks id o).2 := by
  intro j r hr
  by_cases hj : j = id
  · subst hj
    rw [(lock_eq_grant timeout now locks j o).2] at hr
    apply grant_positive _ hr
    intro r' hr'
    exact h j r' (liveRecord_eq_some.mp hr').1
  · rw [lock_get_of_ne hj] at hr
    exact h j r hr

theorem Positive.bind_giveBack {locks' : LockTable} (h : Positive locks)
    (hid : locks'.get id = (locks.get id).bind (giveBack o))
    (hrest : ∀ j, j ≠ id → locks'.get j = locks.get j) : Positive locks' := by
  intro j r hr
  by_cases hj : j = id
  · rw [hj, hid] at hr
    obtain ⟨r', hr', hback⟩ := Option.bind_eq_some_iff.mp hr
    exact giveBack_positive (h id r' hr') hback
  · rw [hrest j hj] at hr
    exact h j r hr

theorem Positive.unlock (h : Positive locks) : Positive (unlock locks id o).2 :=
  h.bind_giveBack (unlock_get_eq (h id)) fun _ hj => unlock_get_of_ne hj

theorem Positive.postgresUnlock (h : Positive locks) : Positive (Postgres.unlock locks id o).2 :=
  h.bind_giveBack (Postgres.unlock_get_eq (h id)) fun _ hj => Postgres.unlock_get_of_ne hj

theorem Positive.retain (h : Positive locks) (keep : String → LockRecord → Bool) :
    Positive (locks.retain keep) := by
  intro j r hr
  rw [HashMap.get_retain] at hr
  exact h j r (Option.filter_eq_some_iff.mp hr).1

theorem Positive.insert (h : Positive locks) (hr : r.reentrantCount ≠ 0) :
    Positive (locks.insert id r) := by
  intro j r' hr'
  rcases HashMap.get_insert_eq_some hr' with ⟨-, rfl⟩ | ⟨-, hget⟩
  · exact hr
  · exact h j r' hget

theorem Positive.postgresLock (h : Positive locks) (cleanup : Bool) :
    Positive (Postgres.lock timeout now cleanup locks id o).2 := by
  have hpurged : Positive (if cleanup then Postgres.purge (now - timeout) locks else locks) := by
    split_ifs
    · exact h.retain _
    · exact h
  unfold Postgres.lock Postgres.lockAt
  dsimp only
  generalize (if cleanup then Postgres.purge (now - timeout) locks else locks) = purged at hpurged ⊢
  split
  · exact hpurged.insert (by simp)
  · split_ifs
    · exact hpurged.insert (by simp)
    · exact h
    · exact hpurged

end Cells

/-! ## Runs -/

inductive LockCall
  | lock (identifier owner : String)
  | unlock (identifier owner : String)
  | lockCount (identifier owner : String)
  | releaseLocks (owner : String)
  deriving DecidableEq, Repr

inductive LockReply
  | locked (result : Except LockError LockGuard)
  | unlocked (result : Except LockError Unit)
  | counted (count : ℕ)
  | released

/-- The table and the instant of the last call. -/
structure LockState where
  now : ℤ
  table : LockTable

/-- A call comes with its instant. -/
def MemoryLockManager (timeout start : ℤ) : Service LockState (ℤ × LockCall) LockReply where
  init := ⟨start, HashMap.empty⟩
  step s call := match call.2 with
    | .lock identifier owner =>
      (.locked (lock timeout call.1 s.table identifier owner).1,
        ⟨call.1, (lock timeout call.1 s.table identifier owner).2⟩)
    | .unlock identifier owner =>
      (.unlocked (unlock s.table identifier owner).1, ⟨call.1, (unlock s.table identifier owner).2⟩)
    | .lockCount identifier owner =>
      (.counted (lockCount timeout call.1 s.table identifier owner), ⟨call.1, s.table⟩)
    | .releaseLocks owner => (.released, ⟨call.1, releaseLocks s.table owner⟩)

/-- The manager on a clock of whole microseconds. `cleanup_probability` decides `cleanup` of each
call; with 1.0 it is always `true`. -/
def PostgresLockManager (timeout start : ℤ) (cleanup : ℤ × LockCall → Bool) :
    Service LockState (ℤ × LockCall) LockReply where
  init := ⟨start, HashMap.empty⟩
  step s call := match call.2 with
    | .lock identifier owner =>
      (.locked (Postgres.lock timeout call.1 (cleanup call) s.table identifier owner).1,
        ⟨call.1, (Postgres.lock timeout call.1 (cleanup call) s.table identifier owner).2⟩)
    | .unlock identifier owner =>
      (.unlocked (Postgres.unlock s.table identifier owner).1,
        ⟨call.1, (Postgres.unlock s.table identifier owner).2⟩)
    | .lockCount identifier owner =>
      (.counted (Postgres.lockCount timeout call.1 s.table identifier owner), ⟨call.1, s.table⟩)
    | .releaseLocks owner => (.released, ⟨call.1, Postgres.releaseLocks s.table owner⟩)

/-- An instant as sqlx binds it: the whole microseconds since the epoch of the column. -/
def Postgres.cut (nanoseconds : ℤ) : ℤ := nanoseconds.tdiv 1000

/-- The manager on a clock of nanoseconds. -/
def PostgresLockManager.onNanoseconds (timeout start : ℤ) (cleanup : ℤ × LockCall → Bool) :
    Service LockState (ℤ × LockCall) LockReply where
  init := ⟨start, HashMap.empty⟩
  step s call := match call.2 with
    | .lock identifier owner =>
      (.locked (Postgres.lockAt (Postgres.cut (call.1 - timeout)) (Postgres.cut call.1)
          (cleanup call) s.table identifier owner).1,
        ⟨call.1, (Postgres.lockAt (Postgres.cut (call.1 - timeout)) (Postgres.cut call.1)
          (cleanup call) s.table identifier owner).2⟩)
    | .unlock identifier owner =>
      (.unlocked (Postgres.unlock s.table identifier owner).1,
        ⟨call.1, (Postgres.unlock s.table identifier owner).2⟩)
    | .lockCount identifier owner =>
      (.counted (Postgres.lockCountAt (Postgres.cut (call.1 - timeout)) s.table identifier owner),
        ⟨call.1, s.table⟩)
    | .releaseLocks owner => (.released, ⟨call.1, Postgres.releaseLocks s.table owner⟩)

/-- The result of a `lock` and the value of a `lock_count`. -/
def LockReply.outcome : LockReply → Option (Except LockError LockGuard ⊕ ℕ)
  | .locked result => some (.inl result)
  | .counted count => some (.inr count)
  | .unlocked _ | .released => none

/-- The clock has not gone back, and the count of a re-entered lock fits its column. -/
def Admitted (timeout : ℤ) (s : LockState) (call : ℤ × LockCall) : Prop :=
  s.now ≤ call.1 ∧ ∀ identifier owner r, call.2 = .lock identifier owner →
    liveRecord timeout call.1 s.table identifier = some r → r.reentrantCount + 1 < 2 ^ 31

/-- The two tables have the same records, those that have expired left out. -/
structure Alike (timeout now : ℤ) (memory postgres : LockTable) : Prop where
  live : ∀ id, liveRecord timeout now memory id = liveRecord timeout now postgres id
  fits : ∀ id r, liveRecord timeout now memory id = some r → r.reentrantCount < 2 ^ 31
  memory : Positive memory
  postgres : Positive postgres

section Steps
variable {timeout now now' : ℤ} {memory postgres : LockTable}

theorem Alike.later (h : Alike timeout now memory postgres) (hle : now ≤ now') :
    Alike timeout now' memory postgres where
  live id := by
    have hid := congrArg (alive timeout now') (h.live id)
    rwa [liveRecord_eq_alive, liveRecord_eq_alive, alive_later hle, alive_later hle] at hid
  fits id r hr := by
    have hr' := liveRecord_eq_some.mp hr
    exact h.fits id r (liveRecord_eq_some.mpr ⟨hr'.1, by omega⟩)
  memory := h.memory
  postgres := h.postgres

theorem Alike.lock (h : Alike timeout now memory postgres) (id o : String)
    (hfits : ∀ r, liveRecord timeout now memory id = some r → r.reentrantCount + 1 < 2 ^ 31) :
    (lock timeout now memory id o).1 = (Postgres.lock timeout now true postgres id o).1 ∧
      Alike timeout now (lock timeout now memory id o).2
        (Postgres.lock timeout now true postgres id o).2 := by
  have hfits' : ∀ r, liveRecord timeout now postgres id = some r → r.owner = o →
      r.reentrantCount + 1 < 2 ^ 31 :=
    fun r hr _ => hfits r ((h.live id).trans hr)
  obtain ⟨hreply, hget⟩ := lock_eq_grant timeout now memory id o
  obtain ⟨hreply', hget'⟩ := Postgres.lock_eq_grant hfits'
  rw [hreply, hreply', h.live id]
  refine ⟨rfl, ?_, ?_, h.memory.lock, h.postgres.postgresLock true⟩
  · intro j
    rw [liveRecord_eq_alive, liveRecord_eq_alive, hget' j]
    by_cases hj : j = id
    · rw [hj, hget, if_pos rfl, h.live id]
    · rw [lock_get_of_ne hj, if_neg hj, ← liveRecord_eq_alive,
        h.live j, liveRecord_eq_alive, alive_idem]
  · intro j r hr
    obtain ⟨hr, hlive⟩ := liveRecord_eq_some.mp hr
    by_cases hj : j = id
    · rw [hj, hget] at hr
      cases hl : liveRecord timeout now memory id with
      | none =>
        rw [hl] at hr
        obtain rfl := Option.some.inj hr
        simp
      | some r' =>
        rw [hl, grant] at hr
        split_ifs at hr
        · obtain rfl := Option.some.inj hr
          exact hfits r' hl
        · obtain rfl := Option.some.inj hr
          exact h.fits id r' hl
    · rw [lock_get_of_ne hj] at hr
      exact h.fits j r (liveRecord_eq_some.mpr ⟨hr, hlive⟩)

theorem giveBack_le {o : String} {r r' : LockRecord} (h : giveBack o r = some r') :
    r'.reentrantCount ≤ r.reentrantCount := by
  unfold giveBack at h
  split_ifs at h
  · obtain rfl := Option.some.inj h
    dsimp only
    omega
  · obtain rfl := Option.some.inj h
    exact le_rfl

theorem Alike.unlock (h : Alike timeout now memory postgres) (id o : String) :
    Alike timeout now (unlock memory id o).2 (Postgres.unlock postgres id o).2 := by
  have hid : liveRecord timeout now (Lock.unlock memory id o).2 id =
      (liveRecord timeout now memory id).bind (giveBack o) := by
    rw [liveRecord_eq_alive, unlock_get_eq (h.memory id), alive_bind_giveBack,
      ← liveRecord_eq_alive]
  have hid' : liveRecord timeout now (Postgres.unlock postgres id o).2 id =
      (liveRecord timeout now postgres id).bind (giveBack o) := by
    rw [liveRecord_eq_alive, Postgres.unlock_get_eq (h.postgres id), alive_bind_giveBack,
      ← liveRecord_eq_alive]
  refine ⟨?_, ?_, h.memory.unlock, h.postgres.postgresUnlock⟩
  · intro j
    by_cases hj : j = id
    · rw [hj, hid, hid', h.live id]
    · rw [liveRecord_eq_alive, liveRecord_eq_alive, unlock_get_of_ne hj,
        Postgres.unlock_get_of_ne hj]
      exact h.live j
  · intro j r hr
    by_cases hj : j = id
    · rw [hj, hid] at hr
      obtain ⟨r', hr', hback⟩ := Option.bind_eq_some_iff.mp hr
      exact lt_of_le_of_lt (giveBack_le hback) (h.fits id r' hr')
    · rw [liveRecord_eq_alive, unlock_get_of_ne hj] at hr
      exact h.fits j r hr

theorem Alike.lockCount (h : Alike timeout now memory postgres) (id o : String) :
    lockCount timeout now memory id o = Postgres.lockCount timeout now postgres id o := by
  rw [lockCount_eq, Postgres.lockCount_eq, ← h.live id]
  apply Nat.mod_eq_of_lt
  unfold heldCount
  split
  · simp
  · rename_i r hr
    split_ifs
    · exact lt_trans (h.fits id r hr) (by norm_num)
    · simp

theorem Alike.releaseLocks (h : Alike timeout now memory postgres) (o : String) :
    Alike timeout now (releaseLocks memory o) (Postgres.releaseLocks postgres o) := by
  have hcomm : ∀ record : Option LockRecord,
      alive timeout now (record.filter fun r => decide (r.owner ≠ o)) =
      (alive timeout now record).filter fun r => decide (r.owner ≠ o) := by
    intro record
    ext r
    simp only [alive_eq_some, Option.filter_eq_some_iff]
    tauto
  refine ⟨?_, ?_, h.memory.retain _, h.postgres.retain _⟩
  · intro j
    rw [liveRecord_eq_alive, liveRecord_eq_alive, get_releaseLocks,
      Postgres.get_releaseLocks, hcomm, hcomm]
    exact congrArg _ (h.live j)
  · intro j r hr
    rw [liveRecord_eq_alive, get_releaseLocks, hcomm] at hr
    exact h.fits j r (Option.filter_eq_some_iff.mp hr).1

end Steps

theorem Alike.step {timeout : ℤ} (start : ℤ) {s t : LockState}
    (h : Alike timeout s.now s.table t.table) (call : ℤ × LockCall)
    (hok : Admitted timeout s call) : ((MemoryLockManager timeout start).step s call).1.outcome =
        ((PostgresLockManager timeout start fun _ => true).step t call).1.outcome ∧
      Alike timeout ((MemoryLockManager timeout start).step s call).2.now
        ((MemoryLockManager timeout start).step s call).2.table
        ((PostgresLockManager timeout start fun _ => true).step t call).2.table := by
  obtain ⟨now, call⟩ := call
  have hlater := h.later hok.1
  cases call with
  | lock identifier owner =>
    obtain ⟨hreply, hnext⟩ := hlater.lock identifier owner fun r => hok.2 identifier owner r rfl
    exact ⟨congrArg (fun result => (LockReply.locked result).outcome) hreply, hnext⟩
  | unlock identifier owner => exact ⟨rfl, hlater.unlock identifier owner⟩
  | lockCount identifier owner =>
    exact ⟨congrArg (fun count => (LockReply.counted count).outcome)
      (hlater.lockCount identifier owner), hlater⟩
  | releaseLocks owner => exact ⟨rfl, hlater.releaseLocks owner⟩

/-! ## The clock of nanoseconds -/

def LockRecord.inNanoseconds (row : LockRecord) : LockRecord :=
  { row with acquiredAt := 1000 * row.acquiredAt }

/-- The table with the instants of its rows in nanoseconds. -/
def inNanoseconds (table : LockTable) : LockTable := table.mapValues fun _ row => row.inNanoseconds

section Nanoseconds
variable {cutoff now : ℤ} {table : LockTable} {id o : String}

theorem Postgres.cut_mul (n : ℤ) : Postgres.cut (1000 * n) = n := by
  rw [Postgres.cut, Int.mul_tdiv_cancel_left n (by norm_num)]

theorem get_inNanoseconds :
    (inNanoseconds table).get id = (table.get id).map LockRecord.inNanoseconds :=
  HashMap.get_mapValues table _ id

theorem inNanoseconds_insert (row : LockRecord) :
    (inNanoseconds table).insert id row.inNanoseconds = inNanoseconds (table.insert id row) :=
  HashMap.mapValues_insert table (fun _ row => LockRecord.inNanoseconds row) id row

theorem inNanoseconds_remove : (inNanoseconds table).remove id = inNanoseconds (table.remove id) :=
  HashMap.mapValues_remove table _ id

theorem inNanoseconds_purge :
    Postgres.purge (1000 * cutoff) (inNanoseconds table) =
      inNanoseconds (Postgres.purge cutoff table) := by
  refine HashMap.mapValues_retain table _ _ _ fun _ row => ?_
  rw [decide_eq_decide]
  dsimp only [LockRecord.inNanoseconds]
  omega

theorem inNanoseconds_releaseLocks :
    Postgres.releaseLocks (inNanoseconds table) o = inNanoseconds (Postgres.releaseLocks table o) :=
  HashMap.mapValues_retain table _ _ _ fun _ _ => rfl

/-- On whole microseconds the table of nanoseconds gives what the table itself gives. -/
theorem inNanoseconds_lockAt (cleanup : Bool) :
    Postgres.lockAt (1000 * cutoff) (1000 * now) cleanup (inNanoseconds table) id o =
      ((Postgres.lockAt cutoff now cleanup table id o).1,
        inNanoseconds (Postgres.lockAt cutoff now cleanup table id o).2) := by
  have hpurged : (if cleanup then Postgres.purge (1000 * cutoff) (inNanoseconds table)
      else inNanoseconds table) =
      inNanoseconds (if cleanup then Postgres.purge cutoff table else table) := by
    rw [apply_ite inNanoseconds, inNanoseconds_purge]
  unfold Postgres.lockAt
  rw [hpurged]
  dsimp only
  generalize (if cleanup then Postgres.purge cutoff table else table) = purged
  rw [get_inNanoseconds]
  cases purged.get id with
  | none => exact Prod.ext rfl (inNanoseconds_insert ⟨o, now, 1⟩)
  | some row =>
    dsimp only [Option.map_some, LockRecord.inNanoseconds]
    split_ifs
    · exact Prod.ext rfl (inNanoseconds_insert ⟨row.owner, now, row.reentrantCount + 1⟩)
    · rfl
    · rfl

theorem inNanoseconds_unlock : Postgres.unlock (inNanoseconds table) id o =
    ((Postgres.unlock table id o).1, inNanoseconds (Postgres.unlock table id o).2) := by
  unfold Postgres.unlock
  rw [get_inNanoseconds]
  cases table.get id with
  | none => rfl
  | some row =>
    dsimp only [Option.map_some, LockRecord.inNanoseconds]
    split_ifs
    · exact Prod.ext rfl inNanoseconds_remove
    · exact Prod.ext rfl (inNanoseconds_insert ⟨row.owner, row.acquiredAt, row.reentrantCount - 1⟩)
    · rfl
    · rfl

theorem inNanoseconds_lockCountAt :
    Postgres.lockCountAt (1000 * cutoff) (inNanoseconds table) id o =
      Postgres.lockCountAt cutoff table id o := by
  unfold Postgres.lockCountAt
  rw [get_inNanoseconds]
  cases table.get id with
  | none => rfl
  | some row =>
    have hcut : 1000 * cutoff ≤ 1000 * row.acquiredAt ↔ cutoff ≤ row.acquiredAt := by omega
    simp only [Option.map_some, LockRecord.inNanoseconds, hcut]

end Nanoseconds

/-- On a clock of whole microseconds nothing is cut off. -/
theorem PostgresLockManager.onNanoseconds_step {timeout : ℤ} (start : ℤ)
    (cleanup : ℤ × LockCall → Bool) (s : LockState) {call : ℤ × LockCall}
    (htimeout : 1000 ∣ timeout) (hnow : 1000 ∣ call.1) :
    ((PostgresLockManager timeout start cleanup).step ⟨s.now, inNanoseconds s.table⟩ call).1 =
        ((onNanoseconds timeout start cleanup).step s call).1 ∧
      ((PostgresLockManager timeout start cleanup).step
        ⟨s.now, inNanoseconds s.table⟩ call).2.table =
        inNanoseconds ((onNanoseconds timeout start cleanup).step s call).2.table := by
  obtain ⟨now, call⟩ := call
  obtain ⟨d, rfl⟩ := htimeout
  obtain ⟨n, rfl⟩ := hnow
  have hcutoff : 1000 * n - 1000 * d = 1000 * (n - d) := by ring
  cases call with
  | lock identifier owner =>
    simp only [PostgresLockManager, onNanoseconds, Postgres.lock, hcutoff, Postgres.cut_mul,
      inNanoseconds_lockAt, and_self]
  | unlock identifier owner =>
    simp only [PostgresLockManager, onNanoseconds, inNanoseconds_unlock, and_self]
  | lockCount identifier owner =>
    simp only [PostgresLockManager, onNanoseconds, Postgres.lockCount, hcutoff, Postgres.cut_mul,
      inNanoseconds_lockCountAt, and_self]
  | releaseLocks owner =>
    simp only [PostgresLockManager, onNanoseconds, inNanoseconds_releaseLocks, and_self]

/-- On a clock of whole microseconds both managers give every `lock` and every `lock_count` the same
outcome. -/
theorem lock_managers_agree (timeout start : ℤ) (calls : List (ℤ × LockCall))
    (htimeout : 1000 ∣ timeout) (hwhole : ∀ call ∈ calls, 1000 ∣ call.1)
    (h : (MemoryLockManager timeout start).Along (Admitted timeout) ⟨start, HashMap.empty⟩ calls) :
    ((MemoryLockManager timeout start).replies ⟨start, HashMap.empty⟩ calls).map LockReply.outcome =
      ((PostgresLockManager.onNanoseconds timeout start fun _ => true).replies
        ⟨start, HashMap.empty⟩ calls).map LockReply.outcome := by
  rw [← Service.replies_observed, ← Service.replies_observed]
  have hstart : Alike timeout start HashMap.empty (inNanoseconds HashMap.empty) :=
    ⟨fun _ => rfl, fun id r hr => by simp [liveRecord] at hr, positive_empty, positive_empty⟩
  have halong := Service.along_and (Service.along_observed LockReply.outcome h) hwhole
  refine Service.replies_eq (R := fun s t => Alike timeout s.now s.table (inNanoseconds t.table))
    ?_ hstart halong
  intro s t call hs hok
  obtain ⟨hreply, hnext⟩ := hs.step start (t := ⟨t.now, inNanoseconds t.table⟩) call hok.1
  obtain ⟨hsame, htable⟩ :=
    PostgresLockManager.onNanoseconds_step start (fun _ => true) t htimeout hok.2
  rw [hsame] at hreply
  rw [htable] at hnext
  exact ⟨hreply, hnext⟩

def admittedCheck (timeout : ℤ) (s : LockState) (call : ℤ × LockCall) : Bool :=
  decide (s.now ≤ call.1) && match call.2 with
    | .lock identifier _ => match liveRecord timeout call.1 s.table identifier with
      | some r => decide (r.reentrantCount + 1 < 2 ^ 31)
      | none => true
    | _ => true

theorem admitted_of_check {timeout : ℤ} (s : LockState) (call : ℤ × LockCall)
    (h : admittedCheck timeout s call = true) : Admitted timeout s call := by
  rw [admittedCheck, Bool.and_eq_true, decide_eq_true_eq] at h
  refine ⟨h.1, ?_⟩
  intro identifier owner r hcall hr
  simpa [hcall, hr] using h.2

/-- Owner `a` gives back one of two counts after its lock has expired; then `b` takes it and `a` is
refused. -/
def expiredReentry : List (ℤ × LockCall) :=
  [(0, .lock "flow" "a"), (0, .lock "flow" "a"), (21000, .lock "other" "c"),
    (21000, .unlock "flow" "a"), (21000, .lockCount "flow" "a"), (22000, .lock "flow" "b"),
    (23000, .lock "flow" "a"), (23000, .lockCount "flow" "b")]

theorem lock_managers_agree_on_expired_reentry :
    ((MemoryLockManager 20000 0).replies ⟨0, HashMap.empty⟩ expiredReentry).map LockReply.outcome =
      ((PostgresLockManager.onNanoseconds 20000 0 fun _ => true).replies
        ⟨0, HashMap.empty⟩ expiredReentry).map LockReply.outcome :=
  lock_managers_agree 20000 0 expiredReentry (by decide) (by decide)
    (Service.along_of_check admitted_of_check (by decide))

/-- Acquired half a microsecond after a whole one, a lock expires later in the table than in
memory. -/
def withinMicrosecond : List (ℤ × LockCall) :=
  [(500, .lock "flow" "a"), (30000000900, .lockCount "flow" "a"), (30000000900, .lock "flow" "b")]

theorem lock_managers_part_within_microsecond :
    ¬ ∀ (timeout start : ℤ) (calls : List (ℤ × LockCall)),
      (MemoryLockManager timeout start).Along (Admitted timeout) ⟨start, HashMap.empty⟩ calls →
      ((MemoryLockManager timeout start).replies ⟨start, HashMap.empty⟩ calls).map
          LockReply.outcome =
        ((PostgresLockManager.onNanoseconds timeout start fun _ => true).replies
          ⟨start, HashMap.empty⟩ calls).map LockReply.outcome := by
  intro h
  have hsame :=
    h 30000000000 0 withinMicrosecond (Service.along_of_check admitted_of_check (by decide))
  have hmemory :
      ((MemoryLockManager 30000000000 0).replies ⟨0, HashMap.empty⟩ withinMicrosecond).map
          LockReply.outcome =
        [some (.inl (.ok ⟨"flow", "a"⟩)), some (.inr 0), some (.inl (.ok ⟨"flow", "b"⟩))] := by rfl
  have hpostgres :
      ((PostgresLockManager.onNanoseconds 30000000000 0 fun _ => true).replies ⟨0, HashMap.empty⟩
        withinMicrosecond).map LockReply.outcome =
        [some (.inl (.ok ⟨"flow", "a"⟩)), some (.inr 1),
          some (.inl (.error (.lockAlreadyHeld "flow" "a" "b")))] := by rfl
  rw [hmemory, hpostgres] at hsame
  exact absurd hsame (by simp)

end Facet.Lock
