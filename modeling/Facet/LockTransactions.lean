import Facet.LockRetries
import Facet.RowLocks
import Facet.Machine

/-!
# Lock calls at the same time in Postgres

The calls of any number of processes on the table `distributed_locks`, one step for each statement
of their transactions at the isolation level `READ COMMITTED`. A statement waits for the rows that
another transaction has locked, and an insert that meets a row locks it, also when the row is of
another owner. Every process has a clock of its own: a reading is any instant. A statement or a
commit may fail at any time; a commit that failed may have been applied.
-/
namespace Facet.Lock.Transactions
open RowLocks

/-- A call before its next statement. `purged` and `removed` are the rows that its `DELETE` has
met. -/
inductive Phase
  | beginning (identifier owner : String) (attempt : ℕ)
  | cleaning (identifier owner : String) (attempt : ℕ) (now : ℤ) (purged : List String)
  | inserting (identifier owner : String) (attempt : ℕ) (now : ℤ) (purged : List String)
  | acquired (identifier owner : String) (now : ℤ) (purged : List String)
  | conflicting (identifier owner : String) (attempt : ℕ) (now : ℤ) (purged : List String)
  | answered (identifier owner : String) (attempt : ℕ) (now : ℤ) (purged : List String)
      (existing : Option String)
  | updating (identifier owner : String) (guard : ℕ)
  | missing (identifier owner : String)
  | deleting (identifier owner : String) (guard : ℕ)
  | unlocked (identifier owner : String) (guard : ℕ)
  | releasing (owner : String) (removed : List String)

/-- What a transaction has done once it is committed. -/
inductive Effect
  | locked (identifier owner : String) (now : ℤ) (purged : List String)
  | refused (identifier owner : String) (now : ℤ) (purged : List String)
  | unlocked (identifier owner : String) (guard : ℕ)
  | released (owner : String) (removed : List String)
  deriving DecidableEq

/-- The effect and the reply of a call whose transaction is about to commit. -/
def Phase.outcome : Phase → Option (Effect × Except LockError Unit)
  | .acquired identifier owner now purged => some (.locked identifier owner now purged, .ok ())
  | .answered identifier owner _ now purged (some existing) =>
    some (.refused identifier owner now purged, .error (.lockAlreadyHeld identifier existing owner))
  | .unlocked identifier owner guard => some (.unlocked identifier owner guard, .ok ())
  | .releasing owner removed => some (.released owner removed, .ok ())
  | _ => none

structure Entry where
  call : ℕ
  effect : Option Effect
  reply : Except LockError Unit

/-- The calls that have ended, the latest to commit first, and all that have started. -/
structure State where
  rows : Rows String LockRecord
  calls : HashMap ℕ Phase
  started : List ℕ
  history : List Entry

/-- `guard` is the call whose guard a dropped guard is. `waited` says that the row of the update was
locked, and was gone when its turn came. -/
inductive Label
  | lock (call : ℕ) (identifier owner : String)
  | unlock (call : ℕ) (identifier owner : String) (guard : ℕ)
  | releaseLocks (call : ℕ) (owner : String)
  | clock (call : ℕ) (now : ℤ) (cleanup : Bool)
  | delete (call : ℕ) (row : String)
  | deleted (call : ℕ)
  | insert (call : ℕ)
  | select (call : ℕ)
  | update (call : ℕ) (waited : Bool)
  | commit (call : ℕ)
  | fail (call : ℕ) (message : String) (applied : Bool)

namespace State

def enter (s : State) (call : ℕ) (phase : Phase) : Option State :=
  if call ∈ s.started then none
  else some { s with calls := s.calls.insert call phase, started := call :: s.started }

def move (s : State) (call : ℕ) (phase : Phase) : State :=
  { s with calls := s.calls.insert call phase }

def write (s : State) (call : ℕ) (row : String) (version : Option LockRecord)
    (phase : Phase) : State :=
  { s with rows := s.rows.write call row version, calls := s.calls.insert call phase }

def finish (s : State) (call : ℕ) (rows : Rows String LockRecord) (effect : Option Effect)
    (reply : Except LockError Unit) : State :=
  { s with
    rows := rows, calls := s.calls.remove call, history := ⟨call, effect, reply⟩ :: s.history }

/-- The transaction is rolled back and the call fails. -/
def abort (s : State) (call : ℕ) (e : LockError) : State :=
  s.finish call (s.rows.rollback call) none (.error e)

end State

/-- `INSERT .. ON CONFLICT DO UPDATE .. WHERE owner = EXCLUDED.owner`. -/
def insertRow (s : State) (call : ℕ) (identifier owner : String) (attempt : ℕ) (now : ℤ)
    (purged : List String) : State :=
  match s.rows.version call identifier with
  | none => s.write call identifier (some ⟨owner, now, 1⟩) (.acquired identifier owner now purged)
  | some row =>
    if row.owner = owner then
      if row.reentrantCount + 1 < 2 ^ 31 then
        s.write call identifier
          (some { row with acquiredAt := now, reentrantCount := row.reentrantCount + 1 })
          (.acquired identifier owner now purged)
      else s.abort call Postgres.outOfRange
    else s.write call identifier (some row) (.conflicting identifier owner attempt now purged)

/-- `UPDATE .. SET reentrant_count = reentrant_count - 1`: a row that does not match is not waited
for. -/
def updateRow (s : State) (call : ℕ) (identifier owner : String) (guard : ℕ) (waited : Bool) :
    Option State :=
  match s.rows.version call identifier with
  | none => some (s.move call (.missing identifier owner))
  | some row =>
    if row.owner = owner ∧ 0 < row.reentrantCount then
      if s.rows.free call identifier then
        some (s.write call identifier (some { row with reentrantCount := row.reentrantCount - 1 })
          (.deleting identifier owner guard))
      else if waited then some (s.move call (.missing identifier owner)) else none
    else some (s.move call (.missing identifier owner))

/-- `DELETE .. WHERE reentrant_count <= 0`, after the update. -/
def deleteEmpty (s : State) (call : ℕ) (identifier owner : String) (guard : ℕ) : State :=
  match s.rows.version call identifier with
  | none => s.move call (.unlocked identifier owner guard)
  | some row =>
    if row.owner = owner ∧ row.reentrantCount = 0 then
      s.write call identifier none (.unlocked identifier owner guard)
    else s.move call (.unlocked identifier owner guard)

/-- The row of a `DELETE`, if it is free and matches. -/
def deleteRow (s : State) (call : ℕ) (row : String) (matching : LockRecord → Bool)
    (phase : Phase) : Option State :=
  match s.rows.version call row with
  | none => none
  | some r => if matching r ∧ s.rows.free call row then some (s.write call row none phase) else none

/-- The end of an attempt that found no row after its conflict. -/
def retry (retries : ℕ) (s : State) (call : ℕ) (identifier owner : String) (attempt : ℕ) : State :=
  if Postgres.maxRetries ≤ attempt then
    s.finish call (s.rows.commit call) none (.error Postgres.exceededRetryLimit)
  else if attempt + 1 ≤ retries then
    { s with rows := s.rows.commit call }.move call (.beginning identifier owner (attempt + 1))
  else s.finish call (s.rows.commit call) none (.error Postgres.unexpectedEnd)

/-- What the failed update of an unlock makes of the owner that it finds. -/
def unlockError (identifier owner : String) : Option LockRecord → LockError
  | some row =>
    if row.owner ≠ owner then .lockAlreadyHeld identifier row.owner owner
    else .lockNotFound identifier owner
  | none => .lockNotFound identifier owner

def next (timeout : ℤ) (retries : ℕ) (s : State) : Label → Option State
  | .lock call identifier owner => s.enter call (.beginning identifier owner 0)
  | .unlock call identifier owner guard => s.enter call (.updating identifier owner guard)
  | .releaseLocks call owner => s.enter call (.releasing owner [])
  | .clock call now cleanup =>
    match s.calls.get call with
    | some (.beginning identifier owner attempt) =>
      some (s.move call (if attempt = 0 ∧ cleanup then .cleaning identifier owner attempt now []
        else .inserting identifier owner attempt now []))
    | _ => none
  | .delete call row =>
    match s.calls.get call with
    | some (.cleaning identifier owner attempt now purged) =>
      deleteRow s call row (fun r => r.acquiredAt < now - timeout)
        (.cleaning identifier owner attempt now (row :: purged))
    | some (.releasing owner removed) =>
      deleteRow s call row (fun r => r.owner = owner) (.releasing owner (row :: removed))
    | _ => none
  | .deleted call =>
    match s.calls.get call with
    | some (.cleaning identifier owner attempt now purged) =>
      some (s.move call (.inserting identifier owner attempt now purged))
    | some (.deleting identifier owner guard) => some (deleteEmpty s call identifier owner guard)
    | _ => none
  | .insert call =>
    match s.calls.get call with
    | some (.inserting identifier owner attempt now purged) =>
      if s.rows.free call identifier then
        some (insertRow s call identifier owner attempt now purged)
      else none
    | _ => none
  | .select call =>
    match s.calls.get call with
    | some (.conflicting identifier owner attempt now purged) =>
      some (s.move call
        (.answered identifier owner attempt now purged
          ((s.rows.version call identifier).map (·.owner))))
    | some (.missing identifier owner) =>
      some (s.abort call (unlockError identifier owner (s.rows.version call identifier)))
    | _ => none
  | .update call waited =>
    match s.calls.get call with
    | some (.updating identifier owner guard) => updateRow s call identifier owner guard waited
    | _ => none
  | .commit call =>
    match s.calls.get call with
    | some (.answered identifier owner attempt _ _ none) =>
      some (retry retries s call identifier owner attempt)
    | some phase => phase.outcome.map fun outcome =>
        s.finish call (s.rows.commit call) (some outcome.1) outcome.2
    | none => none
  | .fail call message applied =>
    match s.calls.get call with
    | some phase =>
      if applied then phase.outcome.map fun outcome =>
        s.finish call (s.rows.commit call) (some outcome.1) (.error (.storeError message))
      else some (s.abort call (.storeError message))
    | none => none

def machine (timeout : ℤ) (retries : ℕ) : Machine State Label where
  init s := s = ⟨Rows.empty, HashMap.empty, [], []⟩
  next := next timeout retries

/-! ## One call after the other -/

/-- The table without the rows that a `DELETE` met. -/
def clear (table : LockTable) (rows : List String) : LockTable := table.retain fun k _ => k ∉ rows

/-- The effect and the reply of a call that runs alone, but for its `DELETE`, which takes away some
of the rows that match: those that another call commits meanwhile are not seen. -/
inductive Executes (timeout : ℤ) : Effect → Except LockError Unit → LockTable → LockTable → Prop
  | locked {identifier owner : String} {now : ℤ} {purged : List String} {table table' : LockTable}
      (expired : ∀ k ∈ purged, ∃ row, table.get k = some row ∧ row.acquiredAt < now - timeout)
      (run : Postgres.lock timeout now false (clear table purged) identifier owner =
        (.ok ⟨identifier, owner⟩, table')) :
    Executes timeout (.locked identifier owner now purged) (.ok ()) table table'
  | refused {identifier owner existing : String} {now : ℤ} {purged : List String}
      {table table' : LockTable}
      (expired : ∀ k ∈ purged, ∃ row, table.get k = some row ∧ row.acquiredAt < now - timeout)
      (run : Postgres.lock timeout now false (clear table purged) identifier owner =
        (.error (.lockAlreadyHeld identifier existing owner), table')) :
    Executes timeout (.refused identifier owner now purged)
      (.error (.lockAlreadyHeld identifier existing owner))
      table table'
  | unlocked {identifier owner : String} {guard : ℕ} {table table' : LockTable}
      (run : Postgres.unlock table identifier owner = (.ok (), table')) :
    Executes timeout (.unlocked identifier owner guard) (.ok ()) table table'
  | released {owner : String} {removed : List String} {table : LockTable}
      (owned : ∀ k ∈ removed, ∃ row, table.get k = some row ∧ row.owner = owner) :
    Executes timeout (.released owner removed) (.ok ()) table (clear table removed)

/-- The table after calls that ran one after the other, the last of which is the first. A call
without an effect failed, and not for want of retries. One with an effect had the reply of its run,
or lost it at the commit. -/
inductive Serial (timeout : ℤ) : List Entry → LockTable → Prop
  | start : Serial timeout [] HashMap.empty
  | failed {history : List Entry} {table : LockTable} (before : Serial timeout history table)
      (call : ℕ) (e : LockError)
      (other : e ≠ Postgres.exceededRetryLimit ∧ e ≠ Postgres.unexpectedEnd) :
    Serial timeout (⟨call, none, .error e⟩ :: history) table
  | ran {history : List Entry} {table table' : LockTable} {effect : Effect}
      {reply reply' : Except LockError Unit} (before : Serial timeout history table) (call : ℕ)
      (run : Executes timeout effect reply table table')
      (replied : reply' = reply ∨ ∃ message, reply' = .error (.storeError message)) :
    Serial timeout (⟨call, some effect, reply'⟩ :: history) table'

/-- The `DELETE` of the call, if it has one, takes away every row that matches. -/
def Effect.Sweeps (timeout : ℤ) (cleanup : Bool) (table : LockTable) : Effect → Prop
  | .locked _ _ now purged | .refused _ _ now purged =>
    if cleanup then
      ∀ k row, table.get k = some row → row.acquiredAt < now - timeout → k ∈ purged
    else purged = []
  | .unlocked _ _ _ => True
  | .released owner removed => ∀ k row, table.get k = some row → row.owner = owner → k ∈ removed

/-- The call with nothing else going on. -/
def Effect.alone (timeout : ℤ) (cleanup : Bool) (table : LockTable) :
    Effect → Except LockError Unit × LockTable
  | .locked identifier owner now _ | .refused identifier owner now _ =>
    ((Postgres.lock timeout now cleanup table identifier owner).1.map fun _ => (),
      (Postgres.lock timeout now cleanup table identifier owner).2)
  | .unlocked identifier owner _ => Postgres.unlock table identifier owner
  | .released owner _ => (.ok (), Postgres.releaseLocks table owner)

theorem retain_eq_clear {table : LockTable} {keep : String → LockRecord → Bool} {rows : List String}
    (h : ∀ k row, table.get k = some row → (keep k row = false ↔ k ∈ rows)) :
    table.retain keep = clear table rows := by
  have hentries : table.entries.filter (fun e => keep e.1 e.2) =
      table.entries.filter (fun e => e.1 ∉ rows) := by
    refine List.filter_congr fun e he => ?_
    have hrow := h e.1 e.2 ((HashMap.get_eq_some_iff table).mpr he)
    cases hkeep : keep e.1 e.2 with
    | true =>
      have hnot : e.1 ∉ rows := fun hmem => absurd (hkeep.symm.trans (hrow.mpr hmem)) (by simp)
      simp [hnot]
    | false => simp [hrow.mp hkeep]
  simp only [clear, HashMap.retain, hentries]

/-- A clean-up that meets every expired row is that of a call which runs alone. -/
theorem purge_eq_clear {timeout now : ℤ} {table : LockTable} {purged : List String}
    (h : ∀ k row, table.get k = some row → (row.acquiredAt < now - timeout ↔ k ∈ purged)) :
    Postgres.purge (now - timeout) table = clear table purged := by
  refine retain_eq_clear fun k row hrow => ?_
  rw [← h k row hrow, decide_eq_false_iff_not, not_le]

theorem releaseLocks_eq_clear {table : LockTable} {o : String} {removed : List String}
    (h : ∀ k row, table.get k = some row → (row.owner = o ↔ k ∈ removed)) :
    Postgres.releaseLocks table o = clear table removed :=
  retain_eq_clear fun k row hrow => by simp [← h k row hrow]

theorem clear_nil (table : LockTable) : clear table [] = table := by
  apply HashMap.eq_of_entries
  simp [clear, HashMap.retain]

/-- The clean-up of a `lock` that does not overflow the count comes first. -/
theorem lock_cleanup {timeout now : ℤ} {table : LockTable} {i o : String}
    (h : (Postgres.lock timeout now false (Postgres.purge (now - timeout) table) i o).1 ≠
      .error Postgres.outOfRange) :
    Postgres.lock timeout now true table i o =
      Postgres.lock timeout now false (Postgres.purge (now - timeout) table) i o := by
  simp only [Postgres.lock, Postgres.lockAt, if_true, Bool.false_eq_true, if_false] at h ⊢
  cases hget : (Postgres.purge (now - timeout) table).get i with
  | none => rfl
  | some row =>
    dsimp only
    split_ifs with howner hfits
    · rfl
    · simp only [hget, if_pos howner, if_neg hfits] at h
      exact absurd rfl h
    · rfl

section Alone
variable {timeout now : ℤ} {cleanup : Bool} {table table' : LockTable} {i o : String}
  {purged : List String}

theorem lock_of_clear {result : Except LockError LockGuard}
    (hresult : result ≠ .error Postgres.outOfRange)
    (hexpired : ∀ k ∈ purged, ∃ row, table.get k = some row ∧ row.acquiredAt < now - timeout)
    (hsweeps : if cleanup then
      ∀ k row, table.get k = some row → row.acquiredAt < now - timeout → k ∈ purged
      else purged = [])
    (h : Postgres.lock timeout now false (clear table purged) i o = (result, table')) :
    Postgres.lock timeout now cleanup table i o = (result, table') := by
  cases cleanup with
  | false =>
    obtain rfl : purged = [] := hsweeps
    rwa [clear_nil] at h
  | true =>
    have hcleared : Postgres.purge (now - timeout) table = clear table purged := by
      refine purge_eq_clear fun k row hrow => ⟨hsweeps k row hrow, fun hmem => ?_⟩
      obtain ⟨row', hrow', hold⟩ := hexpired k hmem
      obtain rfl := Option.some.inj (hrow.symm.trans hrow')
      exact hold
    rw [lock_cleanup, hcleared, h]
    rw [hcleared, h]
    exact hresult

theorem Executes.alone {effect : Effect} {reply : Except LockError Unit}
    (h : Executes timeout effect reply table table')
    (hsweeps : effect.Sweeps timeout cleanup table) :
    effect.alone timeout cleanup table = (reply, table') := by
  cases h with
  | locked expired run =>
    rw [Effect.alone, lock_of_clear (by simp) expired hsweeps run]
    rfl
  | refused expired run =>
    rw [Effect.alone, lock_of_clear (by simp [Postgres.outOfRange]) expired hsweeps run]
    rfl
  | unlocked run => exact run
  | @released owner removed _ owned =>
    have hcleared : Postgres.releaseLocks table owner = clear table removed := by
      refine releaseLocks_eq_clear fun k row hrow => ⟨hsweeps k row hrow, fun hmem => ?_⟩
      obtain ⟨row', hrow', howner⟩ := owned k hmem
      obtain rfl := Option.some.inj (hrow.symm.trans hrow')
      exact howner
    rw [Effect.alone, hcleared]

end Alone

/-! ## What a transaction has made of its rows -/

/-- A row that the clean-up has met. -/
def Purged (timeout now : ℤ) (purged : List String) (k : String)
    (base v : Option LockRecord) : Prop :=
  k ∈ purged ∧ v = none ∧ ∃ row, base = some row ∧ row.acquiredAt < now - timeout

/-- What the insert found, after the clean-up. -/
def found (purged : List String) (identifier : String) (base : Option LockRecord) :
    Option LockRecord :=
  if identifier ∈ purged then none else base

/-- The new record, or the one more count of the owner's. -/
def Acquires (owner : String) (now : ℤ) (row v : Option LockRecord) : Prop :=
  row = none ∧ v = some ⟨owner, now, 1⟩ ∨ ∃ r, row = some r ∧ r.owner = owner ∧
    r.reentrantCount + 1 < 2 ^ 31 ∧
    v = some { r with acquiredAt := now, reentrantCount := r.reentrantCount + 1 }

def GivesBack (owner : String) (base v : Option LockRecord) : Prop :=
  ∃ r, base = some r ∧ r.owner = owner ∧ 0 < r.reentrantCount ∧
    v =
      if r.reentrantCount - 1 = 0 then none
      else some { r with reentrantCount := r.reentrantCount - 1 }

/-- The rows that a transaction has locked by now. -/
def Phase.locked : Phase → List String
  | .cleaning _ _ _ _ purged | .inserting _ _ _ _ purged => purged
  | .acquired identifier _ _ purged | .conflicting identifier _ _ _ purged
  | .answered identifier _ _ _ purged _ =>
    identifier :: purged
  | .deleting identifier _ _ | .unlocked identifier _ _ => [identifier]
  | .releasing _ removed => removed
  | .beginning _ _ _ | .updating _ _ _ | .missing _ _ => []

/-- The committed version of a row that it has locked, and what it has made of it. -/
def Phase.Made (timeout : ℤ) : Phase → String → Option LockRecord → Option LockRecord → Prop
  | .cleaning _ _ _ now purged, k, base, v | .inserting _ _ _ now purged, k, base, v =>
    Purged timeout now purged k base v
  | .acquired identifier owner now purged, k, base, v =>
    (k ∈ purged → ∃ row, base = some row ∧ row.acquiredAt < now - timeout) ∧
      if k = identifier then Acquires owner now (found purged k base) v else v = none
  | .conflicting identifier owner _ now purged, k, base, v =>
    if k = identifier then k ∉ purged ∧ v = base ∧ ∃ r, base = some r ∧ r.owner ≠ owner
    else Purged timeout now purged k base v
  | .answered identifier owner _ now purged existing, k, base, v =>
    if k = identifier then k ∉ purged ∧ v = base ∧ ∃ r, base = some r ∧ r.owner ≠ owner ∧
      existing = some r.owner
    else Purged timeout now purged k base v
  | .deleting identifier owner _, k, base, v =>
    k = identifier ∧ ∃ r, base = some r ∧ r.owner = owner ∧
      0 < r.reentrantCount ∧ v = some { r with reentrantCount := r.reentrantCount - 1 }
  | .unlocked identifier owner _, k, base, v => k = identifier ∧ GivesBack owner base v
  | .releasing owner _, _, base, v => v = none ∧ ∃ row, base = some row ∧ row.owner = owner
  | .beginning _ _ _, _, _, _ | .updating _ _ _, _, _, _ | .missing _ _, _, _, _ => False

def Phase.attempt : Phase → ℕ
  | .beginning _ _ attempt | .cleaning _ _ attempt _ _ | .inserting _ _ attempt _ _
  | .conflicting _ _ attempt _ _
  | .answered _ _ attempt _ _ _ => attempt
  | _ => 0

/-- A transaction has locked the rows of its phase, with what it made of them. -/
structure Phase.Sound (timeout : ℤ) (phase : Phase) (rows : Rows String LockRecord)
    (call : ℕ) : Prop where
  locks : ∀ k, rows.Locks call k ↔ k ∈ phase.locked
  made : rows.Based call (phase.Made timeout)
  first : phase.attempt = 0

/-- Only open transactions have locked rows, and the committed rows are those of calls that ran one
after the other. -/
structure Inv (timeout : ℤ) (s : State) : Prop where
  sound : ∀ call phase, s.calls.get call = some phase → phase.Sound timeout s.rows call
  opened : ∀ call k, s.rows.Locks call k → (s.calls.get call).isSome
  fresh : ∀ call phase, s.calls.get call = some phase → call ∈ s.started
  ended : ∀ entry ∈ s.history, entry.call ∈ s.started ∧ s.calls.get entry.call = none
  apart : (s.history.map Entry.call).Nodup
  serial : ∃ table, Serial timeout s.history table ∧ ∀ k, s.rows.committed k = table.get k

section Sound
variable {timeout now : ℤ} {rows : Rows String LockRecord} {c d : ℕ} {i o k : String}
  {attempt guard : ℕ} {purged : List String} {phase : Phase} {r : LockRecord}
  {v : Option LockRecord}

theorem Phase.Sound.write_other (h : phase.Sound timeout rows d) (hne : d ≠ c)
    (hfree : rows.free c k = true) : phase.Sound timeout (rows.write c k v) d where
  locks j := by
    rw [Rows.locks_write hfree, ← h.locks j]
    exact or_iff_left fun heq => hne heq.2
  made := h.made.write_other hne
  first := h.first

theorem Phase.Sound.commit_other (h : phase.Sound timeout rows d) (hne : d ≠ c) :
    phase.Sound timeout (rows.commit c) d where
  locks j := by
    rw [Rows.locks_commit, ← h.locks j]
    exact and_iff_left hne
  made := h.made.commit_other hne
  first := h.first

theorem Phase.Sound.rollback_other (h : phase.Sound timeout rows d) (hne : d ≠ c) :
    phase.Sound timeout (rows.rollback c) d where
  locks j := by
    rw [Rows.locks_rollback, ← h.locks j]
    exact and_iff_left hne
  made := h.made.rollback_other
  first := h.first

theorem Phase.Sound.of_not_locks (h : ∀ k, ¬ rows.Locks c k) (hnothing : phase.locked = [])
    (hfirst : phase.attempt = 0) : phase.Sound timeout rows c where
  locks k := by
    rw [hnothing]
    exact iff_of_false (h k) List.not_mem_nil
  made := Rows.Based.of_not_locks h
  first := hfirst

theorem Phase.Sound.version_of_notMem (h : phase.Sound timeout rows c) (hk : k ∉ phase.locked) :
    rows.version c k = rows.committed k :=
  Rows.version_of_not_locks fun hlocks => hk ((h.locks k).mp hlocks)

theorem Phase.Sound.version_of_mem (h : phase.Sound timeout rows c) (hk : k ∈ phase.locked) :
    phase.Made timeout k (rows.committed k) (rows.version c k) :=
  h.made.version ((h.locks k).mpr hk)

/-- The locks after a write that adds a row to them, or meets one of them. -/
theorem Phase.Sound.locks_write {phase' : Phase} (h : phase.Sound timeout rows c)
    (hfree : rows.free c k = true) (hlocked : ∀ j, j ∈ phase'.locked ↔ j = k ∨ j ∈ phase.locked)
    (j : String) : (rows.write c k v).Locks c j ↔ j ∈ phase'.locked := by
  rw [Rows.locks_write hfree, h.locks j, hlocked j]
  simp [or_comm]

theorem Phase.Sound.clean (h : (Phase.cleaning i o attempt now purged).Sound timeout rows c)
    (hv : rows.version c k = some r) (hexpired : r.acquiredAt < now - timeout)
    (hfree : rows.free c k = true) :
    (Phase.cleaning i o attempt now (k :: purged)).Sound timeout (rows.write c k none) c where
  locks := h.locks_write hfree fun j => List.mem_cons
  made := by
    have hk : k ∉ purged := by
      intro hmem
      have hmade : Purged timeout now purged k _ _ := h.version_of_mem hmem
      exact absurd (hv.symm.trans hmade.2.1) (by simp)
    have hbase : rows.committed k = some r := (h.version_of_notMem hk).symm.trans hv
    refine Rows.Based.write_self ?_ ⟨List.mem_cons_self, rfl, r, hbase, hexpired⟩
    intro j w _ hj
    have hmade : Purged timeout now purged j _ w := h.made j w hj
    exact ⟨List.mem_cons_of_mem _ hmade.1, hmade.2⟩
  first := h.first

theorem Phase.Sound.release {removed : List String}
    (h : (Phase.releasing o removed).Sound timeout rows c) (hv : rows.version c k = some r)
    (howner : r.owner = o) (hfree : rows.free c k = true) :
    (Phase.releasing o (k :: removed)).Sound timeout (rows.write c k none) c where
  locks := h.locks_write hfree fun j => List.mem_cons
  made := by
    have hk : k ∉ removed := by
      intro hmem
      have hmade := h.version_of_mem hmem
      exact absurd (hv.symm.trans hmade.1) (by simp)
    have hbase : rows.committed k = some r := (h.version_of_notMem hk).symm.trans hv
    exact Rows.Based.write_self (fun j w _ hj => h.made j w hj) ⟨rfl, r, hbase, howner⟩
  first := rfl

theorem Phase.Sound.version_found
    (h : (Phase.inserting i o attempt now purged).Sound timeout rows c) :
    rows.version c i = found purged i (rows.committed i) := by
  unfold found
  split_ifs with hi
  · have hmade : Purged timeout now purged i _ _ := h.version_of_mem hi
    exact hmade.2.1
  · exact h.version_of_notMem hi

theorem Phase.Sound.acquire (h : (Phase.inserting i o attempt now purged).Sound timeout rows c)
    (hfree : rows.free c i = true) (hv : Acquires o now (rows.version c i) v) :
    (Phase.acquired i o now purged).Sound timeout (rows.write c i v) c where
  locks := h.locks_write hfree fun j => List.mem_cons
  made := by
    refine Rows.Based.write_self ?_ ⟨?_, ?_⟩
    · intro j w hne hj
      have hmade : Purged timeout now purged j _ w := h.made j w hj
      refine ⟨fun _ => hmade.2.2, ?_⟩
      rw [if_neg hne]
      exact hmade.2.1
    · intro hi
      have hmade : Purged timeout now purged i _ _ := h.version_of_mem hi
      exact hmade.2.2
    · rw [if_pos rfl, ← h.version_found]
      exact hv
  first := rfl

theorem Phase.Sound.conflict (h : (Phase.inserting i o attempt now purged).Sound timeout rows c)
    (hfree : rows.free c i = true) (hv : rows.version c i = some r) (howner : r.owner ≠ o) :
    (Phase.conflicting i o attempt now purged).Sound timeout (rows.write c i (some r)) c where
  locks := h.locks_write hfree fun j => List.mem_cons
  made := by
    have hi : i ∉ purged := by
      intro hmem
      have hmade : Purged timeout now purged i _ _ := h.version_of_mem hmem
      exact absurd (hv.symm.trans hmade.2.1) (by simp)
    have hbase : rows.committed i = some r := (h.version_of_notMem hi).symm.trans hv
    refine Rows.Based.write_self ?_ ?_
    · intro j w hne hj
      simp only [Phase.Made, if_neg hne]
      exact h.made j w hj
    · simp only [Phase.Made, if_true]
      exact ⟨hi, hbase.symm, r, hbase, howner⟩
  first := h.first

theorem Phase.Sound.answer (h : (Phase.conflicting i o attempt now purged).Sound timeout rows c) :
    (Phase.answered i o attempt now purged ((rows.version c i).map (·.owner))).Sound
      timeout rows c where
  locks := h.locks
  made := by
    intro j w hj
    have hmade := h.made j w hj
    simp only [Phase.Made] at hmade ⊢
    split_ifs at hmade ⊢ with hji
    · subst hji
      obtain ⟨hk, rfl, r, hbase, howner⟩ := hmade
      refine ⟨hk, rfl, r, hbase, howner, ?_⟩
      rw [Rows.version_of_locked hj, hbase]
      rfl
    · exact hmade
  first := h.first

theorem Phase.Sound.existing {existing : Option String}
    (h : (Phase.answered i o attempt now purged existing).Sound timeout rows c) :
    existing ≠ none := by
  have hmade := h.version_of_mem (k := i) List.mem_cons_self
  simp only [Phase.Made, if_true] at hmade
  obtain ⟨-, -, r, -, -, hexisting⟩ := hmade
  rw [hexisting]
  simp

theorem Phase.Sound.decrement (h : (Phase.updating i o guard).Sound timeout rows c)
    (hfree : rows.free c i = true) (hv : rows.version c i = some r) (howner : r.owner = o)
    (hpos : 0 < r.reentrantCount) : (Phase.deleting i o guard).Sound timeout
      (rows.write c i (some { r with reentrantCount := r.reentrantCount - 1 })) c where
  locks := h.locks_write hfree fun j => by simp [Phase.locked]
  made := by
    have hbase : rows.committed i = some r := (h.version_of_notMem List.not_mem_nil).symm.trans hv
    refine Rows.Based.write_self ?_ ⟨rfl, r, hbase, howner, hpos, rfl⟩
    intro j w _ hj
    exact absurd (h.made j w hj) id
  first := rfl

/-- The `DELETE` after the update takes the row away when its count has come down to zero. -/
theorem Phase.Sound.empty (h : (Phase.deleting i o guard).Sound timeout rows c)
    (hv : rows.version c i = some r) (hzero : r.reentrantCount = 0) (hfree : rows.free c i = true) :
    (Phase.unlocked i o guard).Sound timeout (rows.write c i none) c where
  locks := h.locks_write hfree fun j => by simp [Phase.locked]
  made := by
    have hmade := h.version_of_mem (k := i) List.mem_cons_self
    obtain ⟨-, base, hbase, howner, hpos, hversion⟩ := hmade
    obtain rfl := Option.some.inj (hv.symm.trans hversion)
    refine Rows.Based.write_self ?_ ⟨rfl, base, hbase, howner, hpos, (if_pos hzero).symm⟩
    intro j w hne hj
    exact absurd (h.made j w hj).1 hne
  first := rfl

theorem Phase.Sound.keep (h : (Phase.deleting i o guard).Sound timeout rows c)
    (hv : ∀ r, rows.version c i = some r → r.owner = o → r.reentrantCount ≠ 0) :
    (Phase.unlocked i o guard).Sound timeout rows c where
  locks := h.locks
  made := by
    intro j w hj
    obtain ⟨rfl, base, hbase, howner, hpos, rfl⟩ := h.made j w hj
    refine ⟨rfl, base, hbase, howner, hpos, ?_⟩
    exact (if_neg (hv _ (Rows.version_of_locked hj) howner)).symm
  first := rfl

theorem Phase.Sound.free_of_mem (h : phase.Sound timeout rows c) (hk : k ∈ phase.locked) :
    rows.free c k = true :=
  Rows.free_iff.mpr fun _ hlocks => hlocks.unique ((h.locks k).mpr hk)

end Sound

/-! ## One step -/

/-- A call that starts, moves on, possibly with a row that it writes, fails, or commits what it has
made. -/
inductive Shape (timeout : ℤ) (s : State) : State → Prop
  | entered (call : ℕ) (phase : Phase) (new : call ∉ s.started) (nothing : phase.locked = [])
      (first : phase.attempt = 0) :
    Shape timeout s { s with calls := s.calls.insert call phase, started := call :: s.started }
  | moved {call : ℕ} {phase : Phase} (current : s.calls.get call = some phase) (phase' : Phase)
      (sound : phase'.Sound timeout s.rows call) : Shape timeout s (s.move call phase')
  | wrote {call : ℕ} {phase : Phase} (current : s.calls.get call = some phase) {row : String}
      (version : Option LockRecord) (phase' : Phase) (free : s.rows.free call row = true)
      (sound : phase'.Sound timeout (s.rows.write call row version) call) :
    Shape timeout s (s.write call row version phase')
  | aborted {call : ℕ} {phase : Phase} (current : s.calls.get call = some phase) (e : LockError)
      (other : e ≠ Postgres.exceededRetryLimit ∧ e ≠ Postgres.unexpectedEnd) :
      Shape timeout s (s.abort call e)
  | ended {call : ℕ} {phase : Phase} (current : s.calls.get call = some phase) {effect : Effect}
      {reply : Except LockError Unit} (outcome : phase.outcome = some (effect, reply))
      (reply' : Except LockError Unit)
      (replied : reply' = reply ∨ ∃ message, reply' = .error (.storeError message)) :
    Shape timeout s (s.finish call (s.rows.commit call) (some effect) reply')

section Steps
variable {timeout now : ℤ} {retries : ℕ} {s t : State} {l : Label} {c attempt guard : ℕ}
  {i o row : String} {purged : List String} {phase phase' : Phase}

theorem storeError_other (message : String) :
    LockError.storeError message ≠ Postgres.exceededRetryLimit ∧
      LockError.storeError message ≠ Postgres.unexpectedEnd := by
  simp [Postgres.exceededRetryLimit, Postgres.unexpectedEnd]

theorem shape_of_enter (hn : s.enter c phase = some t) (hnothing : phase.locked = [])
    (hfirst : phase.attempt = 0) : Shape timeout s t := by
  unfold State.enter at hn
  split_ifs at hn with hstarted
  exact Option.some.inj hn ▸ .entered c phase hstarted hnothing hfirst

theorem shape_of_deleteRow {matching : LockRecord → Bool} (hcall : s.calls.get c = some phase)
    (hsound : ∀ r, s.rows.version c row = some r → matching r = true → s.rows.free c row = true →
      phase'.Sound timeout (s.rows.write c row none) c)
    (hn : deleteRow s c row matching phase' = some t) : Shape timeout s t := by
  unfold deleteRow at hn
  cases hv : s.rows.version c row with
  | none => simp [hv] at hn
  | some r =>
    simp only [hv] at hn
    split_ifs at hn with hmatch
    exact Option.some.inj hn ▸ .wrote hcall none phase' hmatch.2 (hsound r hv hmatch.1 hmatch.2)

theorem shape_of_insertRow (hcall : s.calls.get c = some (.inserting i o attempt now purged))
    (hsound : (Phase.inserting i o attempt now purged).Sound timeout s.rows c)
    (hfree : s.rows.free c i = true) : Shape timeout s (insertRow s c i o attempt now purged) := by
  unfold insertRow
  cases hv : s.rows.version c i with
  | none => exact .wrote hcall _ _ hfree (hsound.acquire hfree (Or.inl ⟨hv, rfl⟩))
  | some r =>
    dsimp only
    split_ifs with howner hfits
    · exact .wrote hcall _ _ hfree (hsound.acquire hfree (Or.inr ⟨r, hv, howner, hfits, rfl⟩))
    · exact .aborted hcall _ (storeError_other _)
    · exact .wrote hcall _ _ hfree (hsound.conflict hfree hv howner)

theorem shape_of_updateRow {waited : Bool} (hcall : s.calls.get c = some (.updating i o guard))
    (hsound : (Phase.updating i o guard).Sound timeout s.rows c)
    (hn : updateRow s c i o guard waited = some t) : Shape timeout s t := by
  have hmissing : (Phase.missing i o).Sound timeout s.rows c :=
    .of_not_locks (fun k hlocks => absurd ((hsound.locks k).mp hlocks) List.not_mem_nil) rfl rfl
  unfold updateRow at hn
  cases hv : s.rows.version c i with
  | none =>
    simp only [hv] at hn
    exact Option.some.inj hn ▸ .moved hcall _ hmissing
  | some r =>
    simp only [hv] at hn
    split_ifs at hn with hmatch hfree hwaited
    · exact Option.some.inj hn ▸ .wrote hcall _ _ hfree
        (hsound.decrement hfree hv hmatch.1 hmatch.2)
    · exact Option.some.inj hn ▸ .moved hcall _ hmissing
    · exact Option.some.inj hn ▸ .moved hcall _ hmissing

theorem shape_of_deleteEmpty (hcall : s.calls.get c = some (.deleting i o guard))
    (hsound : (Phase.deleting i o guard).Sound timeout s.rows c) :
    Shape timeout s (deleteEmpty s c i o guard) := by
  unfold deleteEmpty
  cases hv : s.rows.version c i with
  | none =>
    refine .moved hcall _ (hsound.keep fun r hr => ?_)
    exact absurd (hr.symm.trans hv) (by simp)
  | some r =>
    dsimp only
    split_ifs with hmatch
    · have hfree := hsound.free_of_mem (k := i) List.mem_cons_self
      exact .wrote hcall _ _ hfree (hsound.empty hv hmatch.2 hfree)
    · refine .moved hcall _ (hsound.keep fun r' hr' howner hzero => hmatch ?_)
      obtain rfl := Option.some.inj (hr'.symm.trans hv)
      exact ⟨howner, hzero⟩

theorem unlockError_other (found : Option LockRecord) :
    unlockError i o found ≠ Postgres.exceededRetryLimit ∧
      unlockError i o found ≠ Postgres.unexpectedEnd := by
  unfold unlockError
  cases found with
  | none => simp [Postgres.exceededRetryLimit, Postgres.unexpectedEnd]
  | some r => dsimp only; split_ifs <;> simp [Postgres.exceededRetryLimit, Postgres.unexpectedEnd]

theorem shape_of_outcome (hcall : s.calls.get c = some phase)
    {reply' : Effect × Except LockError Unit → Except LockError Unit}
    (hreply : ∀ outcome, reply' outcome = outcome.2 ∨
      ∃ message, reply' outcome = .error (.storeError message))
    (hn : (phase.outcome.map fun outcome => s.finish c (s.rows.commit c) (some outcome.1)
      (reply' outcome)) = some t) :
    Shape timeout s t := by
  obtain ⟨outcome, houtcome, rfl⟩ := Option.map_eq_some_iff.mp hn
  exact .ended hcall houtcome _ (hreply outcome)

theorem shape_of_next
    (h : ∀ call phase, s.calls.get call = some phase → phase.Sound timeout s.rows call)
    (hn : next timeout retries s l = some t) : Shape timeout s t := by
  cases l with
  | lock call identifier owner => exact shape_of_enter hn rfl rfl
  | unlock call identifier owner guard => exact shape_of_enter hn rfl rfl
  | releaseLocks call owner => exact shape_of_enter hn rfl rfl
  | clock call now cleanup =>
    simp only [next] at hn
    split at hn
    · rename_i identifier owner attempt hcall
      have hsound := h call _ hcall
      have hnone : ∀ k, ¬ s.rows.Locks call k :=
        fun k hlocks => absurd ((hsound.locks k).mp hlocks) List.not_mem_nil
      refine Option.some.inj hn ▸ .moved hcall _ ?_
      split_ifs
      · exact .of_not_locks hnone rfl hsound.first
      · exact .of_not_locks hnone rfl hsound.first
    · exact absurd hn (by simp)
  | delete call row =>
    simp only [next] at hn
    split at hn
    · rename_i hcall
      refine shape_of_deleteRow hcall (fun r hv hmatch hfree => ?_) hn
      exact (h call _ hcall).clean hv (of_decide_eq_true hmatch) hfree
    · rename_i hcall
      refine shape_of_deleteRow hcall (fun r hv hmatch hfree => ?_) hn
      exact (h call _ hcall).release hv (of_decide_eq_true hmatch) hfree
    · exact absurd hn (by simp)
  | deleted call =>
    simp only [next] at hn
    split at hn
    · rename_i identifier owner attempt now purged hcall
      have hsound := h call _ hcall
      exact Option.some.inj hn ▸ .moved hcall _ ⟨hsound.locks, hsound.made, hsound.first⟩
    · rename_i identifier owner guard hcall
      exact Option.some.inj hn ▸ shape_of_deleteEmpty hcall (h call _ hcall)
    · exact absurd hn (by simp)
  | insert call =>
    simp only [next] at hn
    split at hn
    · rename_i hcall
      split_ifs at hn with hfree
      exact Option.some.inj hn ▸ shape_of_insertRow hcall (h call _ hcall) hfree
    · exact absurd hn (by simp)
  | select call =>
    simp only [next] at hn
    split at hn
    · rename_i hcall
      exact Option.some.inj hn ▸ .moved hcall _ (h call _ hcall).answer
    · rename_i hcall
      exact Option.some.inj hn ▸ .aborted hcall _ (unlockError_other _)
    · exact absurd hn (by simp)
  | update call waited =>
    simp only [next] at hn
    split at hn
    · rename_i hcall
      exact shape_of_updateRow hcall (h call _ hcall) hn
    · exact absurd hn (by simp)
  | commit call =>
    simp only [next] at hn
    split at hn
    · rename_i hcall
      exact absurd rfl (h call _ hcall).existing
    · rename_i phase _ hcall
      exact shape_of_outcome hcall (fun outcome => Or.inl rfl) hn
    · exact absurd hn (by simp)
  | fail call message applied =>
    simp only [next] at hn
    split at hn
    · rename_i phase hcall
      split_ifs at hn
      · exact shape_of_outcome hcall (fun outcome => Or.inr ⟨message, rfl⟩) hn
      · exact Option.some.inj hn ▸ .aborted hcall _ (storeError_other message)
    · exact absurd hn (by simp)

end Steps

/-! ## A committed transaction is a call that ran alone -/

section Serial
variable {timeout now : ℤ} {rows : Rows String LockRecord} {table : LockTable}
  {c guard : ℕ} {i o : String} {purged : List String} {phase : Phase}

theorem get_clear (table : LockTable) (rows : List String) (k : String) :
    (clear table rows).get k = if k ∈ rows then none else table.get k := by
  rw [clear, HashMap.get_retain]
  by_cases hk : k ∈ rows <;> cases table.get k <;> simp [hk]

theorem lock_of_none (h : table.get i = none) :
    Postgres.lock timeout now false table i o = (.ok ⟨i, o⟩, table.insert i ⟨o, now, 1⟩) := by
  simp [Postgres.lock, Postgres.lockAt, h]

theorem lock_of_own {r : LockRecord} (h : table.get i = some r) (howner : r.owner = o)
    (hfits : r.reentrantCount + 1 < 2 ^ 31) : Postgres.lock timeout now false table i o =
      (.ok ⟨i, o⟩,
        table.insert i { r with acquiredAt := now, reentrantCount := r.reentrantCount + 1 }) := by
  simp only [Postgres.lock, Postgres.lockAt, Bool.false_eq_true, if_false, h, howner,
    if_true, if_pos hfits]

theorem lock_of_other {r : LockRecord} (h : table.get i = some r) (howner : r.owner ≠ o) :
    Postgres.lock timeout now false table i o = (.error (.lockAlreadyHeld i r.owner o), table) := by
  simp [Postgres.lock, Postgres.lockAt, h, howner]

theorem unlock_of_own {r : LockRecord} (h : table.get i = some r) (howner : r.owner = o)
    (hpos : 0 < r.reentrantCount) :
    Postgres.unlock table i o = (.ok (), if r.reentrantCount - 1 = 0 then table.remove i
      else table.insert i { r with reentrantCount := r.reentrantCount - 1 }) := by
  simp only [Postgres.unlock, h, howner, hpos, and_self, if_true]
  split_ifs <;> rfl

variable (timeout) in
/-- What an acquisition commits is what `lock` makes of the table after the clean-up. -/
theorem lock_of_acquires
    {v : Option LockRecord} (h : Acquires o now ((clear table purged).get i) v) :
    ∃ table', Postgres.lock timeout now false (clear table purged) i o = (.ok ⟨i, o⟩, table') ∧
      ∀ k, table'.get k = if k = i then v else (clear table purged).get k := by
  rcases h with ⟨hnone, rfl⟩ | ⟨r, hsome, howner, hfits, rfl⟩
  · exact ⟨_, lock_of_none hnone, fun k => by rw [HashMap.get_insert]⟩
  · exact ⟨_, lock_of_own hsome howner hfits, fun k => by rw [HashMap.get_insert]⟩

theorem Phase.Sound.executes (h : phase.Sound timeout rows c)
    (htable : ∀ k, rows.committed k = table.get k) {effect : Effect} {reply : Except LockError Unit}
    (houtcome : phase.outcome = some (effect, reply)) :
    ∃ table', Executes timeout effect reply table table' ∧
      ∀ k, rows.version c k = table'.get k := by
  have hkeep : ∀ k, k ∉ phase.locked → rows.version c k = table.get k :=
    fun k hk => (h.version_of_notMem hk).trans (htable k)
  have hmade : ∀ k, k ∈ phase.locked → phase.Made timeout k (table.get k) (rows.version c k) :=
    fun k hk => htable k ▸ h.version_of_mem hk
  cases phase with
  | acquired i o now purged =>
    obtain ⟨rfl, rfl⟩ := Prod.mk.inj (Option.some.inj houtcome)
    have hi := hmade i List.mem_cons_self
    simp only [Phase.Made, if_true] at hi
    have hacquires : Acquires o now ((clear table purged).get i) (rows.version c i) := by
      rw [get_clear]
      exact hi.2
    obtain ⟨table', hlock, hget⟩ := lock_of_acquires timeout hacquires
    refine ⟨table', .locked (fun k hk => (hmade k (List.mem_cons_of_mem _ hk)).1 hk) hlock, ?_⟩
    intro k
    rw [hget, get_clear]
    split_ifs with hki hk
    · rw [hki]
    · have hk' := (hmade k (List.mem_cons_of_mem _ hk)).2
      rwa [if_neg hki] at hk'
    · exact hkeep k fun hmem => (List.mem_cons.mp hmem).elim hki hk
  | answered i o attempt now purged existing =>
    cases existing with
    | none => exact absurd rfl h.existing
    | some existing =>
      obtain ⟨rfl, rfl⟩ := Prod.mk.inj (Option.some.inj houtcome)
      have hi := hmade i List.mem_cons_self
      simp only [Phase.Made, if_true] at hi
      obtain ⟨hk, hversion, r, hbase, howner, hexisting⟩ := hi
      have hpurged : ∀ k ∈ purged,
          Purged timeout now purged k (table.get k) (rows.version c k) := by
        intro k hmem
        have hne : k ≠ i := fun heq => hk (heq ▸ hmem)
        have hmade' := hmade k (List.mem_cons_of_mem _ hmem)
        simp only [Phase.Made, if_neg hne] at hmade'
        exact hmade'
      have hfound : (clear table purged).get i = some r := by rw [get_clear, if_neg hk, hbase]
      rw [Option.some.inj hexisting]
      refine ⟨_, .refused (fun k hmem => (hpurged k hmem).2.2) (lock_of_other hfound howner), ?_⟩
      intro k
      rw [get_clear]
      split_ifs with hmem
      · exact (hpurged k hmem).2.1
      · by_cases hki : k = i
        · rw [hki, hversion]
        · exact hkeep k fun hlocked => (List.mem_cons.mp hlocked).elim hki hmem
  | unlocked i o guard =>
    obtain ⟨rfl, rfl⟩ := Prod.mk.inj (Option.some.inj houtcome)
    obtain ⟨-, r, hbase, howner, hpos, hversion⟩ := hmade i List.mem_cons_self
    refine ⟨_, .unlocked (unlock_of_own hbase howner hpos), ?_⟩
    intro k
    by_cases hki : k = i
    · rw [hki, hversion]
      split_ifs <;> simp
    · rw [hkeep k fun hmem => hki (List.mem_singleton.mp hmem)]
      split_ifs <;> simp [hki]
  | releasing o removed =>
    obtain ⟨rfl, rfl⟩ := Prod.mk.inj (Option.some.inj houtcome)
    refine ⟨_, .released fun k hk => (hmade k hk).2, ?_⟩
    intro k
    rw [get_clear]
    split_ifs with hk
    · exact (hmade k hk).1
    · exact hkeep k hk
  | beginning => exact absurd houtcome (by simp [Phase.outcome])
  | cleaning => exact absurd houtcome (by simp [Phase.outcome])
  | inserting => exact absurd houtcome (by simp [Phase.outcome])
  | conflicting => exact absurd houtcome (by simp [Phase.outcome])
  | updating => exact absurd houtcome (by simp [Phase.outcome])
  | missing => exact absurd houtcome (by simp [Phase.outcome])
  | deleting => exact absurd houtcome (by simp [Phase.outcome])

end Serial

/-! ## All runs -/

section Runs
variable {timeout : ℤ} {retries : ℕ} {s t : State}

theorem Inv.not_locks (h : Inv timeout s) {c : ℕ} (hnew : c ∉ s.started) (k : String) :
    ¬ s.rows.Locks c k := by
  intro hlocks
  obtain ⟨phase, hphase⟩ := Option.isSome_iff_exists.mp (h.opened c k hlocks)
  exact hnew (h.fresh c phase hphase)

theorem Inv.ended_insert (h : Inv timeout s) {c : ℕ} {phase : Phase}
    (hcall : s.calls.get c = some phase) (phase' : Phase) :
    ∀ entry ∈ s.history, entry.call ∈ s.started ∧
      (s.calls.insert c phase').get entry.call = none := by
  intro entry hentry
  obtain ⟨hstarted, hnone⟩ := h.ended entry hentry
  refine ⟨hstarted, ?_⟩
  rw [HashMap.get_insert, if_neg, hnone]
  intro hsame
  rw [hsame, hcall] at hnone
  exact absurd hnone (by simp)

/-- A call that goes on, with the rows as they are or with one that it writes. -/
theorem Inv.goes_on (h : Inv timeout s) {c : ℕ} {phase phase' : Phase}
    {rows : Rows String LockRecord} (hcall : s.calls.get c = some phase)
    (hsound : phase'.Sound timeout rows c)
    (hothers : ∀ d (phase : Phase), d ≠ c → phase.Sound timeout s.rows d →
      phase.Sound timeout rows d)
    (hlocks : ∀ d k, rows.Locks d k → s.rows.Locks d k ∨ d = c)
    (hcommitted : rows.committed = s.rows.committed) :
    Inv timeout { s with rows := rows, calls := s.calls.insert c phase' } where
  sound d phase hd := by
    rcases HashMap.get_insert_eq_some hd with ⟨rfl, rfl⟩ | ⟨hne, hold⟩
    · exact hsound
    · exact hothers d phase hne (h.sound d phase hold)
  opened d k hd := by
    dsimp only
    rw [HashMap.get_insert]
    split_ifs with hdc
    · rfl
    · exact h.opened d k ((hlocks d k hd).resolve_right hdc)
  fresh d phase hd := by
    rcases HashMap.get_insert_eq_some hd with ⟨rfl, -⟩ | ⟨-, hold⟩
    · exact h.fresh d _ hcall
    · exact h.fresh d phase hold
  ended := h.ended_insert hcall phase'
  apart := h.apart
  serial := by
    dsimp only
    rw [hcommitted]
    exact h.serial

theorem Inv.ends (h : Inv timeout s) {c : ℕ} {phase : Phase} {rows : Rows String LockRecord}
    {effect : Option Effect} {reply : Except LockError Unit} (hcall : s.calls.get c = some phase)
    (hothers : ∀ d (phase : Phase), d ≠ c → phase.Sound timeout s.rows d →
      phase.Sound timeout rows d)
    (hlocks : ∀ d k, rows.Locks d k → s.rows.Locks d k ∧ d ≠ c)
    (hserial : ∃ table, Serial timeout (⟨c, effect, reply⟩ :: s.history) table ∧ ∀ k,
      rows.committed k = table.get k) :
    Inv timeout (s.finish c rows effect reply) where
  sound d phase hd := by
    obtain ⟨hne, hold⟩ := HashMap.get_remove_eq_some hd
    exact hothers d phase hne (h.sound d phase hold)
  opened d k hd := by
    obtain ⟨hold, hne⟩ := hlocks d k hd
    have hopened := h.opened d k hold
    simpa [State.finish, hne] using hopened
  fresh d phase hd := h.fresh d phase (HashMap.get_remove_eq_some hd).2
  ended entry hentry := by
    rcases List.mem_cons.mp hentry with rfl | hold
    · exact ⟨h.fresh c phase hcall, by simp [State.finish]⟩
    · obtain ⟨hstarted, hnone⟩ := h.ended entry hold
      refine ⟨hstarted, ?_⟩
      simp [State.finish, hnone]
  apart := by
    refine List.nodup_cons.mpr ⟨?_, h.apart⟩
    intro hmem
    obtain ⟨entry, hentry, heq⟩ := List.mem_map.mp hmem
    have hnone := (h.ended entry hentry).2
    rw [heq, hcall] at hnone
    exact absurd hnone (by simp)
  serial := hserial

theorem Inv.of_shape (h : Inv timeout s) (hshape : Shape timeout s t) : Inv timeout t := by
  cases hshape with
  | entered c phase hnew hnothing hfirst =>
    refine ⟨?_, ?_, ?_, ?_, h.apart, h.serial⟩
    · intro d phase' hd
      rcases HashMap.get_insert_eq_some hd with ⟨rfl, rfl⟩ | ⟨-, hold⟩
      · exact .of_not_locks (h.not_locks hnew) hnothing hfirst
      · exact h.sound d phase' hold
    · intro d k hd
      have hopened := h.opened d k hd
      dsimp only
      rw [HashMap.get_insert]
      split_ifs
      · rfl
      · exact hopened
    · intro d phase' hd
      rcases HashMap.get_insert_eq_some hd with ⟨rfl, -⟩ | ⟨-, hold⟩
      · exact List.mem_cons_self
      · exact List.mem_cons_of_mem _ (h.fresh d phase' hold)
    · intro entry hentry
      obtain ⟨hstarted, hnone⟩ := h.ended entry hentry
      have hne : entry.call ≠ c := by
        rintro rfl
        exact hnew hstarted
      refine ⟨List.mem_cons_of_mem _ hstarted, ?_⟩
      dsimp only
      rw [HashMap.get_insert, if_neg hne, hnone]
  | moved hcall phase' hsound =>
    exact h.goes_on hcall hsound (fun _ _ _ hd => hd) (fun _ _ hd => Or.inl hd) rfl
  | @wrote c phase hcall row version phase' hfree hsound =>
    refine h.goes_on hcall hsound (fun _ _ hne hd => hd.write_other hne hfree) ?_ rfl
    intro d k hd
    exact ((Rows.locks_write hfree).mp hd).imp_right And.right
  | aborted hcall e hother =>
    refine h.ends hcall (fun _ _ hne hd => hd.rollback_other hne) (fun _ _ hd =>
      Rows.locks_rollback.mp hd) ?_
    obtain ⟨table, hserial, htable⟩ := h.serial
    exact ⟨table, hserial.failed _ e hother, htable⟩
  | @ended c phase hcall effect reply houtcome reply' hreplied =>
    refine h.ends hcall (fun _ _ hne hd => hd.commit_other hne) (fun _ _ hd =>
      Rows.locks_commit.mp hd) ?_
    obtain ⟨table, hserial, htable⟩ := h.serial
    obtain ⟨table', hruns, hversion⟩ := (h.sound c phase hcall).executes htable houtcome
    exact ⟨table', hserial.ran c hruns hreplied, hversion⟩

theorem Inv.of_init (h : (machine timeout retries).init s) : Inv timeout s := by
  obtain rfl : s = _ := h
  refine ⟨by simp, ?_, by simp, by simp, List.nodup_nil, HashMap.empty, .start, fun k => rfl⟩
  intro call k hlocks
  obtain ⟨v, hv⟩ := hlocks
  exact absurd hv (by simp [Rows.empty])

theorem Inv.of_reach {ok : State → Label → State → Prop}
    (h : (machine timeout retries).Reach ok s) : Inv timeout s :=
  h.invariant (fun _ => Inv.of_init) fun _ _ _ hinv hn _ =>
    hinv.of_shape (shape_of_next hinv.sound hn)

end Runs

/-! ## Guards -/

/-- The calls whose guards count in the row of an identifier: those that acquired it since it was
inserted and that no unlock has given back. -/
def standing (identifier : String) : List Entry → List ℕ
  | [] => []
  | entry :: history =>
    match entry.effect with
    | some (.locked i _ _ purged) =>
      let held := if identifier ∈ purged then [] else standing identifier history
      if i = identifier then entry.call :: held else held
    | some (.refused _ _ _ purged) =>
      if identifier ∈ purged then [] else standing identifier history
    | some (.unlocked i _ guard) =>
      if i = identifier then (standing identifier history).erase guard
      else standing identifier history
    | some (.released _ removed) => if identifier ∈ removed then [] else standing identifier history
    | none => standing identifier history

section Standing
variable {i j o : String} {now : ℤ} {purged removed : List String} {call guard : ℕ}
  {reply : Except LockError Unit} {history : List Entry}

theorem standing_locked : standing i (⟨call, some (.locked j o now purged), reply⟩ :: history) =
    if j = i then call :: (if i ∈ purged then [] else standing i history)
    else if i ∈ purged then [] else standing i history := rfl

theorem standing_refused : standing i (⟨call, some (.refused j o now purged), reply⟩ :: history) =
    if i ∈ purged then [] else standing i history := rfl

theorem standing_unlocked : standing i (⟨call, some (.unlocked j o guard), reply⟩ :: history) =
    if j = i then (standing i history).erase guard else standing i history := rfl

theorem standing_released : standing i (⟨call, some (.released o removed), reply⟩ :: history) =
    if i ∈ removed then [] else standing i history := rfl

end Standing

/-- An unlock gives back a guard that counts. One of a row that was cleaned up or released meanwhile
would give back the guard of another call. -/
def Owned : List Entry → Prop
  | [] => True
  | entry :: history =>
    (∀ i o guard, entry.effect = some (.unlocked i o guard) → guard ∈ standing i history) ∧
      Owned history

def OwnUnlocks (s : State) (_ : Label) (t : State) : Prop :=
  ∀ entry i o guard, t.history = entry :: s.history → entry.effect = some (.unlocked i o guard) →
    guard ∈ standing i s.history

/-- A row counts its guards, and there is none without one. -/
def Counted (record : Option LockRecord) (held : List ℕ) : Prop :=
  record = none ∧ held = [] ∨ ∃ r, record = some r ∧ r.reentrantCount = held.length ∧ held ≠ []

def Effect.reading : Effect → Option ℤ
  | .locked _ _ now _ | .refused _ _ now _ => some now
  | _ => none

/-- What may happen while a guard is held: the guard is not dropped, its owner's locks are not
released, no clock reads an instant later than the timeout after the acquisition, and no re-entry of
the owner an earlier one. -/
structure Effect.Spares (timeout : ℤ) (guard : ℕ) (identifier owner : String) (now : ℤ)
    (effect : Effect) : Prop where
  held : ∀ i o, effect ≠ .unlocked i o guard
  kept : ∀ removed, effect ≠ .released owner removed
  unexpired : ∀ reading, effect.reading = some reading → reading ≤ now + timeout
  forward : ∀ reading purged, effect = .locked identifier owner reading purged → now ≤ reading

section Guards
variable {timeout now : ℤ} {table table' : LockTable} {i o : String} {history : List Entry}

theorem lock_ok
    {guard : LockGuard} (h : Postgres.lock timeout now false table i o = (.ok guard, table')) :
    ∃ row, (∀ k, table'.get k = if k = i then some row else table.get k) ∧ row.owner = o ∧
      row.acquiredAt = now ∧ (table.get i = none ∧ row.reentrantCount = 1 ∨
        ∃ r, table.get i = some r ∧ r.owner = o ∧ row.reentrantCount = r.reentrantCount + 1) := by
  cases hget : table.get i with
  | none =>
    rw [lock_of_none hget] at h
    obtain rfl := (Prod.mk.inj h).2
    exact ⟨_, fun k => by rw [HashMap.get_insert], rfl, rfl, Or.inl ⟨rfl, rfl⟩⟩
  | some r =>
    by_cases howner : r.owner = o
    · by_cases hfits : r.reentrantCount + 1 < 2 ^ 31
      · rw [lock_of_own hget howner hfits] at h
        obtain rfl := (Prod.mk.inj h).2
        refine ⟨{ r with acquiredAt := now, reentrantCount := r.reentrantCount + 1 },
          ?_, howner, rfl, Or.inr ⟨r, rfl, howner, rfl⟩⟩
        intro k
        rw [HashMap.get_insert]
      · simp only [Postgres.lock, Postgres.lockAt, Bool.false_eq_true, if_false, hget, howner,
          if_true, if_neg hfits] at h
        exact absurd (Prod.mk.inj h).1 (by simp)
    · rw [lock_of_other hget howner] at h
      exact absurd (Prod.mk.inj h).1 (by simp)

theorem lock_error {e : LockError}
    (h : Postgres.lock timeout now false table i o = (.error e, table')) : table' = table := by
  cases hget : table.get i with
  | none =>
    rw [lock_of_none hget] at h
    exact absurd (Prod.mk.inj h).1 (by simp)
  | some r =>
    by_cases howner : r.owner = o
    · by_cases hfits : r.reentrantCount + 1 < 2 ^ 31
      · rw [lock_of_own hget howner hfits] at h
        exact absurd (Prod.mk.inj h).1 (by simp)
      · simp only [Postgres.lock, Postgres.lockAt, Bool.false_eq_true, if_false, hget, howner,
          if_true, if_neg hfits] at h
        exact (Prod.mk.inj h).2.symm
    · rw [lock_of_other hget howner] at h
      exact (Prod.mk.inj h).2.symm

theorem unlock_ok (h : Postgres.unlock table i o = (.ok (), table')) :
    ∃ r, table.get i = some r ∧ r.owner = o ∧ 0 < r.reentrantCount ∧
      ∀ k, table'.get k = if k = i then
      (if r.reentrantCount - 1 = 0 then none
        else some { r with reentrantCount := r.reentrantCount - 1 })
      else table.get k := by
  cases hget : table.get i with
  | none => simp [Postgres.unlock, hget] at h
  | some r =>
    by_cases hmatch : r.owner = o ∧ 0 < r.reentrantCount
    · rw [unlock_of_own hget hmatch.1 hmatch.2] at h
      obtain rfl := (Prod.mk.inj h).2
      refine ⟨r, rfl, hmatch.1, hmatch.2, ?_⟩
      intro k
      split_ifs <;> simp_all
    · simp only [Postgres.unlock, hget, if_neg hmatch] at h
      split_ifs at h
      · exact absurd (Prod.mk.inj h).1 (by simp)
      · exact absurd (Prod.mk.inj h).1 (by simp)

theorem counted_clear {record : Option LockRecord} {held : List ℕ} (identifier : String)
    (purged : List String) (h : Counted record held) :
    Counted (if identifier ∈ purged then none else record)
      (if identifier ∈ purged then [] else held) := by
  split_ifs
  · exact Or.inl ⟨rfl, rfl⟩
  · exact h

theorem Counted.lock {record : Option LockRecord} {held : List ℕ} {row : LockRecord}
    (h : Counted record held) (guard : ℕ)
    (hrow : record = none ∧ row.reentrantCount = 1 ∨
      ∃ r, record = some r ∧ r.owner = o ∧ row.reentrantCount = r.reentrantCount + 1) :
    Counted (some row) (guard :: held) := by
  refine Or.inr ⟨row, rfl, ?_, by simp⟩
  rcases h with ⟨rfl, rfl⟩ | ⟨r, rfl, hcount, -⟩
  · rcases hrow with ⟨-, hone⟩ | ⟨r, hr, -⟩
    · exact hone
    · exact absurd hr (by simp)
  · rcases hrow with ⟨hr, -⟩ | ⟨r', hr', -, hmore⟩
    · exact absurd hr (by simp)
    · obtain rfl := Option.some.inj hr'
      rw [hmore, hcount, List.length_cons]

theorem Counted.unlock {held : List ℕ} {r : LockRecord} (h : Counted (some r) held) {guard : ℕ}
    (hguard : guard ∈ held) :
    Counted (if r.reentrantCount - 1 = 0 then none
      else some { r with reentrantCount := r.reentrantCount - 1 }) (held.erase guard) := by
  rcases h with ⟨hr, -⟩ | ⟨r', hr', hcount, -⟩
  · exact absurd hr (by simp)
  · obtain rfl := Option.some.inj hr'
    have hlength := List.length_erase_of_mem hguard
    split_ifs with hzero
    · refine Or.inl ⟨rfl, List.length_eq_zero_iff.mp ?_⟩
      omega
    · refine Or.inr ⟨_, rfl, by simp only; omega, fun hnil => hzero ?_⟩
      rw [hnil, List.length_nil] at hlength
      omega

theorem Serial.counted (h : Serial timeout history table) (hown : Owned history) :
    ∀ i, Counted (table.get i) (standing i history) := by
  induction h with
  | start => exact fun i => Or.inl ⟨rfl, rfl⟩
  | failed _ call e _ ih => exact ih hown.2
  | @ran history table table' effect reply reply' _ call hrun _ ih =>
    intro i
    have hbefore := ih hown.2 i
    cases hrun with
    | @locked j o now purged _ _ hexpired hlock =>
      obtain ⟨row, hget, -, -, hrow⟩ := lock_ok hlock
      have hcleared := counted_clear i purged hbefore
      rw [hget, standing_locked, get_clear]
      by_cases hij : i = j
      · subst hij
        rw [if_pos rfl, if_pos rfl]
        rw [get_clear] at hrow
        exact hcleared.lock call hrow
      · rw [if_neg hij, if_neg (Ne.symm hij)]
        exact hcleared
    | @refused j o existing now purged _ _ hexpired hlock =>
      rw [lock_error hlock, standing_refused, get_clear]
      exact counted_clear i purged hbefore
    | @unlocked j o guard _ _ hunlock =>
      obtain ⟨r, hr, -, -, hget⟩ := unlock_ok hunlock
      have hguard := hown.1 j o guard rfl
      rw [hget, standing_unlocked]
      by_cases hij : i = j
      · subst hij
        rw [if_pos rfl, if_pos rfl]
        rw [hr] at hbefore
        exact hbefore.unlock hguard
      · rw [if_neg hij, if_neg (Ne.symm hij)]
        exact hbefore
    | @released o removed _ howned =>
      rw [get_clear, standing_released]
      exact counted_clear i removed hbefore

/-- What holds of a guard: it counts, the row is its owner's, and nobody else has acquired the
identifier since. -/
structure Holds (timeout : ℤ) (guard : ℕ) (identifier owner : String) (now : ℤ) (later : List Entry)
    (history : List Entry) (table : LockTable) : Prop where
  counts : guard ∈ standing identifier history
  row : ∃ row, table.get identifier = some row ∧ row.owner = owner ∧ now ≤ row.acquiredAt
  alone : ∀ entry ∈ later, ∀ o reading purged,
    entry.effect = some (.locked identifier o reading purged) → o = owner

theorem Holds.not_purged {guard : ℕ} {later : List Entry} {effect : Effect}
    (h : Holds timeout guard i o now later history table)
    (hspares : effect.Spares timeout guard i o now) {reading : ℤ} {purged : List String}
    (hreading : effect.reading = some reading)
    (hexpired : ∀ k ∈ purged, ∃ row, table.get k = some row ∧ row.acquiredAt < reading - timeout) :
    i ∉ purged := by
  intro hmem
  obtain ⟨row, hrow, -, hsince⟩ := h.row
  obtain ⟨row', hrow', hold⟩ := hexpired i hmem
  obtain rfl := Option.some.inj (hrow.symm.trans hrow')
  have hlate := hspares.unexpired reading hreading
  omega

section Executes
variable {guard call : ℕ} {later : List Entry} {reply' : Except LockError Unit}
  {j o' existing : String} {reading : ℤ} {purged removed : List String}

theorem Holds.alone_cons {effect : Effect} (h : Holds timeout guard i o now later history table)
    (hthis : ∀ o' reading purged, effect = .locked i o' reading purged → o' = o) :
    ∀ entry ∈ (⟨call, some effect, reply'⟩ :: later : List Entry), ∀ o' reading purged,
      entry.effect = some (.locked i o' reading purged) → o' = o := by
  intro entry hentry o' reading purged heffect
  rcases List.mem_cons.mp hentry with rfl | hold
  · exact hthis o' reading purged (Option.some.inj heffect)
  · exact h.alone entry hold o' reading purged heffect

/-- Another call acquires a lock: one of the same owner, if it is on the identifier. -/
theorem Holds.locked (h : Holds timeout guard i o now later history table)
    (hspares : (Effect.locked j o' reading purged).Spares timeout guard i o now)
    (hexpired : ∀ k ∈ purged, ∃ row, table.get k = some row ∧ row.acquiredAt < reading - timeout)
    (hlock : Postgres.lock timeout reading false (clear table purged) j o' =
      (.ok ⟨j, o'⟩, table')) :
    Holds timeout guard i o now (⟨call, some (.locked j o' reading purged), reply'⟩ :: later)
      (⟨call, some (.locked j o' reading purged), reply'⟩ :: history) table' := by
  obtain ⟨row, hrow, howner, hsince⟩ := h.row
  have hkept := h.not_purged hspares rfl hexpired
  obtain ⟨row', hget, howner', hnow, hfound⟩ := lock_ok hlock
  by_cases hij : i = j
  · subst hij
    have hsame : o' = o := by
      rw [get_clear, if_neg hkept, hrow] at hfound
      rcases hfound with ⟨hnone, -⟩ | ⟨r, hr, hro, -⟩
      · exact absurd hnone (by simp)
      · obtain rfl := Option.some.inj hr
        exact hro.symm.trans howner
    subst hsame
    refine ⟨?_, ⟨row', ?_, howner', ?_⟩, h.alone_cons fun o'' reading' purged' heq => ?_⟩
    · rw [standing_locked, if_neg hkept, if_pos rfl]
      exact List.mem_cons_of_mem _ h.counts
    · rw [hget, if_pos rfl]
    · rw [hnow]
      exact hspares.forward reading purged rfl
    · exact (Effect.locked.inj heq).2.1.symm
  · refine ⟨?_, ⟨row, ?_, howner, hsince⟩, h.alone_cons fun o'' reading' purged' heq => ?_⟩
    · rw [standing_locked, if_neg hkept, if_neg (Ne.symm hij)]
      exact h.counts
    · rw [hget, if_neg hij, get_clear, if_neg hkept, hrow]
    · exact absurd (Effect.locked.inj heq).1.symm hij

theorem Holds.refused (h : Holds timeout guard i o now later history table)
    (hspares : (Effect.refused j o' reading purged).Spares timeout guard i o now)
    (hexpired : ∀ k ∈ purged, ∃ row, table.get k = some row ∧ row.acquiredAt < reading - timeout) :
    Holds timeout guard i o now (⟨call, some (.refused j o' reading purged), reply'⟩ :: later)
      (⟨call, some (.refused j o' reading purged), reply'⟩ :: history) (clear table purged) := by
  obtain ⟨row, hrow, howner, hsince⟩ := h.row
  have hkept := h.not_purged hspares rfl hexpired
  refine ⟨?_, ⟨row, ?_, howner, hsince⟩, h.alone_cons (by simp)⟩
  · rw [standing_refused, if_neg hkept]
    exact h.counts
  · rw [get_clear, if_neg hkept, hrow]

/-- Another guard of the identifier is given back: two guards count, so one is left. -/
theorem Holds.unlocked {guard' : ℕ} (h : Holds timeout guard i o now later history table)
    (hcounted : Counted (table.get j) (standing j history)) (hown : guard' ∈ standing j history)
    (hspares : (Effect.unlocked j o' guard').Spares timeout guard i o now)
    (hunlock : Postgres.unlock table j o' = (.ok (), table')) :
    Holds timeout guard i o now (⟨call, some (.unlocked j o' guard'), reply'⟩ :: later)
      (⟨call, some (.unlocked j o' guard'), reply'⟩ :: history) table' := by
  obtain ⟨row, hrow, howner, hsince⟩ := h.row
  obtain ⟨r, hr, -, -, hget⟩ := unlock_ok hunlock
  by_cases hij : i = j
  · subst hij
    obtain rfl := Option.some.inj (hrow.symm.trans hr)
    have hother : guard ≠ guard' := fun heq => hspares.held i o' (heq ▸ rfl)
    have hstays : guard ∈ (standing i history).erase guard' :=
      (List.mem_erase_of_ne hother).mpr h.counts
    have hleft : row.reentrantCount - 1 ≠ 0 := by
      rw [hrow] at hcounted
      rcases hcounted.unlock hown with ⟨-, hnil⟩ | ⟨r, hr', -, -⟩
      · rw [hnil] at hstays
        exact absurd hstays List.not_mem_nil
      · intro hzero
        rw [if_pos hzero] at hr'
        exact absurd hr' (by simp)
    refine ⟨?_, ⟨{ row with reentrantCount := row.reentrantCount - 1 }, ?_, howner, hsince⟩,
      h.alone_cons (by simp)⟩
    · rw [standing_unlocked, if_pos rfl]
      exact hstays
    · rw [hget, if_pos rfl, if_neg hleft]
  · refine ⟨?_, ⟨row, ?_, howner, hsince⟩, h.alone_cons (by simp)⟩
    · rw [standing_unlocked, if_neg (Ne.symm hij)]
      exact h.counts
    · rw [hget, if_neg hij, hrow]

theorem Holds.released (h : Holds timeout guard i o now later history table)
    (hspares : (Effect.released o' removed).Spares timeout guard i o now)
    (howned : ∀ k ∈ removed, ∃ row, table.get k = some row ∧ row.owner = o') :
    Holds timeout guard i o now (⟨call, some (.released o' removed), reply'⟩ :: later)
      (⟨call, some (.released o' removed), reply'⟩ :: history) (clear table removed) := by
  obtain ⟨row, hrow, howner, hsince⟩ := h.row
  have hkept : i ∉ removed := by
    intro hmem
    obtain ⟨row', hrow', howner'⟩ := howned i hmem
    obtain rfl := Option.some.inj (hrow.symm.trans hrow')
    exact hspares.kept removed (by rw [← howner, howner'])
  refine ⟨?_, ⟨row, ?_, howner, hsince⟩, h.alone_cons (by simp)⟩
  · rw [standing_released, if_neg hkept]
    exact h.counts
  · rw [get_clear, if_neg hkept, hrow]

theorem Holds.executes {effect : Effect} {reply : Except LockError Unit}
    (h : Holds timeout guard i o now later history table)
    (hcounted : ∀ i, Counted (table.get i) (standing i history))
    (hown : ∀ i o guard, effect = .unlocked i o guard → guard ∈ standing i history)
    (hspares : effect.Spares timeout guard i o now)
    (hrun : Executes timeout effect reply table table') :
    Holds timeout guard i o now (⟨call, some effect, reply'⟩ :: later)
      (⟨call, some effect, reply'⟩ :: history) table' := by
  cases hrun with
  | locked hexpired hlock => exact h.locked hspares hexpired hlock
  | refused hexpired hlock =>
    rw [lock_error hlock]
    exact h.refused hspares hexpired
  | @unlocked j o' guard' _ _ hunlock =>
    exact h.unlocked (hcounted j) (hown j o' guard' rfl) hspares hunlock
  | released howned => exact h.released hspares howned

end Executes

theorem Serial.holds (h : Serial timeout history table) (hown : Owned history) {guard : ℕ}
    {purged : List String} {reply : Except LockError Unit} {later earlier : List Entry}
    (hsplit : history = later ++ ⟨guard, some (.locked i o now purged), reply⟩ :: earlier)
    (hspares : ∀ entry ∈ later, ∀ effect, entry.effect = some effect →
      effect.Spares timeout guard i o now) :
    Holds timeout guard i o now later history table := by
  induction h generalizing later with
  | start => exact absurd hsplit (by simp)
  | failed before call e _ ih =>
    cases later with
    | nil => exact absurd (congrArg Entry.effect (List.cons.inj hsplit).1) (by simp)
    | cons entry later =>
      obtain ⟨rfl, hrest⟩ := List.cons.inj hsplit
      have hbefore :=
        ih hown.2 hrest fun entry hentry => hspares entry (List.mem_cons_of_mem _ hentry)
      refine ⟨hbefore.counts, hbefore.row, ?_⟩
      intro entry hentry o' reading purged' heffect
      rcases List.mem_cons.mp hentry with rfl | hold
      · exact absurd heffect (by simp)
      · exact hbefore.alone entry hold o' reading purged' heffect
  | @ran history table table' effect reply reply' before call hrun _ ih =>
    cases later with
    | nil =>
      obtain ⟨hentry, rfl⟩ := List.cons.inj hsplit
      obtain ⟨rfl, heffect, rfl⟩ := Entry.mk.inj hentry
      obtain rfl := Option.some.inj heffect
      cases hrun with
      | locked hexpired hlock =>
        obtain ⟨row, hget, howner, hnow, -⟩ := lock_ok hlock
        refine ⟨?_, ⟨row, ?_, howner, hnow.ge⟩, by simp⟩
        · simp [standing]
        · rw [hget, if_pos rfl]
    | cons entry later =>
      obtain ⟨rfl, hrest⟩ := List.cons.inj hsplit
      have hbefore :=
        ih hown.2 hrest fun entry hentry => hspares entry (List.mem_cons_of_mem _ hentry)
      exact hbefore.executes (before.counted hown.2) (fun i o guard heq =>
        hown.1 i o guard (congrArg some heq))
        (hspares _ List.mem_cons_self effect rfl) hrun

end Guards

theorem owned_of_reach {timeout : ℤ} {retries : ℕ} {s : State}
    (h : (machine timeout retries).Reach OwnUnlocks s) :
    Owned s.history := by
  have hboth : Inv timeout s ∧ Owned s.history := by
    refine h.invariant (P := fun s => Inv timeout s ∧ Owned s.history) ?_ ?_
    · intro s hinit
      refine ⟨Inv.of_init hinit, ?_⟩
      obtain rfl : s = _ := hinit
      trivial
    · intro s l t hs hn hok
      have hshape := shape_of_next hs.1.sound hn
      refine ⟨hs.1.of_shape hshape, ?_⟩
      cases hshape with
      | entered => exact hs.2
      | moved => exact hs.2
      | wrote => exact hs.2
      | aborted => exact ⟨by simp, hs.2⟩
      | ended => exact ⟨fun i o guard heffect => hok _ i o guard rfl heffect, hs.2⟩
  exact hboth.2

/-! Two owners race for an identifier; the one that has it re-enters and gives its first guard
back. -/

def ownUnlocksCheck (s : State) (_ : Label) (t : State) : Bool :=
  match t.history.head?.bind Entry.effect with
  | some (.unlocked i _ guard) => t.history.length = s.history.length ∨ guard ∈ standing i s.history
  | _ => true

theorem ownUnlocks_of_check (s : State) (l : Label) (t : State) (h : ownUnlocksCheck s l t = true) :
    OwnUnlocks s l t := by
  intro entry i o guard hhistory heffect
  have hhead : t.history.head?.bind Entry.effect = some (.unlocked i o guard) := by
    simp [hhistory, heffect]
  have hlonger : t.history.length ≠ s.history.length := by simp [hhistory]
  simp only [ownUnlocksCheck, hhead] at h
  exact (of_decide_eq_true h).resolve_left hlonger

def raceLabels : List Label :=
  [.lock 0 "flow" "a", .clock 0 100 true, .deleted 0, .insert 0, .lock 1 "flow" "b",
    .clock 1 95 false, .commit 0, .insert 1, .select 1, .commit 1, .lock 2 "flow" "a",
    .clock 2 105 false, .insert 2, .commit 2, .unlock 3 "flow" "a" 0, .update 3 false,
    .deleted 3, .commit 3]

def raced : State :=
  (machine 30 5).final ownUnlocksCheck ⟨Rows.empty, HashMap.empty, [], []⟩ raceLabels

theorem raced_reach : (machine 30 5).Reach OwnUnlocks raced :=
  ⟨_, _, rfl, Machine.path_final ownUnlocks_of_check (by decide +kernel)⟩

/-- Whatever interleaves, and whatever the clocks of the processes read within the timeout of the
acquisition, a guard that is held keeps its identifier: the row is its owner's and counts the guards
of the owner that are not given back, `lock_count` says so, and no other owner has acquired the
identifier since. -/
theorem lock_exclusive {timeout : ℤ} {retries : ℕ} {s : State}
    (h : (machine timeout retries).Reach OwnUnlocks s) {later earlier : List Entry} {guard : ℕ}
    {i o : String} {now : ℤ} {purged : List String} {reply : Except LockError Unit}
    (hsplit : s.history = later ++ ⟨guard, some (.locked i o now purged), reply⟩ :: earlier)
    (hspares : ∀ entry ∈ later, ∀ effect, entry.effect = some effect →
      effect.Spares timeout guard i o now) :
    guard ∈ standing i s.history ∧
      (∃ table, (∀ k, s.rows.committed k = table.get k) ∧
        ∀ reading ≤ now + timeout,
          Postgres.lockCount timeout reading table i o = (standing i s.history).length) ∧
      ∀ entry ∈ later,
        ∀ o' reading purged, entry.effect = some (.locked i o' reading purged) → o' = o := by
  obtain ⟨table, hserial, htable⟩ := (Inv.of_reach h).serial
  have hown := owned_of_reach h
  have hholds := hserial.holds hown hsplit hspares
  refine ⟨hholds.counts, ⟨table, htable, ?_⟩, hholds.alone⟩
  intro reading hreading
  obtain ⟨row, hrow, howner, hsince⟩ := hholds.row
  have hcount := hserial.counted hown i
  rw [hrow] at hcount
  rcases hcount with ⟨hnone, -⟩ | ⟨r, hr, hlength, -⟩
  · exact absurd hnone (by simp)
  · obtain rfl := Option.some.inj hr
    have halive : reading - timeout ≤ row.acquiredAt := by omega
    simp only [Postgres.lockCount, Postgres.lockCountAt, hrow, howner, halive, and_self, if_true]
    exact hlength

theorem reentered_guard_holds :
    2 ∈ standing "flow" raced.history ∧ ∃ table, (∀ k, raced.rows.committed k = table.get k) ∧
      ∀ reading ≤ 135, Postgres.lockCount 30 reading table "flow" "a" = 1 := by
  have hhistory : raced.history = [⟨3, some (.unlocked "flow" "a" 0), .ok ()⟩] ++
      ⟨2, some (.locked "flow" "a" 105 []), .ok ()⟩ ::
        [⟨1, some (.refused "flow" "b" 95 []), .error (.lockAlreadyHeld "flow" "a" "b")⟩,
          ⟨0, some (.locked "flow" "a" 100 []), .ok ()⟩] := by rfl
  have hspares : ∀ entry ∈ ([⟨3, some (.unlocked "flow" "a" 0), .ok ()⟩] : List Entry), ∀ effect,
      entry.effect = some effect → effect.Spares 30 2 "flow" "a" 105 := by
    intro entry hentry effect heffect
    obtain rfl := List.mem_singleton.mp hentry
    obtain rfl := Option.some.inj heffect
    refine ⟨by simp, by simp, ?_, by simp⟩
    intro reading hreading
    exact absurd hreading (by simp [Effect.reading])
  have hheld := lock_exclusive raced_reach hhistory hspares
  have hone : standing "flow" raced.history = [2] := by rfl
  rw [hone] at hheld
  refine ⟨hone ▸ hheld.1, hheld.2.1⟩

end Facet.Lock.Transactions
