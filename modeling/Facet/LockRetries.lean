import Facet.PostgresLock

/-!
# Attempts to lock in Postgres

An attempt whose insert meets a row that is gone at the select is repeated. The number of attempts
is bounded by `retries`, but the call gives up by a constant of its own.
-/
namespace Facet.Lock
namespace Postgres

def maxRetries : ℕ := 5

/-- The replies of the database in one attempt: of the insert the new count, of the select the
owner. -/
structure Attempt where
  begin : Except String Unit
  cleanup : Option (Except String Unit)
  insert : Except String (Option ℤ)
  select : Except String (Option String)
  commit : Except String Unit

def storeFailure (what : String) {α : Type} (reply : Except String α) : Except LockError α :=
  reply.mapError fun e => .storeError (what ++ e)

def cleanUp (attempt : ℕ) (a : Attempt) : Except LockError Unit :=
  match a.cleanup with
  | some reply =>
    if attempt = 0 then storeFailure "Failed to cleanup expired locks: " reply else .ok ()
  | none => .ok ()

/-- The body of the loop: whether the lock was acquired, `false` when it was released in between. -/
def tryLock (identifier owner : String) (attempt : ℕ) (a : Attempt) : Except LockError Bool := do
  storeFailure "Failed to begin transaction: " a.begin
  cleanUp attempt a
  let result ← storeFailure "Failed to acquire lock: " a.insert
  if result.isSome then
    storeFailure "Failed to commit transaction: " a.commit
    return true
  let existingOwner ← storeFailure "Failed to query lock: " a.select
  storeFailure "Failed to commit transaction: " a.commit
  match existingOwner with
  | some ownerName => throw (.lockAlreadyHeld identifier ownerName owner)
  | none => return false

def exceededRetryLimit : LockError :=
  .internalError "Lock acquisition failed: exceeded retry limit due to concurrent releases"

def unexpectedEnd : LockError :=
  .internalError "Lock acquisition failed: unexpected end of retry loop"

variable (identifier owner : String) (attempts : ℕ → Attempt)

/-- The loop from an attempt on, with so many iterations left; the second component counts the
attempts made. -/
def lockLoop : ℕ → ℕ → Except LockError Unit × ℕ
  | 0, attempt => (.error unexpectedEnd, attempt)
  | left + 1, attempt =>
    match tryLock identifier owner attempt (attempts attempt) with
    | .error e => (.error e, attempt + 1)
    | .ok true => (.ok (), attempt + 1)
    | .ok false =>
      if maxRetries ≤ attempt then (.error exceededRetryLimit, attempt + 1)
      else lockLoop left (attempt + 1)

def lockInternal (retries : ℕ) : Except LockError Unit × ℕ :=
  lockLoop identifier owner attempts (retries + 1) 0

/-- The lock was there at the insert and released before the select. -/
def ReleasedBetween (attempt : ℕ) : Prop :=
  tryLock identifier owner attempt (attempts attempt) = .ok false

instance : DecidablePred (ReleasedBetween identifier owner attempts) :=
  fun _ => inferInstanceAs (Decidable (_ = _))

def decision (attempt : ℕ) : Except LockError Unit :=
  (tryLock identifier owner attempt (attempts attempt)).map fun _ => ()

variable {identifier owner attempts}

theorem lockLoop_released {left attempt : ℕ}
    (hreleased : ReleasedBetween identifier owner attempts attempt) (hless : attempt < maxRetries) :
    lockLoop identifier owner attempts (left + 1) attempt =
      lockLoop identifier owner attempts left (attempt + 1) := by
  rw [lockLoop, hreleased]
  exact if_neg (by omega)

theorem lockLoop_decided {left attempt : ℕ}
    (hdecides : ¬ ReleasedBetween identifier owner attempts attempt) :
    lockLoop identifier owner attempts (left + 1) attempt =
      (decision identifier owner attempts attempt, attempt + 1) := by
  rw [lockLoop, decision]
  cases htry : tryLock identifier owner attempt (attempts attempt) with
  | error e => rfl
  | ok acquired =>
    cases acquired with
    | true => rfl
    | false => exact absurd htry hdecides

theorem lockLoop_exceeded {left attempt : ℕ}
    (hreleased : ReleasedBetween identifier owner attempts attempt) (hlast : maxRetries ≤ attempt) :
    lockLoop identifier owner attempts (left + 1) attempt =
      (.error exceededRetryLimit, attempt + 1) := by
  rw [lockLoop, hreleased]
  exact if_pos hlast

theorem lockInternal_passed {retries attempt : ℕ} (hbound : attempt ≤ retries + 1)
    (hless : attempt ≤ maxRetries)
    (hreleased : ∀ j < attempt, ReleasedBetween identifier owner attempts j) :
    lockInternal identifier owner attempts retries =
      lockLoop identifier owner attempts (retries + 1 - attempt) attempt := by
  induction attempt with
  | zero => rfl
  | succ attempt ih =>
    have hleft : retries + 1 - attempt = (retries + 1 - (attempt + 1)) + 1 := by omega
    rw [ih (by omega) (by omega) fun j hj => hreleased j (by omega), hleft]
    exact lockLoop_released (hreleased attempt (by omega)) (by omega)

/-- The call ends with the first attempt that decides, if that is within both limits. -/
theorem lockInternal_decided {retries attempt : ℕ} (hbound : attempt ≤ retries)
    (hless : attempt ≤ maxRetries)
    (hreleased : ∀ j < attempt, ReleasedBetween identifier owner attempts j)
    (hdecides : ¬ ReleasedBetween identifier owner attempts attempt) :
    lockInternal identifier owner attempts retries =
      (decision identifier owner attempts attempt, attempt + 1) := by
  have hleft : retries + 1 - attempt = (retries - attempt) + 1 := by omega
  rw [lockInternal_passed (by omega) hless hreleased, hleft]
  exact lockLoop_decided hdecides

theorem lockInternal_runs_out {retries : ℕ} (hfew : retries < maxRetries)
    (hreleased : ∀ j ≤ retries, ReleasedBetween identifier owner attempts j) :
    lockInternal identifier owner attempts retries = (.error unexpectedEnd, retries + 1) := by
  rw [lockInternal_passed le_rfl (by omega) fun j hj => hreleased j (by omega), Nat.sub_self]
  rfl

theorem lockInternal_exceeded {retries : ℕ} (hmany : maxRetries ≤ retries)
    (hreleased : ∀ j ≤ maxRetries, ReleasedBetween identifier owner attempts j) :
    lockInternal identifier owner attempts retries =
      (.error exceededRetryLimit, maxRetries + 1) := by
  have hleft : retries + 1 - maxRetries = (retries - maxRetries) + 1 := by omega
  rw [lockInternal_passed (by omega) le_rfl fun j hj => hreleased j (by omega), hleft]
  exact lockLoop_exceeded (hreleased maxRetries le_rfl) le_rfl

/-- At most one attempt more than retries; the first attempt that decides is the last; without one
all are made, and the call gives up by the retry limit. -/
structure RespectsRetries (identifier owner : String) (attempts : ℕ → Attempt)
    (retries : ℕ) : Prop where
  bounded : (lockInternal identifier owner attempts retries).2 ≤ retries + 1
  decided : ∀ attempt ≤ retries, (∀ j < attempt, ReleasedBetween identifier owner attempts j) →
    ¬ ReleasedBetween identifier owner attempts attempt →
      lockInternal identifier owner attempts retries =
        (decision identifier owner attempts attempt, attempt + 1)
  givesUp : (∀ attempt ≤ retries, ReleasedBetween identifier owner attempts attempt) →
    lockInternal identifier owner attempts retries = (.error exceededRetryLimit, retries + 1)
  regular : (lockInternal identifier owner attempts retries).1 ≠ .error unexpectedEnd

theorem exists_first_deciding {bound : ℕ}
    (hdecides : ∃ j ≤ bound, ¬ ReleasedBetween identifier owner attempts j) :
    ∃ attempt ≤ bound, (∀ j < attempt, ReleasedBetween identifier owner attempts j) ∧
      ¬ ReleasedBetween identifier owner attempts attempt := by
  have hexists : ∃ j, ¬ ReleasedBetween identifier owner attempts j := hdecides.imp fun _ h => h.2
  obtain ⟨j, hj, hne⟩ := hdecides
  refine ⟨Nat.find hexists, (Nat.find_le hne).trans hj, fun i hi => ?_, Nat.find_spec hexists⟩
  exact not_not.mp (Nat.find_min hexists hi)

theorem first_deciding_unique {attempt attempt' : ℕ}
    (hreleased : ∀ j < attempt, ReleasedBetween identifier owner attempts j)
    (hdecides : ¬ ReleasedBetween identifier owner attempts attempt)
    (hreleased' : ∀ j < attempt', ReleasedBetween identifier owner attempts j)
    (hdecides' : ¬ ReleasedBetween identifier owner attempts attempt') : attempt = attempt' := by
  rcases Nat.lt_trichotomy attempt attempt' with hlt | heq | hgt
  · exact absurd (hreleased' attempt hlt) hdecides
  · exact heq
  · exact absurd (hreleased attempt' hgt) hdecides'

theorem storeFailure_bind (what : String) {α : Type} (reply : Except String α)
    (next : α → Except LockError Bool) :
    (∃ message, (storeFailure what reply >>= next) = .error (.storeError message)) ∨
      ∃ a, reply = .ok a ∧ (storeFailure what reply >>= next) = next a := by
  cases reply with
  | error e => exact Or.inl ⟨_, rfl⟩
  | ok a => exact Or.inr ⟨a, rfl, rfl⟩

theorem cleanUp_bind (attempt : ℕ) (a : Attempt) (next : Unit → Except LockError Bool) :
    (∃ message, (cleanUp attempt a >>= next) = .error (.storeError message)) ∨
      (cleanUp attempt a >>= next) = next () := by
  unfold cleanUp
  cases a.cleanup with
  | none => exact Or.inr rfl
  | some reply =>
    dsimp only
    split_ifs with hfirst
    · exact (storeFailure_bind _ reply next).imp_right fun ⟨_, _, heq⟩ => heq
    · exact Or.inr rfl

/-- What one attempt can come to, and with which replies. -/
theorem tryLock_cases (identifier owner : String) (attempt : ℕ) (a : Attempt) :
    (∃ message, tryLock identifier owner attempt a = .error (.storeError message)) ∨
    (∃ count, a.insert = .ok (some count) ∧ tryLock identifier owner attempt a = .ok true) ∨
    (∃ ownerName, a.insert = .ok none ∧ a.select = .ok (some ownerName) ∧
      tryLock identifier owner attempt a = .error (.lockAlreadyHeld identifier ownerName owner)) ∨
    (a.insert = .ok none ∧ a.select = .ok none ∧
      tryLock identifier owner attempt a = .ok false) := by
  rw [tryLock]
  rcases storeFailure_bind "Failed to begin transaction: " a.begin _ with hfails | ⟨u, -, heq⟩
  · exact Or.inl hfails
  rw [heq]
  rcases cleanUp_bind attempt a _ with hfails | heq
  · exact Or.inl hfails
  rw [heq]
  rcases storeFailure_bind "Failed to acquire lock: " a.insert _ with
    hfails | ⟨result, hinsert, heq⟩
  · exact Or.inl hfails
  rw [heq]
  cases result with
  | some count =>
    rcases storeFailure_bind "Failed to commit transaction: " a.commit (fun _ => .ok true) with
      hfails | ⟨u, -, heq⟩
    · exact Or.inl hfails
    · exact Or.inr (Or.inl ⟨count, hinsert, heq⟩)
  | none =>
    rw [if_neg (by simp)]
    rcases storeFailure_bind "Failed to query lock: " a.select _ with
      hfails | ⟨existing, hselect, heq⟩
    · exact Or.inl hfails
    rw [heq]
    rcases storeFailure_bind "Failed to commit transaction: " a.commit _ with hfails | ⟨u, -, heq⟩
    · exact Or.inl hfails
    rw [heq]
    cases existing with
    | some ownerName => exact Or.inr (Or.inr (Or.inl ⟨ownerName, hinsert, hselect, rfl⟩))
    | none => exact Or.inr (Or.inr (Or.inr ⟨hinsert, hselect, rfl⟩))

/-- An attempt that decides nothing had no row from either statement. -/
theorem ReleasedBetween.no_rows {attempt : ℕ}
    (hreleased : ReleasedBetween identifier owner attempts attempt) :
    (attempts attempt).insert = .ok none ∧ (attempts attempt).select = .ok none := by
  unfold ReleasedBetween at hreleased
  rcases tryLock_cases identifier owner attempt (attempts attempt) with
    ⟨m, htry⟩ | ⟨count, -, htry⟩ | ⟨ownerName, -, -, htry⟩ | ⟨hinsert, hselect, -⟩
  · exact absurd (htry.symm.trans hreleased) (by simp)
  · exact absurd (htry.symm.trans hreleased) (by simp)
  · exact absurd (htry.symm.trans hreleased) (by simp)
  · exact ⟨hinsert, hselect⟩

theorem decision_ne_internalError (attempt : ℕ) (message : String) :
    decision identifier owner attempts attempt ≠ .error (.internalError message) := by
  unfold decision
  rcases tryLock_cases identifier owner attempt (attempts attempt) with
    ⟨m, htry⟩ | ⟨count, -, htry⟩ | ⟨ownerName, -, -, htry⟩ | ⟨-, -, htry⟩ <;>
      rw [htry] <;> simp [Except.map]

theorem respectsRetries_of_first {retries first : ℕ} (hbound : first ≤ retries)
    (hless : first ≤ maxRetries)
    (hbefore : ∀ j < first, ReleasedBetween identifier owner attempts j)
    (hdecides : ¬ ReleasedBetween identifier owner attempts first) :
    RespectsRetries identifier owner attempts retries := by
  have hrun := lockInternal_decided hbound hless hbefore hdecides
  refine ⟨by rw [hrun]; exact Nat.succ_le_succ hbound, ?_, fun hall => absurd (hall
    first hbound) hdecides, ?_⟩
  · intro attempt _ hbefore' hdecides'
    rw [hrun, first_deciding_unique hbefore hdecides hbefore' hdecides']
  · rw [hrun]
    exact decision_ne_internalError first _

theorem respectsRetries_maxRetries
    (hreleased : ∀ j ≤ maxRetries, ReleasedBetween identifier owner attempts j) :
    RespectsRetries identifier owner attempts maxRetries := by
  have hrun := lockInternal_exceeded le_rfl hreleased
  refine ⟨by rw [hrun], ?_, fun _ => hrun, ?_⟩
  · intro attempt hattempt _ hdecides
    exact absurd (hreleased attempt hattempt) hdecides
  · rw [hrun]
    decide

theorem not_respectsRetries {retries : ℕ} (hne : retries ≠ maxRetries)
    (hreleased : ∀ j ≤ min retries maxRetries, ReleasedBetween identifier owner attempts j) :
    ¬ RespectsRetries identifier owner attempts retries := by
  intro hrespects
  rcases Nat.lt_or_gt_of_ne hne with hfew | hmany
  · have hrun := lockInternal_runs_out hfew fun j hj => hreleased j (le_min hj (by omega))
    exact hrespects.regular (by rw [hrun])
  · have hrun := lockInternal_exceeded hmany.le fun j hj => hreleased j (le_min (by omega) hj)
    by_cases hall : ∀ attempt ≤ retries, ReleasedBetween identifier owner attempts attempt
    · have hcount := congrArg Prod.snd (hrun.symm.trans (hrespects.givesUp hall))
      simp only at hcount
      omega
    · simp only [not_forall] at hall
      obtain ⟨j, hj, hdecides⟩ := hall
      obtain ⟨first, hfirst, hbefore, hdecides⟩ := exists_first_deciding ⟨j, hj, hdecides⟩
      have hlate : ¬ first ≤ maxRetries := fun hle => hdecides (hreleased first (le_min hfirst hle))
      have hcount :=
        congrArg Prod.snd (hrun.symm.trans (hrespects.decided first hfirst hbefore hdecides))
      simp only at hcount
      omega

/-- The retries are respected when they are the constant, or when an attempt within both limits
decides. -/
theorem respectsRetries_iff (identifier owner : String) (attempts : ℕ → Attempt) (retries : ℕ) :
    RespectsRetries identifier owner attempts retries ↔
      retries = maxRetries ∨ ∃ attempt ≤ min retries maxRetries,
        ¬ ReleasedBetween identifier owner attempts attempt := by
  by_cases hsome : ∃ attempt ≤ min retries maxRetries,
    ¬ ReleasedBetween identifier owner attempts attempt
  · obtain ⟨first, hfirst, hbefore, hdecides⟩ := exists_first_deciding hsome
    obtain ⟨hbound, hless⟩ := le_min_iff.mp hfirst
    exact iff_of_true (respectsRetries_of_first hbound hless hbefore hdecides) (Or.inr hsome)
  · have hreleased : ∀ j ≤ min retries maxRetries, ReleasedBetween identifier owner attempts j := by
      intro j hj
      by_contra hdecides
      exact hsome ⟨j, hj, hdecides⟩
    constructor
    · intro hrespects
      by_contra hneither
      exact not_respectsRetries (not_or.mp hneither).1 hreleased hrespects
    · intro hcondition
      obtain rfl := hcondition.resolve_right hsome
      exact respectsRetries_maxRetries fun j hj => hreleased j (by simpa using hj)

def gone : Attempt where
  begin := .ok ()
  cleanup := none
  insert := .ok none
  select := .ok none
  commit := .ok ()

/-- Two retries run out of the loop, and ten are cut short. -/
theorem other_retries_not_respected :
    lockInternal "flow" "a" (fun _ => gone) 2 = (.error unexpectedEnd, 3) ∧
    lockInternal "flow" "a" (fun _ => gone) 10 = (.error exceededRetryLimit, 6) ∧
    ¬ RespectsRetries "flow" "a" (fun _ => gone) 2 := by
  refine ⟨rfl, rfl, fun hrespects => ?_⟩
  exact hrespects.regular rfl

/-! ## On a table

The replies of a database whose table is `table` when the attempt starts; `between` is what other
transactions do to it between the insert and the select. -/

def replies (timeout now : ℤ) (cleanup : Bool) (table : LockTable) (between : LockTable → LockTable)
    (identifier owner : String) : Attempt :=
  let purged := if cleanup then purge (now - timeout) table else table
  { begin := .ok ()
    cleanup := if cleanup then some (.ok ()) else none
    insert :=
      match purged.get identifier with
      | none => .ok (some 1)
      | some row =>
        if row.owner = owner then
          if row.reentrantCount + 1 < 2 ^ 31 then .ok (some (row.reentrantCount + 1))
          else .error "error returned from database: integer out of range"
        else .ok none
    select := .ok (((between purged).get identifier).map LockRecord.owner)
    commit := .ok () }

theorem cleanUp_replies (timeout now : ℤ) (cleanup : Bool) (table : LockTable)
    (between : LockTable → LockTable) (attempt : ℕ) :
    cleanUp attempt (replies timeout now cleanup table between identifier owner) = .ok () := by
  cases cleanup with
  | true => exact ite_self _
  | false => rfl

/-- With nothing in between, one attempt does what the manager does. -/
theorem lockInternal_replies (timeout now : ℤ) (cleanup : Bool) (table : LockTable) (retries : ℕ)
    (hfirst : attempts 0 = replies timeout now cleanup table id identifier owner) :
    lockInternal identifier owner attempts retries =
      ((lock timeout now cleanup table identifier owner).1.map fun _ => (), 1) := by
  have htry : decision identifier owner attempts 0 =
      (lock timeout now cleanup table identifier owner).1.map fun _ => () := by
    rw [decision, hfirst, tryLock, cleanUp_replies]
    unfold lock lockAt
    simp only [replies, id]
    generalize (if cleanup then purge (now - timeout) table else table) = purged
    cases hrow : purged.get identifier with
    | none => rfl
    | some row =>
      dsimp only
      split_ifs with howner hcount
      · rfl
      · rfl
      · rfl
  have hdecides : ¬ ReleasedBetween identifier owner attempts 0 := by
    intro hreleased
    obtain ⟨hinsert, hselect⟩ := hreleased.no_rows
    rw [hfirst] at hinsert hselect
    simp only [replies, id] at hinsert hselect
    cases hrow : (if cleanup then purge (now - timeout) table else table).get identifier with
    | none => simp [hrow] at hinsert
    | some row => simp [hrow] at hselect
  rw [lockInternal_decided (Nat.zero_le _) (Nat.zero_le _)
    (fun j hj => absurd hj (Nat.not_lt_zero j)) hdecides, htry]

end Postgres
end Facet.Lock
