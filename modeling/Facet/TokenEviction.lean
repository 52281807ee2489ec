import Facet.TokenStore

/-!
# Eviction of idle tokens

Runs of the store's operations, each with whatever time its clock shows. Beside the store a
run keeps its history; when a record was last used is read off the history alone. Times are
only compared, so their unit does not matter.
-/
namespace Facet.Client

namespace MemoryTokenStore

/-- The number of records removed, and the store without them. -/
def removeTokensAccessedBefore (tokens : MemoryTokenStore) (cutoff : ℤ) :
    Except TokenError ℕ × MemoryTokenStore :=
  let initialCount := tokens.entries.length
  let retained := tokens.retain fun _ record => decide (cutoff < record.lastAccessed)
  (.ok (initialCount - retained.entries.length), retained)

theorem get_removeTokensAccessedBefore (tokens : MemoryTokenStore) (cutoff : ℤ)
    (key : String × String) : (tokens.removeTokensAccessedBefore cutoff).2.get key =
      (tokens.get key).filter fun record => decide (cutoff < record.lastAccessed) :=
  HashMap.get_retain ..

theorem removed_count (tokens : MemoryTokenStore) (cutoff : ℤ) :
    (tokens.removeTokensAccessedBefore cutoff).1 =
      .ok (tokens.entries.filter fun e => decide (e.2.lastAccessed ≤ cutoff)).length := by
  have hsplit := List.length_eq_length_filter_add (l := tokens.entries)
    (fun e => decide (cutoff < e.2.lastAccessed))
  have hrest : (tokens.entries.filter fun e => !decide (cutoff < e.2.lastAccessed)) =
      tokens.entries.filter fun e => decide (e.2.lastAccessed ≤ cutoff) := by
    apply List.filter_congr
    intro e _
    by_cases he : cutoff < e.2.lastAccessed
    · simp [he]
    · simp [he, not_lt.mp he]
  rw [hrest] at hsplit
  simp only [removeTokensAccessedBefore, HashMap.retain]
  congr 1
  omega

theorem getToken_stamps (tokens : MemoryTokenStore) (now : ℤ) (pc : ParticipantContext)
    (identifier : String) (hok : (tokens.getToken now pc identifier).1.isOk = true) :
    ∃ f : TokenRecord → TokenRecord, (∀ record, (f record).lastAccessed = now) ∧
      (tokens.getToken now pc identifier).2 = tokens.andModify (pc.id, identifier) f := by
  unfold getToken at hok ⊢
  cases hget : tokens.get (pc.id, identifier) with
  | none => simp [hget, Except.isOk, Except.toBool] at hok
  | some record =>
    by_cases hpc : record.participantContext = pc.id
    · dsimp only
      rw [if_neg (not_not.mpr hpc)]
      exact ⟨_, fun _ => rfl, rfl⟩
    · simp [hget, hpc, Except.isOk, Except.toBool] at hok

theorem updateToken_stamps (tokens : MemoryTokenStore) (now : ℤ)
    (participantContext identifier : String) (data : RefreshedTokenData)
    (hok : (tokens.updateToken now participantContext identifier data).1.isOk = true) :
    ∃ f : TokenRecord → TokenRecord, (∀ record, (f record).lastAccessed = now) ∧
      (tokens.updateToken now participantContext identifier data).2 =
        tokens.andModify (participantContext, identifier) f := by
  unfold updateToken at hok ⊢
  by_cases hkey : tokens.containsKey (participantContext, identifier) = false
  · simp [hkey, Except.isOk, Except.toBool] at hok
  · rw [if_neg hkey]
    exact ⟨_, fun _ => rfl, rfl⟩

theorem get_andModify_stamped {tokens : MemoryTokenStore} {now : ℤ} {j key : String × String}
    {f : TokenRecord → TokenRecord} (hstamps : ∀ record, (f record).lastAccessed = now)
    {record : TokenRecord} (hget : (tokens.andModify j f).get key = some record) :
    key = j ∧ record.lastAccessed = now ∨ key ≠ j ∧ tokens.get key = some record := by
  rw [get_andModify] at hget
  split_ifs at hget with hkey
  · obtain ⟨old, -, rfl⟩ := Option.map_eq_some_iff.mp hget
    exact Or.inl ⟨hkey, hstamps old⟩
  · exact Or.inr ⟨hkey, hget⟩

end MemoryTokenStore

/-- A call of the store, in the order in which the lock is taken; `now` is what the clock shows to
it. A save reads the clock before it has the lock, so times need not grow along a run. -/
inductive Operation
  | save (now : ℤ) (data : TokenData)
  | get (now : ℤ) (pc : ParticipantContext) (identifier : String)
  | update (now : ℤ) (participantContext identifier : String) (data : RefreshedTokenData)
  | remove (participantContext identifier : String)
  | evict (cutoff : ℤ)

namespace Operation

def perform (tokens : MemoryTokenStore) : Operation → Bool × MemoryTokenStore
  | save now data => (true, tokens.saveToken now data)
  | get now pc identifier =>
    let (answer, tokens') := tokens.getToken now pc identifier
    (answer.isOk, tokens')
  | update now participantContext identifier data =>
    let (answer, tokens') := tokens.updateToken now participantContext identifier data
    (answer.isOk, tokens')
  | remove participantContext identifier =>
    let (answer, tokens') := tokens.removeToken participantContext identifier
    (answer.isOk, tokens')
  | evict cutoff =>
    let (answer, tokens') := tokens.removeTokensAccessedBefore cutoff
    (answer.isOk, tokens')

/-- The key that a save, get or update is about, and its time. -/
def access : Operation → Option ((String × String) × ℤ)
  | save now data => some ((data.participantContext, data.identifier), now)
  | get now pc identifier => some ((pc.id, identifier), now)
  | update now participantContext identifier _ => some ((participantContext, identifier), now)
  | remove _ _ => none
  | evict _ => none

end Operation

structure Session where
  tokens : MemoryTokenStore
  history : List (Operation × Bool)

namespace Session

def new : Session := ⟨HashMap.empty, []⟩

def step (s : Session) (operation : Operation) : Session :=
  let (succeeded, tokens) := operation.perform s.tokens
  ⟨tokens, (operation, succeeded) :: s.history⟩

def run (operations : List Operation) : Session := operations.foldl step new

end Session

/-- The time of the most recent successful save, get or update of a key. -/
def lastAccess (key : String × String) : List (Operation × Bool) → Option ℤ
  | [] => none
  | (operation, succeeded) :: history =>
    match operation.access with
    | some (accessed, now) =>
      if accessed = key ∧ succeeded = true then some now else lastAccess key history
    | none => lastAccess key history

section History
variable (key : String × String) (history : List (Operation × Bool)) (operation : Operation)

theorem lastAccess_cons_of_access {now : ℤ} (haccess : operation.access = some (key, now)) :
    lastAccess key ((operation, true) :: history) = some now := by
  simp [lastAccess, haccess]

theorem lastAccess_cons_of_not_access {succeeded : Bool}
    (hother : ∀ now, operation.access = some (key, now) → succeeded = false) :
    lastAccess key ((operation, succeeded) :: history) = lastAccess key history := by
  cases haccess : operation.access with
  | none => simp [lastAccess, haccess]
  | some accessed =>
    obtain ⟨other, now⟩ := accessed
    by_cases hkey : other = key
    · subst hkey
      simp [lastAccess, haccess, hother now haccess]
    · simp [lastAccess, haccess, hkey]

end History

/-! ## One call -/

namespace Operation
variable (tokens : MemoryTokenStore)

theorem perform_of_failed (operation : Operation) (hfailed : (operation.perform tokens).1 = false) :
    (operation.perform tokens).2 = tokens := by
  cases operation with
  | save now data => simp [perform] at hfailed
  | get now pc identifier =>
    rcases tokens.getToken_cases now pc identifier with ⟨-, hget⟩ | ⟨data, -, -, hget⟩
    · simp [perform, hget]
    · simp [perform, hget, Except.isOk, Except.toBool] at hfailed
  | update now participantContext identifier data =>
    rcases tokens.updateToken_cases now participantContext identifier data with
      ⟨-, hupdate⟩ | ⟨old, -, hupdate, -⟩
    · simp [perform, hupdate]
    · simp [perform, hupdate, Except.isOk, Except.toBool] at hfailed
  | remove participantContext identifier =>
    rcases tokens.removeToken_cases participantContext identifier with
      ⟨-, hremove⟩ | ⟨old, -, hremove, -⟩
    · simp [perform, hremove]
    · simp [perform, hremove, Except.isOk, Except.toBool] at hfailed
  | evict cutoff =>
    simp [perform, MemoryTokenStore.removeTokensAccessedBefore, Except.isOk,
      Except.toBool] at hfailed

/-- The record was stamped by the call, or was there before and not accessed. -/
def StampedOrKept (operation : Operation) (key : String × String) (record : TokenRecord) : Prop :=
  (operation.access = some (key, record.lastAccessed) ∧ (operation.perform tokens).1 = true) ∨
    ((∀ now, operation.access = some (key, now) → (operation.perform tokens).1 = false) ∧
      tokens.get key = some record)

theorem stampedOrKept_of_access {operation : Operation} {j key : String × String} {now : ℤ}
    {record : TokenRecord} (haccess : operation.access = some (j, now))
    (hok : (operation.perform tokens).1 = true)
    (hstore : key = j ∧ record.lastAccessed = now ∨ key ≠ j ∧ tokens.get key = some record) :
    StampedOrKept tokens operation key record := by
  rcases hstore with ⟨rfl, rfl⟩ | ⟨hne, hold⟩
  · exact Or.inl ⟨haccess, hok⟩
  · refine Or.inr ⟨?_, hold⟩
    intro time hkey
    rw [haccess] at hkey
    exact absurd (congrArg Prod.fst (Option.some.inj hkey)).symm hne

theorem get_perform (operation : Operation) {key : String × String} {record : TokenRecord}
    (hget : (operation.perform tokens).2.get key = some record) :
    StampedOrKept tokens operation key record := by
  by_cases hfailed : (operation.perform tokens).1 = false
  · rw [perform_of_failed tokens operation hfailed] at hget
    exact Or.inr ⟨fun _ _ => hfailed, hget⟩
  have hok : (operation.perform tokens).1 = true := by simpa using hfailed
  cases operation with
  | save now data =>
    apply stampedOrKept_of_access tokens rfl hok
    rcases HashMap.get_insert_eq_some hget with ⟨hkey, rfl⟩ | hold
    · exact Or.inl ⟨hkey, rfl⟩
    · exact Or.inr hold
  | get now pc identifier =>
    apply stampedOrKept_of_access tokens rfl hok
    obtain ⟨f, hstamps, hstore⟩ := tokens.getToken_stamps now pc identifier hok
    exact MemoryTokenStore.get_andModify_stamped hstamps (hstore ▸ hget)
  | update now participantContext identifier data =>
    apply stampedOrKept_of_access tokens rfl hok
    obtain ⟨f, hstamps, hstore⟩ :=
      tokens.updateToken_stamps now participantContext identifier data hok
    exact MemoryTokenStore.get_andModify_stamped hstamps (hstore ▸ hget)
  | remove participantContext identifier =>
    refine Or.inr ⟨by simp [access], ?_⟩
    unfold perform MemoryTokenStore.removeToken at hget
    cases hold : tokens.get (participantContext, identifier) with
    | none => simpa [hold] using hget
    | some old =>
      simp only [hold] at hget
      exact (HashMap.get_remove_eq_some hget).2
  | evict cutoff =>
    refine Or.inr ⟨by simp [access], ?_⟩
    have hkept := hget
    simp only [perform, MemoryTokenStore.get_removeTokensAccessedBefore] at hkept
    exact (Option.filter_eq_some_iff.mp hkept).1

end Operation

/-! ## Runs -/

namespace Session

/-- Every record carries the time that the history gives its key. -/
def Stamped (s : Session) : Prop :=
  ∀ key record, s.tokens.get key = some record → lastAccess key s.history = some record.lastAccessed

theorem stamped_step (s : Session) (hs : s.Stamped) (operation : Operation) :
    (s.step operation).Stamped := by
  intro key record hget
  show lastAccess key ((operation, (operation.perform s.tokens).1) :: s.history) =
    some record.lastAccessed
  rcases Operation.get_perform s.tokens operation hget with ⟨haccess, hok⟩ | ⟨hother, hold⟩
  · rw [hok]
    exact lastAccess_cons_of_access key s.history operation haccess
  · rw [lastAccess_cons_of_not_access key s.history operation hother]
    exact hs key record hold

theorem stamped_run (operations : List Operation) : (run operations).Stamped := by
  induction operations using List.reverseRecOn with
  | nil => simp [Stamped, run, new]
  | append_singleton operations operation ih =>
    rw [run, List.foldl_append]
    exact stamped_step _ ih operation

end Session

def usedBefore (s : Session) (cutoff : ℤ) (key : String × String) : Bool :=
  (lastAccess key s.history).any fun t => decide (t < cutoff)

/-- The eviction removes the records last used before the cutoff and counts them, the other records
stay as they are, and a call that fails leaves every record as it is. -/
structure EvictsExactly (s : Session) (cutoff : ℤ) : Prop where
  removed : ∀ key record, s.tokens.get key = some record →
    ((s.tokens.removeTokensAccessedBefore cutoff).2.get key = none ↔ usedBefore s cutoff key = true)
  kept : ∀ key, (s.tokens.removeTokensAccessedBefore cutoff).2.get key = none ∨
    (s.tokens.removeTokensAccessedBefore cutoff).2.get key = s.tokens.get key
  counted : (s.tokens.removeTokensAccessedBefore cutoff).1 =
    .ok (s.tokens.entries.filter fun e => usedBefore s cutoff e.1).length
  failed : ∀ operation : Operation, (operation.perform s.tokens).1 = false →
    (operation.perform s.tokens).2 = s.tokens

theorem usedBefore_of_stamped {s : Session} (hs : s.Stamped) {key : String × String}
    {record : TokenRecord} (hget : s.tokens.get key = some record) (cutoff : ℤ) :
    usedBefore s cutoff key = decide (record.lastAccessed < cutoff) := by
  simp [usedBefore, hs key record hget]

/-- The code removes the records used at the cutoff as well. -/
theorem removed_iff {tokens : MemoryTokenStore} {key : String × String} {record : TokenRecord}
    (hget : tokens.get key = some record) (cutoff : ℤ) :
    (tokens.removeTokensAccessedBefore cutoff).2.get key = none ↔ record.lastAccessed ≤ cutoff := by
  simp [MemoryTokenStore.get_removeTokensAccessedBefore, hget, Option.filter_eq_none_iff]

/-- After any run the eviction is exact if and only if no record was last used exactly at the
cutoff. -/
theorem evictsExactly_iff (operations : List Operation) (cutoff : ℤ) :
    EvictsExactly (Session.run operations) cutoff ↔
      ∀ key record, (Session.run operations).tokens.get key = some record →
        lastAccess key (Session.run operations).history ≠ some cutoff := by
  have hstamped := Session.stamped_run operations
  generalize Session.run operations = s at hstamped
  constructor
  · intro hexact key record hget hlast
    have hat : record.lastAccessed = cutoff := by
      rw [hstamped key record hget] at hlast
      exact Option.some.inj hlast
    have hremoved := (removed_iff hget cutoff).mpr hat.le
    have hbefore := (hexact.removed key record hget).mp hremoved
    rw [usedBefore_of_stamped hstamped hget, decide_eq_true_eq] at hbefore
    omega
  · intro hnone
    have hne : ∀ key record, s.tokens.get key = some record → record.lastAccessed ≠ cutoff := by
      intro key record hget hat
      exact hnone key record hget (hat ▸ hstamped key record hget)
    refine ⟨?_, ?_, ?_, Operation.perform_of_failed s.tokens⟩
    · intro key record hget
      rw [removed_iff hget, usedBefore_of_stamped hstamped hget, decide_eq_true_eq]
      have := hne key record hget
      omega
    · intro key
      rw [MemoryTokenStore.get_removeTokensAccessedBefore]
      cases hget : s.tokens.get key with
      | none => exact Or.inl rfl
      | some record =>
        cases hkeep : decide (cutoff < record.lastAccessed) <;> simp [Option.filter, hkeep]
    · rw [MemoryTokenStore.removed_count]
      congr 2
      apply List.filter_congr
      intro e he
      have hget : s.tokens.get e.1 = some e.2 := (HashMap.get_eq_some_iff s.tokens).mpr he
      rw [usedBefore_of_stamped hstamped hget, decide_eq_decide]
      have := hne e.1 e.2 hget
      omega

def boundaryToken : TokenData where
  identifier := "provider1"
  participantContext := "participant1"
  participantId := "participant-1"
  counterPartyId := "counter-party-1"
  token := "token1"
  refreshToken := "refresh1"
  expiresAt := 11000
  refreshEndpoint := "https://example.com/refresh"
  endpoint := "https://example.com/data"

/-- A token saved at the cutoff was not used before it, but is removed. -/
theorem boundary_token_evicted :
    ¬ ∀ (operations : List Operation) (cutoff : ℤ),
      EvictsExactly (Session.run operations) cutoff := by
  intro hall
  have hkept := (hall [.save 1000 boundaryToken] 1000).removed ("participant1", "provider1")
    (boundaryToken.record 1000) (by decide)
  exact absurd (hkept.mp (by decide)) (by decide)

end Facet.Client
