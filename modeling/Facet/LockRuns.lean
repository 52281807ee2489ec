import Facet.LockManager
import Facet.Machine

/-!
# Runs of the lock manager

Guards are live objects of a run. Dropping a guard only spawns its unlock, which
runs at some later step or, when no runtime is left, never; until it has run the
guard is outstanding. The clock advances by arbitrary amounts between steps.
-/
namespace Facet.Lock

/-- A guard handed out by `lock`. The manager sees its identifier and owner; the
serial number, the acquisition time and the generation of the record it was taken
on are bookkeeping of the run. -/
structure Guard where
  serial : ℕ
  identifier : String
  owner : String
  takenAt : ℤ
  generation : ℕ
  dropped : Bool
  deriving DecidableEq, Repr

/-- `guards` holds the outstanding guards. `generations` counts, per identifier, how
many records have been created. -/
structure State where
  locks : LockTable
  now : ℤ
  guards : List Guard
  generations : String → ℕ
  nextSerial : ℕ

inductive Label
  | lock (identifier owner : String)
  | dropGuard (serial : ℕ)
  | runUnlock (serial : ℕ)
  | releaseLocks (owner : String)
  | advance (elapsed : ℕ)
  deriving DecidableEq, Repr

/-- The generation of the record that a successful `lock` leaves behind. -/
def State.lockGeneration (timeout : ℤ) (s : State) (identifier : String) : ℕ :=
  if liveRecord timeout s.now s.locks identifier = none then s.generations identifier + 1
  else s.generations identifier

def State.takeGuard (timeout : ℤ) (s : State) (identifier owner : String) : Guard :=
  ⟨s.nextSerial, identifier, owner, s.now, s.lockGeneration timeout identifier, false⟩

def State.pendingUnlock (s : State) (serial : ℕ) : Option Guard :=
  s.guards.find? (fun g => g.serial = serial ∧ g.dropped = true)

def markDropped (serial : ℕ) (g : Guard) : Guard :=
  if g.serial = serial then { g with dropped := true } else g

def next (timeout : ℤ) (s : State) : Label → Option State
  | .lock identifier owner =>
    let result := lock timeout s.now s.locks identifier owner
    match result.1 with
    | .ok _ => some { s with
        locks := result.2
        guards := s.takeGuard timeout identifier owner :: s.guards
        generations :=
          Function.update s.generations identifier (s.lockGeneration timeout identifier)
        nextSerial := s.nextSerial + 1 }
    | .error _ => some { s with locks := result.2 }
  | .dropGuard serial =>
    if s.guards.any (fun g => g.serial = serial ∧ g.dropped = false) then
      some { s with guards := s.guards.map (markDropped serial) }
    else none
  | .runUnlock serial =>
    match s.pendingUnlock serial with
    | some g => some { s with
        locks := (unlock s.locks g.identifier g.owner).2
        guards := s.guards.erase g }
    | none => none
  | .releaseLocks owner => some { s with locks := releaseLocks s.locks owner }
  | .advance elapsed => some { s with now := s.now + elapsed }

def machine (timeout : ℤ) : Machine State Label where
  init s := s.locks = HashMap.empty ∧ s.guards = []
  next := next timeout

/-! ## What a step can do -/

section Steps
variable {timeout : ℤ} {s t : State}

theorem next_lock {identifier owner : String}
    (h : next timeout s (.lock identifier owner) = some t) :
    ((lock timeout s.now s.locks identifier owner).1 = .ok ⟨identifier, owner⟩ ∧
        t = { s with
          locks := (lock timeout s.now s.locks identifier owner).2
          guards := s.takeGuard timeout identifier owner :: s.guards
          generations :=
            Function.update s.generations identifier (s.lockGeneration timeout identifier)
          nextSerial := s.nextSerial + 1 }) ∨
      (∃ e, (lock timeout s.now s.locks identifier owner).1 = .error e ∧
        t = { s with locks := (lock timeout s.now s.locks identifier owner).2 }) := by
  rcases lock_cases timeout s.now s.locks identifier owner with
    ⟨-, hr, -⟩ | ⟨r, -, -, hr, -⟩ | ⟨r, -, -, hr, -⟩ <;>
    simp only [next, hr, Option.some.injEq] at h
  · exact Or.inl ⟨hr, h.symm⟩
  · exact Or.inl ⟨hr, h.symm⟩
  · exact Or.inr ⟨_, hr, h.symm⟩

theorem next_dropGuard {serial : ℕ} (h : next timeout s (.dropGuard serial) = some t) :
    t = { s with guards := s.guards.map (markDropped serial) } := by
  simp only [next] at h
  split_ifs at h
  exact (Option.some.inj h).symm

theorem next_runUnlock {serial : ℕ} (h : next timeout s (.runUnlock serial) = some t) :
    ∃ g, s.pendingUnlock serial = some g ∧ g ∈ s.guards ∧ g.serial = serial ∧ g.dropped = true ∧
      t = { s with
        locks := (unlock s.locks g.identifier g.owner).2
        guards := s.guards.erase g } := by
  cases hp : s.pendingUnlock serial with
  | none => simp [next, hp] at h
  | some g =>
    simp only [next, hp, Option.some.injEq] at h
    have hg := List.find?_some hp
    simp only [decide_eq_true_eq] at hg
    exact ⟨g, rfl, List.mem_of_find?_eq_some hp, hg.1, hg.2, h.symm⟩

theorem now_le_of_next {l : Label} (h : next timeout s l = some t) : s.now ≤ t.now := by
  cases l with
  | lock identifier owner => rcases next_lock h with ⟨-, rfl⟩ | ⟨e, -, rfl⟩ <;> exact le_rfl
  | dropGuard serial => rw [next_dropGuard h]
  | runUnlock serial =>
    obtain ⟨g, -, -, -, -, rfl⟩ := next_runUnlock h
    exact le_rfl
  | releaseLocks owner =>
    simp only [next, Option.some.injEq] at h
    rw [← h]
  | advance elapsed =>
    simp only [next, Option.some.injEq] at h
    rw [← h]
    change s.now ≤ s.now + elapsed
    omega

end Steps

/-! ## Owners of a selected set of guards -/

/-- The owners of the guards selected by `p`, with multiplicity. -/
def ownersOf (p : Guard → Bool) (gs : List Guard) : List String := (gs.filter p).map Guard.owner

section Owners
variable {p : Guard → Bool} {g : Guard} {gs : List Guard}

theorem ownersOf_cons_pos (h : p g = true) : ownersOf p (g :: gs) = g.owner :: ownersOf p gs := by
  simp [ownersOf, h]

theorem ownersOf_cons_neg (h : p g = false) : ownersOf p (g :: gs) = ownersOf p gs := by
  simp [ownersOf, h]

theorem mem_ownersOf (hg : g ∈ gs) (h : p g = true) : g.owner ∈ ownersOf p gs :=
  List.mem_map_of_mem (List.mem_filter.mpr ⟨hg, h⟩)

theorem ownersOf_erase_neg (h : p g = false) : ownersOf p (gs.erase g) = ownersOf p gs := by
  unfold ownersOf
  rw [← List.erase_filter, List.erase_of_not_mem]
  simp [h]

theorem ownersOf_erase_pos (hg : g ∈ gs) (h : p g = true) :
    (ownersOf p (gs.erase g)).length + 1 = (ownersOf p gs).length ∧
      ∀ o ∈ ownersOf p (gs.erase g), o ∈ ownersOf p gs := by
  have hm : g ∈ gs.filter p := List.mem_filter.mpr ⟨hg, h⟩
  unfold ownersOf
  rw [← List.erase_filter]
  constructor
  · simp only [List.length_map, List.length_erase_of_mem hm]
    have := List.length_pos_of_mem hm
    omega
  · intro o ho
    obtain ⟨x, hx, rfl⟩ := List.mem_map.mp ho
    exact List.mem_map_of_mem (List.mem_of_mem_erase hx)

theorem ownersOf_markDropped (serial : ℕ) (hp : ∀ x, p (markDropped serial x) = p x) :
    ownersOf p (gs.map (markDropped serial)) = ownersOf p gs := by
  unfold ownersOf
  rw [List.filter_map, List.map_map]
  have ho : Guard.owner ∘ markDropped serial = Guard.owner := by
    funext x
    simp only [Function.comp, markDropped]
    split_ifs <;> rfl
  rw [ho]
  congr 2
  funext x
  exact hp x

end Owners

/-! ## Accounting while nothing expires -/

def onIdentifier (identifier : String) (g : Guard) : Bool := decide (g.identifier = identifier)

def State.guardsOn (s : State) (identifier : String) : List Guard :=
  s.guards.filter (onIdentifier identifier)

/-- Locks are given back only through guards, and no record with an outstanding guard
gets older than the timeout, counted from the last successful `lock` on it. -/
def Undisturbed (timeout : ℤ) (_ : State) (l : Label) (t : State) : Prop :=
  (∀ owner, l ≠ .releaseLocks owner) ∧
    ∀ identifier r, t.locks.get identifier = some r → t.guardsOn identifier ≠ [] →
      t.now - r.acquiredAt ≤ timeout

/-- Every identifier's record accounts for its outstanding guards and is not expired. -/
structure Ledger (timeout : ℤ) (s : State) : Prop where
  accounted :
    ∀ identifier, Accounted s.locks identifier (ownersOf (onIdentifier identifier) s.guards)
  unexpired : ∀ identifier, Unexpired timeout s.now s.locks identifier

theorem guardsOn_ne_nil_of_counts {s : State} {identifier : String} {r : LockRecord}
    (h : r.Counts (ownersOf (onIdentifier identifier) s.guards)) : s.guardsOn identifier ≠ [] := by
  intro he
  apply h.nonempty
  simp only [State.guardsOn] at he
  simp [ownersOf, he]

theorem Ledger.of_accounted {timeout : ℤ} {s t : State} {l : Label}
    (hok : Undisturbed timeout s l t)
    (h : ∀ identifier, Accounted t.locks identifier (ownersOf (onIdentifier identifier) t.guards)) :
    Ledger timeout t where
  accounted := h
  unexpired := by
    intro identifier r hr
    have hc := (accounted_of_get_some hr).mp (h identifier)
    exact hok.2 identifier r hr (guardsOn_ne_nil_of_counts hc)

theorem Ledger.step {timeout : ℤ} {s t : State} {l : Label} (h : Ledger timeout s)
    (hn : next timeout s l = some t) (hok : Undisturbed timeout s l t) : Ledger timeout t := by
  apply Ledger.of_accounted hok
  intro identifier
  have ha := h.accounted identifier
  cases l with
  | lock i o =>
    rcases next_lock hn with ⟨hr, rfl⟩ | ⟨e, hr, rfl⟩
    · by_cases hi : i = identifier
      · subst hi
        rw [ownersOf_cons_pos (by simp [onIdentifier, State.takeGuard])]
        exact ha.lock_ok (h.unexpired i) hr
      · rw [ownersOf_cons_neg (by simp [onIdentifier, State.takeGuard, hi])]
        exact ha.congr (lock_get_of_ne fun he => hi he.symm)
    · by_cases hi : i = identifier
      · subst hi
        exact ha.lock_error (h.unexpired i) hr
      · exact ha.congr (lock_get_of_ne fun he => hi he.symm)
  | dropGuard serial =>
    rw [next_dropGuard hn]
    rw [ownersOf_markDropped serial
      (by intro x; simp only [onIdentifier, markDropped]; split_ifs <;> rfl)]
    exact ha
  | runUnlock serial =>
    obtain ⟨g, -, hg, -, -, rfl⟩ := next_runUnlock hn
    by_cases hi : g.identifier = identifier
    · subst hi
      have hp : onIdentifier g.identifier g = true := by simp [onIdentifier]
      obtain ⟨hlen, hsub⟩ := ownersOf_erase_pos hg hp
      exact (ha.unlock (mem_ownersOf hg hp) hlen hsub).2
    · rw [ownersOf_erase_neg (by simp [onIdentifier, hi])]
      exact ha.congr (unlock_get_of_ne fun he => hi he.symm)
  | releaseLocks o => exact absurd rfl (hok.1 o)
  | advance elapsed =>
    simp only [next, Option.some.injEq] at hn
    rw [← hn]
    exact ha

theorem ledger_of_reach {timeout : ℤ} {s : State}
    (h : Machine.Reach (machine timeout) (Undisturbed timeout) s) : Ledger timeout s := by
  refine h.invariant ?_ fun a l b ha hn hok => ha.step hn hok
  rintro s₀ ⟨hl, hg⟩
  constructor
  · intro identifier
    rw [accounted_of_get_none (by simp [hl])]
    simp [ownersOf, hg]
  · intro identifier r hr
    simp [hl] at hr

/-- Count accounting at every point of an undisturbed run. -/
theorem lock_accounting {timeout : ℤ} {s : State}
    (h : Machine.Reach (machine timeout) (Undisturbed timeout) s) (identifier : String) :
    ((∃ r, s.locks.get identifier = some r) ↔ ∃ g ∈ s.guards, g.identifier = identifier) ∧
      (∀ r, s.locks.get identifier = some r →
        (∀ g ∈ s.guards, g.identifier = identifier → g.owner = r.owner) ∧
        r.reentrantCount = (s.guardsOn identifier).length ∧ r.reentrantCount ≠ 0 ∧
        decrement r.reentrantCount + 1 = r.reentrantCount) ∧
      (∀ g ∈ s.guards, (unlock s.locks g.identifier g.owner).1 = .ok ()) ∧
      (∀ owner, (lock timeout s.now s.locks identifier owner).1 = .ok ⟨identifier, owner⟩ ↔
        ∀ g ∈ s.guards, g.identifier = identifier → g.owner = owner) ∧
      ∀ owner j, j ≠ identifier →
        (lock timeout s.now s.locks identifier owner).2.get j = s.locks.get j := by
  have hL := ledger_of_reach h
  have ha := hL.accounted identifier
  have hmem : ∀ g ∈ s.guards, g.identifier = identifier →
      g.owner ∈ ownersOf (onIdentifier identifier) s.guards :=
    fun g hg hi => mem_ownersOf hg (by simp [onIdentifier, hi])
  have hof : ∀ o ∈ ownersOf (onIdentifier identifier) s.guards,
      ∃ g ∈ s.guards, g.identifier = identifier ∧ g.owner = o := by
    intro o ho
    obtain ⟨g, hg, rfl⟩ := List.mem_map.mp ho
    obtain ⟨hg, hi⟩ := List.mem_filter.mp hg
    exact ⟨g, hg, by simpa [onIdentifier] using hi, rfl⟩
  refine ⟨⟨?_, ?_⟩, ?_, ?_, ?_, fun owner j hj => lock_get_of_ne hj⟩
  · rintro ⟨r, hr⟩
    obtain ⟨o, ho⟩ := List.exists_mem_of_ne_nil _ ((accounted_of_get_some hr).mp ha).nonempty
    obtain ⟨g, hg, hi, -⟩ := hof o ho
    exact ⟨g, hg, hi⟩
  · rintro ⟨g, hg, hi⟩
    cases hr : s.locks.get identifier with
    | some r => exact ⟨r, rfl⟩
    | none =>
      have hnil := (accounted_of_get_none hr).mp ha
      have hm := hmem g hg hi
      rw [hnil] at hm
      exact absurd hm (by simp)
  · intro r hr
    have hc := (accounted_of_get_some hr).mp ha
    refine ⟨fun g hg hi => hc.owner_eq _ (hmem g hg hi), ?_, hc.count_ne_zero, ?_⟩
    · rw [hc.count_eq]
      simp [ownersOf, State.guardsOn]
    · rw [decrement_of_pos hc.count_ne_zero]
      have := hc.count_ne_zero
      omega
  · intro g hg
    have hp : onIdentifier g.identifier g = true := by simp [onIdentifier]
    obtain ⟨hlen, hsub⟩ := ownersOf_erase_pos hg hp
    exact ((hL.accounted g.identifier).unlock (mem_ownersOf hg hp) hlen hsub).1
  · intro owner
    rw [ha.lock_ok_iff (hL.unexpired identifier)]
    constructor
    · intro hall g hg hi
      exact hall _ (hmem g hg hi)
    · intro hall o ho
      obtain ⟨g, hg, hi, rfl⟩ := hof o ho
      exact hall g hg hi

def emptyState : State := ⟨HashMap.empty, 0, [], fun _ => 0, 0⟩

def undisturbedCheck (timeout : ℤ) (_ : State) (l : Label) (t : State) : Bool :=
  (match l with | .releaseLocks _ => false | _ => true) &&
    t.locks.entries.all (fun e => decide (t.now - e.2.acquiredAt ≤ timeout))

theorem undisturbed_of_check {timeout : ℤ} (s : State) (l : Label) (t : State)
    (h : undisturbedCheck timeout s l t = true) : Undisturbed timeout s l t := by
  simp only [undisturbedCheck, Bool.and_eq_true, List.all_eq_true, decide_eq_true_eq] at h
  constructor
  · rintro owner rfl
    simp at h
  · intro identifier r hr _
    exact h.2 (identifier, r) ((HashMap.get_eq_some_iff _).mp hr)

/-- A re-entry, a refused second owner and a pending unlock, all inside the timeout. -/
def undisturbedState : State := (machine 30).final (undisturbedCheck 30) emptyState
  [.lock "flow" "a", .lock "flow" "a", .lock "flow" "b", .dropGuard 0, .advance 10]

theorem lock_accounting_pending_unlock :
    undisturbedState.guards.length = 2 ∧
      undisturbedState.locks.get "flow" = some ⟨"a", 0, 2⟩ ∧
      ∀ g ∈ undisturbedState.guards,
        (unlock undisturbedState.locks g.identifier g.owner).1 = .ok () := by
  have hreach : Machine.Reach (machine 30) (Undisturbed 30) undisturbedState :=
    ⟨emptyState, _, ⟨rfl, rfl⟩, Machine.path_final undisturbed_of_check (by decide)⟩
  exact ⟨by decide, by decide, (lock_accounting hreach "flow").2.2.1⟩

/-! ## Exclusivity while a guard is held

A guard names no acquisition, so the unlock of a guard whose record has expired or
been released counts against whatever record its owner holds by then. -/

def ofGeneration (identifier : String) (generation : ℕ) (g : Guard) : Bool :=
  decide (g.identifier = identifier ∧ g.generation = generation)

/-- No unlock runs for a guard of an earlier record while its owner holds a newer one. -/
def NoStaleUnlock (s : State) (l : Label) (_ : State) : Prop :=
  ∀ serial g r, l = .runUnlock serial → s.pendingUnlock serial = some g →
    s.locks.get g.identifier = some r → r.owner = g.owner →
    g.generation = s.generations g.identifier

/-- Each stored record accounts for the outstanding guards of its own generation. -/
structure Tracked (s : State) : Prop where
  counts : ∀ identifier r, s.locks.get identifier = some r →
    r.Counts (ownersOf (ofGeneration identifier (s.generations identifier)) s.guards)
  bounded : ∀ g ∈ s.guards, g.generation ≤ s.generations g.identifier

/-- No outstanding guard belongs to a generation that has not begun. -/
theorem Tracked.ownersOf_next {s : State} (h : Tracked s) (identifier : String) :
    ownersOf (ofGeneration identifier (s.generations identifier + 1)) s.guards = [] := by
  simp only [ownersOf, List.map_eq_nil_iff, List.filter_eq_nil_iff, ofGeneration, decide_eq_true_eq]
  rintro g hg ⟨rfl, he⟩
  have := h.bounded g hg
  omega

/-- Taking a guard: the owners of the current generation are those of the live record. -/
theorem Tracked.lock_ok {timeout : ℤ} {s : State} {i o : String} (h : Tracked s)
    (hr : (lock timeout s.now s.locks i o).1 = .ok ⟨i, o⟩) :
    Tracked { s with
      locks := (lock timeout s.now s.locks i o).2
      guards := s.takeGuard timeout i o :: s.guards
      generations := Function.update s.generations i (s.lockGeneration timeout i)
      nextSerial := s.nextSerial + 1 } := by
  have hge : s.generations i ≤ s.lockGeneration timeout i := by
    unfold State.lockGeneration
    split_ifs <;> omega
  constructor
  · intro identifier r hg
    by_cases hi : identifier = i
    · subst hi
      dsimp only
      rw [Function.update_self, ownersOf_cons_pos (by simp [ofGeneration, State.takeGuard])]
      rcases (lock_ok_cases hr).2 with ⟨hl, hget⟩ | ⟨r₀, hl, rfl, hget⟩
      · obtain rfl := Option.some.inj (hg.symm.trans hget)
        rw [State.lockGeneration, if_pos hl, h.ownersOf_next identifier]
        exact LockRecord.Counts.single o s.now
      · obtain rfl := Option.some.inj (hg.symm.trans hget)
        rw [State.lockGeneration, if_neg (by simp [hl])]
        exact (h.counts identifier r₀ (liveRecord_eq_some.mp hl).1).reenter s.now
    · dsimp only
      rw [Function.update_of_ne hi, ownersOf_cons_neg]
      · exact h.counts identifier r ((lock_get_of_ne hi).symm.trans hg)
      · simp [ofGeneration, State.takeGuard, Ne.symm hi]
  · intro g hg
    rcases List.mem_cons.mp hg with rfl | hg
    · simp [State.takeGuard]
    · have hb := h.bounded g hg
      by_cases hi : g.identifier = i
      · simp only [hi, Function.update_self] at hb ⊢
        exact hb.trans hge
      · simpa [Function.update_of_ne hi] using hb

theorem Tracked.unlock {s : State} {g : Guard} (h : Tracked s) (hg : g ∈ s.guards)
    (hok : ∀ r, s.locks.get g.identifier = some r → r.owner = g.owner →
      g.generation = s.generations g.identifier) :
    Tracked { s with
      locks := (unlock s.locks g.identifier g.owner).2, guards := s.guards.erase g } := by
  constructor
  · intro identifier r hr
    dsimp only
    by_cases hi : g.identifier = identifier
    · subst hi
      rcases unlock_cases s.locks g.identifier g.owner with
        ⟨hnone, he⟩ | ⟨r₀, hr₀, hne, he⟩ | ⟨r₀, hr₀, howner, -, hget⟩
      · simp only [he] at hr
        exact absurd (hnone.symm.trans hr) (by simp)
      · simp only [he] at hr
        have hc := h.counts g.identifier r hr
        obtain rfl := Option.some.inj (hr₀.symm.trans hr)
        rw [ownersOf_erase_neg]
        · exact hc
        · by_contra hcur
          exact hne (hc.owner_eq _ (mem_ownersOf hg (by simpa using hcur))).symm
      · have hp : ofGeneration g.identifier (s.generations g.identifier) g = true := by
          simpa [ofGeneration] using hok r₀ hr₀ howner
        obtain ⟨hlen, hsub⟩ := ownersOf_erase_pos hg hp
        have hrel := (h.counts g.identifier r₀ hr₀).release hlen hsub
        simp only [hget] at hr
        split_ifs at hr hrel with h0
        obtain rfl := Option.some.inj hr
        exact hrel
    · have hr' : s.locks.get identifier = some r := by
        rw [← hr]
        exact (unlock_get_of_ne fun he => hi he.symm).symm
      rw [ownersOf_erase_neg (by simp [ofGeneration, hi])]
      exact h.counts identifier r hr'
  · intro x hx
    exact h.bounded x (List.mem_of_mem_erase hx)

/-- An unlock leaves the record of a guard that stays: its count includes that guard. -/
theorem record_after_unlock {s : State} {x g : Guard} {i : String} {r : LockRecord} (h : Tracked s)
    (hx : x ∈ s.guards)
    (hok : ∀ r, s.locks.get x.identifier = some r → r.owner = x.owner →
      x.generation = s.generations x.identifier)
    (hg : g ∈ s.guards.erase x) (hcur : ofGeneration i (s.generations i) g = true)
    (hget : s.locks.get i = some r) :
    ∃ r', (unlock s.locks x.identifier x.owner).2.get i = some r' ∧ r'.owner = r.owner ∧
      r'.acquiredAt = r.acquiredAt := by
  by_cases hxi : x.identifier = i
  · subst hxi
    rcases unlock_cases s.locks x.identifier x.owner with
      ⟨hnone, -⟩ | ⟨r₀, -, -, he⟩ | ⟨r₀, hr₀, howner, -, hget₀⟩
    · exact absurd (hnone.symm.trans hget) (by simp)
    · exact ⟨r, by simpa [he] using hget, rfl, rfl⟩
    · obtain rfl := Option.some.inj (hr₀.symm.trans hget)
      have hxcur : ofGeneration x.identifier (s.generations x.identifier) x = true := by
        simpa [ofGeneration] using hok r₀ hr₀ howner
      obtain ⟨hlen, hsub⟩ := ownersOf_erase_pos hx hxcur
      have hrelease := (h.counts x.identifier r₀ hr₀).release hlen hsub
      have hin := mem_ownersOf hg hcur
      split_ifs at hrelease hget₀ with h0
      · rw [hrelease] at hin
        exact absurd hin (by simp)
      · exact ⟨_, hget₀, rfl, rfl⟩
  · exact ⟨r, (unlock_get_of_ne fun he => hxi he.symm).trans hget, rfl, rfl⟩

theorem Tracked.step {timeout : ℤ} {s t : State} {l : Label} (h : Tracked s)
    (hn : next timeout s l = some t) (hok : NoStaleUnlock s l t) : Tracked t := by
  cases l with
  | lock i o =>
    rcases next_lock hn with ⟨hr, rfl⟩ | ⟨e, hr, rfl⟩
    · exact h.lock_ok hr
    · refine ⟨?_, h.bounded⟩
      intro identifier r hg
      apply h.counts identifier r
      by_cases hi : identifier = i
      · subst hi
        obtain ⟨r₀, hl, -, -, hget⟩ := lock_error_cases hr
        obtain rfl := Option.some.inj (hg.symm.trans hget)
        exact (liveRecord_eq_some.mp hl).1
      · rw [← hg]
        exact (lock_get_of_ne hi).symm
  | dropGuard serial =>
    rw [next_dropGuard hn]
    constructor
    · intro identifier r hg
      dsimp only
      rw [ownersOf_markDropped serial
        (by intro x; simp only [ofGeneration, markDropped]; split_ifs <;> rfl)]
      exact h.counts identifier r hg
    · intro g hg
      obtain ⟨x, hx, rfl⟩ := List.mem_map.mp hg
      have := h.bounded x hx
      simp only [markDropped]
      split_ifs <;> exact this
  | runUnlock serial =>
    obtain ⟨g, hp, hg, -, -, rfl⟩ := next_runUnlock hn
    exact h.unlock hg fun r hr ho => hok serial g r rfl hp hr ho
  | releaseLocks o =>
    simp only [next, Option.some.injEq] at hn
    rw [← hn]
    refine ⟨?_, h.bounded⟩
    intro identifier r hg
    rw [get_releaseLocks, Option.filter_eq_some_iff] at hg
    exact h.counts identifier r hg.1
  | advance elapsed =>
    simp only [next, Option.some.injEq] at hn
    rw [← hn]
    exact ⟨h.counts, h.bounded⟩

theorem tracked_of_reach {timeout : ℤ} {s : State}
    (h : Machine.Reach (machine timeout) NoStaleUnlock s) : Tracked s := by
  refine h.invariant ?_ fun a l b ha hn hok => ha.step hn hok
  rintro s₀ ⟨hl, hg⟩
  exact ⟨fun identifier r hr => by simp [hl] at hr, by simp [hg]⟩

/-- The acquisition `(serial, identifier, owner)` made at time `t` still holds the lock. -/
structure Holding (s : State) (serial : ℕ) (identifier owner : String) (t : ℤ) : Prop where
  guard : ∃ g ∈ s.guards, g.serial = serial ∧ g.dropped = false ∧
    ofGeneration identifier (s.generations identifier) g = true
  record : ∃ r, s.locks.get identifier = some r ∧ r.owner = owner ∧ t ≤ r.acquiredAt
  started : t ≤ s.now

theorem Holding.live {timeout : ℤ} {s : State} {serial : ℕ} {identifier owner : String} {t : ℤ}
    (h : Holding s serial identifier owner t) (ht : s.now - t ≤ timeout) :
    ∃ r, liveRecord timeout s.now s.locks identifier = some r ∧ r.owner = owner ∧
      t ≤ r.acquiredAt := by
  obtain ⟨r, hr, ho, hle⟩ := h.record
  exact ⟨r, liveRecord_eq_some.mpr ⟨hr, by omega⟩, ho, hle⟩

/-- A successful `lock` starts a holding. -/
theorem holding_of_lock {timeout : ℤ} {s t : State} {i o : String}
    (hn : next timeout s (.lock i o) = some t)
    (hr : (lock timeout s.now s.locks i o).1 = .ok ⟨i, o⟩) : Holding t s.nextSerial i o s.now := by
  rcases next_lock hn with ⟨-, rfl⟩ | ⟨e, herr, -⟩
  · refine ⟨⟨s.takeGuard timeout i o, by simp, rfl, rfl, by simp [ofGeneration, State.takeGuard]⟩,
      ?_, le_rfl⟩
    rcases (lock_ok_cases hr).2 with ⟨-, hget⟩ | ⟨r₀, -, ho, hget⟩
    · exact ⟨_, hget, rfl, le_rfl⟩
    · exact ⟨_, hget, ho, le_rfl⟩
  · rw [herr] at hr
    exact absurd hr (by simp)

/-- Whoever calls `lock`, a live record keeps its owner and does not get older. -/
theorem lock_keeps_live {timeout now : ℤ} {locks : LockTable} {i p : String} {r : LockRecord}
    (hl : liveRecord timeout now locks i = some r) :
    ∃ r', (lock timeout now locks i p).2.get i = some r' ∧ r'.owner = r.owner ∧
      (r'.acquiredAt = now ∨ r'.acquiredAt = r.acquiredAt) := by
  cases hr : (lock timeout now locks i p).1 with
  | ok g =>
    rcases (lock_ok_cases hr).2 with ⟨hnone, -⟩ | ⟨r₀, hl₀, -, hget⟩
    · exact absurd (hnone.symm.trans hl) (by simp)
    · obtain rfl := Option.some.inj (hl₀.symm.trans hl)
      exact ⟨_, hget, rfl, Or.inl rfl⟩
  | error e =>
    obtain ⟨r₀, hl₀, -, -, hget⟩ := lock_error_cases hr
    obtain rfl := Option.some.inj (hl₀.symm.trans hl)
    exact ⟨_, hget, rfl, Or.inr rfl⟩

/-- A step other than dropping this guard or releasing this owner's locks keeps the holding,
as long as the timeout has not passed. -/
theorem Holding.step {timeout : ℤ} {s t : State} {l : Label} {serial : ℕ} {i o : String} {t₀ : ℤ}
    (h : Holding s serial i o t₀) (hT : Tracked s) (hn : next timeout s l = some t)
    (hok : NoStaleUnlock s l t) (hd : l ≠ .dropGuard serial) (hrel : l ≠ .releaseLocks o)
    (ht : t.now - t₀ ≤ timeout) : Holding t serial i o t₀ := by
  have hmono := now_le_of_next hn
  have hstart : t₀ ≤ t.now := h.started.trans hmono
  have hs₀ : s.now - t₀ ≤ timeout := by omega
  obtain ⟨r, hl, ho, hle⟩ := h.live hs₀
  have hget := (liveRecord_eq_some.mp hl).1
  obtain ⟨g, hg, hs, hnd, hcur⟩ := h.guard
  have hgi : g.identifier = i ∧ g.generation = s.generations i := by simpa [ofGeneration] using hcur
  cases l with
  | lock j p =>
    by_cases hj : j = i
    · subst hj
      have hgen : s.lockGeneration timeout j = s.generations j := by simp [State.lockGeneration, hl]
      obtain ⟨r', hget', howner, hat⟩ := lock_keeps_live (p := p) hl
      have hle' : t₀ ≤ r'.acquiredAt := by
        rcases hat with hat | hat
        · exact hat ▸ h.started
        · exact hat ▸ hle
      have hrec : ∃ r, (lock timeout s.now s.locks j p).2.get j = some r ∧ r.owner = o ∧
          t₀ ≤ r.acquiredAt :=
        ⟨r', hget', howner.trans ho, hle'⟩
      rcases next_lock hn with ⟨-, rfl⟩ | ⟨e, -, rfl⟩
      · exact ⟨⟨g, by simp [hg], hs, hnd, by simp [ofGeneration, hgi, hgen]⟩, hrec, hstart⟩
      · exact ⟨⟨g, hg, hs, hnd, hcur⟩, hrec, hstart⟩
    · have hij : i ≠ j := fun he => hj he.symm
      have hrec : ∃ r, (lock timeout s.now s.locks j p).2.get i = some r ∧ r.owner = o ∧
          t₀ ≤ r.acquiredAt := ⟨r, (lock_get_of_ne hij).trans hget, ho, hle⟩
      rcases next_lock hn with ⟨-, rfl⟩ | ⟨e, -, rfl⟩
      · exact ⟨⟨g, by simp [hg], hs, hnd, by simp [ofGeneration, hgi, Function.update_of_ne hij]⟩,
          hrec, hstart⟩
      · exact ⟨⟨g, hg, hs, hnd, hcur⟩, hrec, hstart⟩
  | dropGuard m =>
    have hm : g.serial ≠ m := fun he => hd (by rw [← he, hs])
    rw [next_dropGuard hn]
    refine ⟨⟨g, List.mem_map.mpr ⟨g, hg, by simp [markDropped, hm]⟩, hs, hnd, hcur⟩,
      ⟨r, hget, ho, hle⟩, ?_⟩
    exact h.started
  | runUnlock m =>
    obtain ⟨x, hp, hx, hxs, hxd, rfl⟩ := next_runUnlock hn
    have hne : g ≠ x := fun he => by simp [← he, hnd] at hxd
    have hgmem : g ∈ s.guards.erase x := (List.mem_erase_of_ne hne).mpr hg
    obtain ⟨r', hget', howner, hat⟩ :=
      record_after_unlock hT hx (fun r hr ho => hok m x r rfl hp hr ho) hgmem hcur hget
    exact ⟨⟨g, hgmem, hs, hnd, hcur⟩, ⟨r', hget', howner.trans ho, hat ▸ hle⟩, hstart⟩
  | releaseLocks p =>
    have hp : o ≠ p := fun he => hrel (by rw [he])
    simp only [next, Option.some.injEq] at hn
    rw [← hn]
    refine ⟨⟨g, hg, hs, hnd, hcur⟩, ⟨r, ?_, ho, hle⟩, h.started⟩
    simp [get_releaseLocks, hget, Option.filter, ho, hp]
  | advance elapsed =>
    simp only [next, Option.some.injEq] at hn
    subst hn
    exact ⟨⟨g, hg, hs, hnd, hcur⟩, ⟨r, hget, ho, hle⟩, hstart⟩

theorem Holding.path {timeout : ℤ} {s t : State} {ls : List Label} {serial : ℕ} {i o : String}
    {t₀ : ℤ} (hp : Machine.Path (machine timeout) NoStaleUnlock s ls t) (hT : Tracked s)
    (h : Holding s serial i o t₀) (hd : .dropGuard serial ∉ ls) (hrel : .releaseLocks o ∉ ls)
    (ht : t.now - t₀ ≤ timeout) : Holding t serial i o t₀ := by
  have key : Tracked t ∧ (t.now - t₀ ≤ timeout → Holding t serial i o t₀) := by
    refine hp.preserves (P := fun u => Tracked u ∧ (u.now - t₀ ≤ timeout → Holding u serial i o t₀))
      ⟨hT, fun _ => h⟩ ?_
    rintro a l b hl hn hok ⟨hTa, ha⟩
    refine ⟨hTa.step hn hok, fun hb => ?_⟩
    have hmono := now_le_of_next hn
    exact (ha (by omega)).step hTa hn hok (fun he => hd (he ▸ hl)) (fun he => hrel (he ▸ hl)) hb
  exact key.2 ht

/-- While a guard is held, within the timeout and without a release of its owner's locks,
every other owner is refused, provided no stale unlock has run. -/
theorem exclusive_while_held {timeout : ℤ} {s₀ s₁ s₂ : State} {i o p : String} {ls : List Label}
    (h₀ : Machine.Reach (machine timeout) NoStaleUnlock s₀)
    (hlock : (machine timeout).next s₀ (.lock i o) = some s₁)
    (hok : (lock timeout s₀.now s₀.locks i o).1 = .ok ⟨i, o⟩)
    (hpath : Machine.Path (machine timeout) NoStaleUnlock s₁ ls s₂)
    (hdrop : .dropGuard s₀.nextSerial ∉ ls) (hrel : .releaseLocks o ∉ ls)
    (htime : s₂.now - s₀.now ≤ timeout) (hp : p ≠ o) :
    (lock timeout s₂.now s₂.locks i p).1 = .error (.lockAlreadyHeld i o p) := by
  have hn : next timeout s₀ (.lock i o) = some s₁ := hlock
  have hT : Tracked s₁ := (tracked_of_reach h₀).step hn (by rintro serial g r ⟨⟩)
  have hH := Holding.path hpath hT (holding_of_lock hn hok) hdrop hrel htime
  obtain ⟨r, hl, ho, -⟩ := hH.live htime
  rcases lock_cases timeout s₂.now s₂.locks i p with
    ⟨hnone, -, -⟩ | ⟨r₀, hl₀, ho₀, -, -⟩ | ⟨r₀, hl₀, -, herr, -⟩
  · exact absurd (hnone.symm.trans hl) (by simp)
  · obtain rfl := Option.some.inj (hl₀.symm.trans hl)
    exact absurd (ho₀.symm.trans ho) hp
  · obtain rfl := Option.some.inj (hl₀.symm.trans hl)
    rw [herr, ho]

def noStaleCheck (s : State) (l : Label) (_ : State) : Bool :=
  match l with
  | .runUnlock serial =>
    match s.pendingUnlock serial with
    | some g =>
      match s.locks.get g.identifier with
      | some r => decide (r.owner = g.owner → g.generation = s.generations g.identifier)
      | none => true
    | none => true
  | _ => true

theorem noStaleUnlock_of_check (s : State) (l : Label) (t : State) (h : noStaleCheck s l t = true) :
    NoStaleUnlock s l t := by
  rintro serial g r rfl hp hr ho
  simp only [noStaleCheck, hp, hr, decide_eq_true_eq] at h
  exact h ho

/-- A re-entrant guard is taken and given back while the first one stays held. -/
def heldState : State := (machine 30).final noStaleCheck emptyState [.lock "flow" "a"]

def reentry : List Label := [.lock "flow" "a", .dropGuard 1, .runUnlock 1, .advance 7]

def reenteredState : State := (machine 30).final noStaleCheck heldState reentry

theorem exclusive_after_reentry :
    (lock 30 reenteredState.now reenteredState.locks "flow" "b").1 =
      .error (.lockAlreadyHeld "flow" "a" "b") := by
  have h₀ : Machine.Reach (machine 30) NoStaleUnlock emptyState := Machine.Reach.initial ⟨rfl, rfl⟩
  have hp : Machine.Path (machine 30) NoStaleUnlock heldState reentry reenteredState :=
    Machine.path_final noStaleUnlock_of_check (by decide)
  have hstart : next 30 emptyState (.lock "flow" "a") = some heldState := rfl
  exact exclusive_while_held h₀ hstart rfl hp (by decide) (by decide) (by decide) (by decide)

/-- The owner's first record expires, the owner takes the lock again, and the late unlock
of the first guard frees the second one while it is held. -/
def expiredState : State :=
  (machine 20).final (fun _ _ _ => true) emptyState [.lock "flow" "a", .advance 21]

def reacquiredState : State :=
  (machine 20).final (fun _ _ _ => true) expiredState [.lock "flow" "a"]

def lateUnlock : List Label := [.dropGuard 0, .runUnlock 0]

def freedState : State := (machine 20).final (fun _ _ _ => true) reacquiredState lateUnlock

theorem late_unlock_frees_newer_guard :
    ¬ ∀ (timeout : ℤ) (s₀ s₁ s₂ : State) (i o p : String) (ls : List Label),
      Machine.Reach (machine timeout) Machine.Any s₀ →
      (machine timeout).next s₀ (.lock i o) = some s₁ →
      (lock timeout s₀.now s₀.locks i o).1 = .ok ⟨i, o⟩ →
      Machine.Path (machine timeout) Machine.Any s₁ ls s₂ →
      .dropGuard s₀.nextSerial ∉ ls → .releaseLocks o ∉ ls →
      s₂.now - s₀.now ≤ timeout → p ≠ o →
      (lock timeout s₂.now s₂.locks i p).1 ≠ .ok ⟨i, p⟩ := by
  intro h
  have hany : ∀ (a : State) (l : Label) (b : State), true = true → Machine.Any a l b :=
    fun _ _ _ _ => trivial
  have h₀ : Machine.Reach (machine 20) Machine.Any expiredState :=
    ⟨emptyState, _, ⟨rfl, rfl⟩, Machine.path_final hany (by decide)⟩
  have hp : Machine.Path (machine 20) Machine.Any reacquiredState lateUnlock freedState :=
    Machine.path_final hany (by decide)
  exact h 20 expiredState reacquiredState freedState "flow" "a" "b" lateUnlock h₀ rfl rfl hp
    (by decide) (by decide) (by decide) (by decide) rfl

end Facet.Lock
