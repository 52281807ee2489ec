import Facet.HashMap

/-!
# Stores of one value for each key

A store creates, updates, finds and deletes by key, in memory or in a table of a database. A
statement may fail before it reaches the database or after it took effect, and the database may
refuse what is bound to it. A table whose rows read back as what was written refines the store in
memory: a call is told what the store in memory would have told it, or that the storage failed.
-/
namespace Facet

/-- A statement is answered, never gets to the database, or takes effect without an answer. -/
inductive Fate
  | answered
  | lost (reason : String)
  | unanswered (reason : String)
  deriving DecidableEq, Repr

structure KeyedStore (σ ε α : Type) where
  create : Fate → String → α → σ → Except ε Unit × σ
  update : Fate → String → α → σ → Except ε Unit × σ
  find : Fate → String → σ → Except ε α
  delete : Fate → String → σ → Except ε Unit × σ

/-- `failed` is told what was to be done, and why it was not. -/
structure StoreErrors (ε : Type) where
  alreadyExists : String → ε
  notFound : String → ε
  failed : String → String → ε

/-- `refused` is why the database does not take a key, or a value, that is bound to a statement. -/
structure RowFormat (α ρ : Type) where
  refused : String → Option α → Option String
  write : α → ρ
  read : String → ρ → Except String α

namespace KeyedStore
variable {σ τ υ ε α ρ β : Type}

def memory (errors : StoreErrors ε) : KeyedStore (HashMap String α) ε α where
  create _ k x m :=
    if m.containsKey k then (.error (errors.alreadyExists k), m) else (.ok (), m.insert k x)
  update _ k x m :=
    if m.containsKey k then (.ok (), m.insert k x) else (.error (errors.notFound k), m)
  find _ k m :=
    match m.get k with
    | some x => .ok x
    | none => .error (errors.notFound k)
  delete _ k m := (if m.containsKey k then .ok () else .error (errors.notFound k), m.remove k)

/-- A single statement. -/
def execute (fate : Fate) (refused : Option String) (statement : τ → β × τ) (t : τ) :
    Except String β × τ :=
  match refused, fate with
  | some reason, _ => (.error reason, t)
  | none, .answered => (.ok (statement t).1, (statement t).2)
  | none, .lost reason => (.error reason, t)
  | none, .unanswered reason => (.error reason, (statement t).2)

/-- `INSERT`, with whether the key was new: the primary key admits no second row. -/
def insertRow (k : String) (row : ρ) (t : HashMap String ρ) : Bool × HashMap String ρ :=
  if t.containsKey k then (false, t) else (true, t.insert k row)

/-- `UPDATE .. WHERE` the key is `k`, with the number of rows. -/
def updateRow (k : String) (row : ρ) (t : HashMap String ρ) : ℕ × HashMap String ρ :=
  if t.containsKey k then (1, t.insert k row) else (0, t)

/-- `DELETE .. WHERE` the key is `k`, with the number of rows. -/
def deleteRow (k : String) (t : HashMap String ρ) : ℕ × HashMap String ρ :=
  (if t.containsKey k then 1 else 0, t.remove k)

def table (errors : StoreErrors ε) (rows : RowFormat α ρ) : KeyedStore (HashMap String ρ) ε α where
  create fate k x t :=
    let result := execute fate (rows.refused k (some x)) (insertRow k (rows.write x)) t
    (match result.1 with
      | .ok true => .ok ()
      | .ok false => .error (errors.alreadyExists k)
      | .error e => .error (errors.failed "create" e), result.2)
  update fate k x t :=
    let result := execute fate (rows.refused k (some x)) (updateRow k (rows.write x)) t
    (match result.1 with
      | .ok 0 => .error (errors.notFound k)
      | .ok _ => .ok ()
      | .error e => .error (errors.failed "update" e), result.2)
  find fate k t :=
    match (execute fate (rows.refused k none) (fun t => (t.get k, t)) t).1 with
    | .ok (some row) => (rows.read k row).mapError (errors.failed "fetch")
    | .ok none => .error (errors.notFound k)
    | .error e => .error (errors.failed "fetch" e)
  delete fate k t :=
    let result := execute fate (rows.refused k none) (deleteRow k) t
    (match result.1 with
      | .ok 0 => .error (errors.notFound k)
      | .ok _ => .ok ()
      | .error e => .error (errors.failed "delete" e), result.2)

/-- The store as one of two. -/
def first (S : KeyedStore σ ε α) : KeyedStore (σ × υ) ε α where
  create fate k x s := ((S.create fate k x s.1).1, (S.create fate k x s.1).2, s.2)
  update fate k x s := ((S.update fate k x s.1).1, (S.update fate k x s.1).2, s.2)
  find fate k s := S.find fate k s.1
  delete fate k s := ((S.delete fate k s.1).1, (S.delete fate k s.1).2, s.2)

def second (S : KeyedStore σ ε α) : KeyedStore (υ × σ) ε α where
  create fate k x s := ((S.create fate k x s.2).1, s.1, (S.create fate k x s.2).2)
  update fate k x s := ((S.update fate k x s.2).1, s.1, (S.update fate k x s.2).2)
  find fate k s := S.find fate k s.2
  delete fate k s := ((S.delete fate k s.2).1, s.1, (S.delete fate k s.2).2)

/-! ## Refinement -/

/-- A write is told what the other store tells it, and so are the states after it; or it failed,
with the effect of the other one or with none. -/
def Explained (R : τ → σ → Prop) (Failed : ε → Prop) (s : σ) (result : Except ε Unit × τ)
    (result' : Except ε Unit × σ) : Prop :=
  result.1 = result'.1 ∧ R result.2 result'.2 ∨
    (∃ e, result.1 = .error e ∧ Failed e) ∧ (R result.2 s ∨ R result.2 result'.2)

/-- A read is told what the other store tells it, up to `Same`, or it failed. -/
def Answered (Same : α → α → Prop) (Failed : ε → Prop) (result result' : Except ε α) : Prop :=
  (∃ x x', result = .ok x ∧ result' = .ok x' ∧ Same x x') ∨
    (∃ e, result = .error e ∧ result' = .error e) ∨
    ∃ e, result = .error e ∧ Failed e

structure Refines (S : KeyedStore τ ε α) (M : KeyedStore σ ε α) (R : τ → σ → Prop)
    (Same : α → α → Prop) (Failed : ε → Prop) : Prop where
  create : ∀ fate k x t s, R t s →
    Explained R Failed s (S.create fate k x t) (M.create .answered k x s)
  update : ∀ fate k x t s, R t s →
    Explained R Failed s (S.update fate k x t) (M.update .answered k x s)
  find : ∀ fate k t s, R t s → Answered Same Failed (S.find fate k t) (M.find .answered k s)
  delete : ∀ fate k t s, R t s → Explained R Failed s (S.delete fate k t) (M.delete .answered k s)

section Pairs
variable {S : KeyedStore τ ε α} {M : KeyedStore σ ε α} {R : τ → σ → Prop} {Same : α → α → Prop}
  {Failed : ε → Prop} {τ' σ' : Type} {R' : τ' → σ' → Prop}

theorem Refines.first (h : S.Refines M R Same Failed) : S.first.Refines M.first
    (fun (t : τ × τ') (s : σ × σ') => R t.1 s.1 ∧ R' t.2 s.2) Same Failed := by
  have hlift : ∀ {t : τ × τ'} {s : σ × σ'} {result : Except ε Unit × τ}
      {result' : Except ε Unit × σ}, R' t.2 s.2 →
      Explained R Failed s.1 result result' →
        Explained (fun (t : τ × τ') (s : σ × σ') => R t.1 s.1 ∧ R' t.2 s.2) Failed s
        (result.1, result.2, t.2) (result'.1, result'.2, s.2) := by
    intro t s result result' hother hexplained
    rcases hexplained with ⟨hsame, hrel⟩ | ⟨hfailed, hrel⟩
    · exact Or.inl ⟨hsame, hrel, hother⟩
    · exact Or.inr ⟨hfailed, hrel.imp (fun h => ⟨h, hother⟩) fun h => ⟨h, hother⟩⟩
  exact {
    create := fun fate k x t s hts => hlift hts.2 (h.create fate k x t.1 s.1 hts.1)
    update := fun fate k x t s hts => hlift hts.2 (h.update fate k x t.1 s.1 hts.1)
    find := fun fate k t s hts => h.find fate k t.1 s.1 hts.1
    delete := fun fate k t s hts => hlift hts.2 (h.delete fate k t.1 s.1 hts.1) }

theorem Refines.second (h : S.Refines M R Same Failed) : S.second.Refines M.second
    (fun (t : τ' × τ) (s : σ' × σ) => R' t.1 s.1 ∧ R t.2 s.2) Same Failed := by
  have hlift : ∀ {t : τ' × τ} {s : σ' × σ} {result : Except ε Unit × τ}
      {result' : Except ε Unit × σ}, R' t.1 s.1 →
      Explained R Failed s.2 result result' →
        Explained (fun (t : τ' × τ) (s : σ' × σ) => R' t.1 s.1 ∧ R t.2 s.2) Failed s
        (result.1, t.1, result.2) (result'.1, s.1, result'.2) := by
    intro t s result result' hother hexplained
    rcases hexplained with ⟨hsame, hrel⟩ | ⟨hfailed, hrel⟩
    · exact Or.inl ⟨hsame, hother, hrel⟩
    · exact Or.inr ⟨hfailed, hrel.imp (fun h => ⟨hother, h⟩) fun h => ⟨hother, h⟩⟩
  exact {
    create := fun fate k x t s hts => hlift hts.1 (h.create fate k x t.2 s.2 hts.2)
    update := fun fate k x t s hts => hlift hts.1 (h.update fate k x t.2 s.2 hts.2)
    find := fun fate k t s hts => h.find fate k t.2 s.2 hts.2
    delete := fun fate k t s hts => hlift hts.1 (h.delete fate k t.2 s.2 hts.2) }

end Pairs

section Table
variable {errors : StoreErrors ε} {rows : RowFormat α ρ} {Same : α → α → Prop}

/-- What a row is read as is what was written. -/
def Faithful (rows : RowFormat α ρ) (Same : α → α → Prop) : Prop :=
  ∀ k x, ∃ x', rows.read k (rows.write x) = .ok x' ∧ Same x' x

/-- The table has the rows of the values in memory. -/
def Holds (rows : RowFormat α ρ) (t : HashMap String ρ) (m : HashMap String α) : Prop :=
  ∀ k, t.get k = (m.get k).map rows.write

theorem Holds.containsKey {t : HashMap String ρ} {m : HashMap String α} (h : Holds rows t m)
    (k : String) : t.containsKey k = m.containsKey k := by
  rw [HashMap.containsKey, HashMap.containsKey, h k, Option.isSome_map]

theorem Holds.insert {t : HashMap String ρ} {m : HashMap String α} (h : Holds rows t m) (k : String)
    (x : α) : Holds rows (t.insert k (rows.write x)) (m.insert k x) := by
  intro j
  rw [HashMap.get_insert, HashMap.get_insert]
  by_cases hj : j = k
  · simp [hj]
  · simp [hj, h j]

theorem Holds.remove {t : HashMap String ρ} {m : HashMap String α} (h : Holds rows t m)
    (k : String) : Holds rows (t.remove k) (m.remove k) := by
  intro j
  rw [HashMap.get_remove, HashMap.get_remove]
  by_cases hj : j = k
  · simp [hj]
  · simp [hj, h j]

theorem execute_cases (fate : Fate) (refused : Option String) (statement : τ → β × τ) (t : τ) :
    execute fate refused statement t = (.ok (statement t).1, (statement t).2) ∨
    ∃ reason, execute fate refused statement t = (.error reason, t) ∨
      execute fate refused statement t = (.error reason, (statement t).2) := by
  cases refused with
  | some reason => exact Or.inr ⟨reason, Or.inl rfl⟩
  | none =>
    cases fate with
    | answered => exact Or.inl rfl
    | lost reason => exact Or.inr ⟨reason, Or.inl rfl⟩
    | unanswered reason => exact Or.inr ⟨reason, Or.inr rfl⟩

/-- The error of a failed statement. -/
def StorageFailed (errors : StoreErrors ε) (e : ε) : Prop :=
  ∃ action reason, e = errors.failed action reason

theorem explained_of_statement {R : τ → σ → Prop} {t : τ} {s : σ} {statement : τ → β × τ}
    {result' : Except ε Unit × σ} (tell : Except String β → Except ε Unit) (hR : R t s)
    (htell : tell (.ok (statement t).1) = result'.1) (hnext : R (statement t).2 result'.2)
    (hfailed : ∀ reason, ∃ e, tell (.error reason) = .error e ∧ StorageFailed errors e)
    (fate : Fate) (refused : Option String) : Explained R (StorageFailed errors) s
      (tell (execute fate refused statement t).1, (execute fate refused statement t).2)
      result' := by
  rcases execute_cases fate refused statement t with hanswered | ⟨reason, hlost | hunanswered⟩
  · rw [hanswered]
    exact Or.inl ⟨htell, hnext⟩
  · rw [hlost]
    exact Or.inr ⟨hfailed reason, Or.inl hR⟩
  · rw [hunanswered]
    exact Or.inr ⟨hfailed reason, Or.inr hnext⟩

theorem table_refines_memory (hrows : Faithful rows Same) :
    (table errors rows).Refines (memory errors) (Holds rows) Same (StorageFailed errors) where
  create fate k x t m h := by
    refine explained_of_statement (fun
      | .ok true => .ok ()
      | .ok false => .error (errors.alreadyExists k)
      | .error e => .error (errors.failed "create" e)) h ?_ ?_ (fun reason =>
          ⟨_, rfl, _, _, rfl⟩) fate _
    all_goals
      unfold insertRow memory
      dsimp only
      rw [h.containsKey]
      cases m.containsKey k
    · rfl
    · rfl
    · exact h.insert k x
    · exact h
  update fate k x t m h := by
    refine explained_of_statement (fun
      | .ok 0 => .error (errors.notFound k)
      | .ok _ => .ok ()
      | .error e => .error (errors.failed "update" e)) h ?_ ?_ (fun reason =>
          ⟨_, rfl, _, _, rfl⟩) fate _
    all_goals
      unfold updateRow memory
      dsimp only
      rw [h.containsKey]
      cases m.containsKey k
    · rfl
    · rfl
    · exact h
    · exact h.insert k x
  find fate k t m h := by
    unfold table memory
    dsimp only
    rcases execute_cases fate (rows.refused k none) (fun t : HashMap String ρ =>
      (t.get k, t)) t with
      hanswered | ⟨reason, hfailed | hfailed⟩
    · rw [hanswered]
      dsimp only
      rw [h k]
      cases hget : m.get k with
      | none => exact Or.inr (Or.inl ⟨_, rfl, rfl⟩)
      | some x =>
        obtain ⟨x', hread, hsame⟩ := hrows k x
        refine Or.inl ⟨x', x, ?_, rfl, hsame⟩
        simp [hread, Except.mapError]
    all_goals
      rw [hfailed]
      exact Or.inr (Or.inr ⟨_, rfl, _, _, rfl⟩)
  delete fate k t m h := by
    refine explained_of_statement (fun
      | .ok 0 => .error (errors.notFound k)
      | .ok _ => .ok ()
      | .error e => .error (errors.failed "delete" e)) h ?_ ?_ (fun reason =>
          ⟨_, rfl, _, _, rfl⟩) fate _
    · unfold deleteRow memory
      dsimp only
      rw [h.containsKey]
      cases m.containsKey k <;> rfl
    · exact h.remove k

/-! ## What an answer says -/

/-- A write that is told of success took effect, and one that is told of an error did not. -/
def Told (result : Except ε Unit × τ) (before after : τ) : Prop :=
  result.1 = .ok () ∧ result.2 = after ∨ (∃ e, result.1 = .error e) ∧ result.2 = before

theorem execute_of_answer {fate : Fate} (hfate : ∀ reason, fate ≠ .unanswered reason)
    (refused : Option String) (statement : τ → β × τ) (t : τ) :
    execute fate refused statement t = (.ok (statement t).1, (statement t).2) ∨
      ∃ reason, execute fate refused statement t = (.error reason, t) := by
  cases refused with
  | some reason => exact Or.inr ⟨reason, rfl⟩
  | none =>
    cases fate with
    | answered => exact Or.inl rfl
    | lost reason => exact Or.inr ⟨reason, rfl⟩
    | unanswered reason => exact absurd rfl (hfate reason)

theorem table_create_told {fate : Fate} (hfate : ∀ reason, fate ≠ .unanswered reason) (k : String)
    (x : α) (t : HashMap String ρ) :
    Told ((table errors rows).create fate k x t) t (t.insert k (rows.write x)) := by
  unfold table
  dsimp only
  rcases execute_of_answer hfate (rows.refused k (some x)) (insertRow k (rows.write x)) t with
    hanswer | ⟨reason, hfailed⟩
  · rw [hanswer, insertRow]
    cases t.containsKey k with
    | true => exact Or.inr ⟨⟨_, rfl⟩, rfl⟩
    | false => exact Or.inl ⟨rfl, rfl⟩
  · rw [hfailed]
    exact Or.inr ⟨⟨_, rfl⟩, rfl⟩

theorem table_update_told {fate : Fate} (hfate : ∀ reason, fate ≠ .unanswered reason) (k : String)
    (x : α) (t : HashMap String ρ) :
    Told ((table errors rows).update fate k x t) t (t.insert k (rows.write x)) := by
  unfold table
  dsimp only
  rcases execute_of_answer hfate (rows.refused k (some x)) (updateRow k (rows.write x)) t with
    hanswer | ⟨reason, hfailed⟩
  · rw [hanswer, updateRow]
    cases t.containsKey k with
    | true => exact Or.inl ⟨rfl, rfl⟩
    | false => exact Or.inr ⟨⟨_, rfl⟩, rfl⟩
  · rw [hfailed]
    exact Or.inr ⟨⟨_, rfl⟩, rfl⟩

theorem table_delete_told {fate : Fate} (hfate : ∀ reason, fate ≠ .unanswered reason) (k : String)
    (t : HashMap String ρ) : Told ((table errors rows).delete fate k t) t (t.remove k) := by
  unfold table
  dsimp only
  rcases execute_of_answer hfate (rows.refused k none) (deleteRow k) t with
    hanswer | ⟨reason, hfailed⟩
  · rw [hanswer, deleteRow]
    cases hcontains : t.containsKey k with
    | true => exact Or.inl ⟨rfl, rfl⟩
    | false =>
      refine Or.inr ⟨⟨_, rfl⟩, HashMap.remove_of_get_none ?_⟩
      exact Option.not_isSome_iff_eq_none.mp (by simpa [HashMap.containsKey] using hcontains)
  · rw [hfailed]
    exact Or.inr ⟨⟨_, rfl⟩, rfl⟩

end Table
end KeyedStore
end Facet
