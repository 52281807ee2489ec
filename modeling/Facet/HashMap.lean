import Mathlib

/-!
# Finite maps

A hash map is read through `get`; the order of its entries carries no meaning.
It is kept as an association list together with the proof that no key occurs
twice, so every reachable map is well formed by construction.
-/
namespace Facet

structure HashMap (κ α : Type*) where
  entries : List (κ × α)
  nodup : (entries.map Prod.fst).Nodup

namespace HashMap
variable {κ α : Type*} [DecidableEq κ]

def empty : HashMap κ α := ⟨[], List.nodup_nil⟩

def get (m : HashMap κ α) (k : κ) : Option α :=
  (m.entries.find? (fun e => e.1 = k)).map Prod.snd

def isEmpty (m : HashMap κ α) : Bool := m.entries.isEmpty

def values (m : HashMap κ α) : List α := m.entries.map Prod.snd

def containsKey (m : HashMap κ α) (k : κ) : Bool := (m.get k).isSome

def retain (m : HashMap κ α) (p : κ → α → Bool) : HashMap κ α where
  entries := m.entries.filter (fun e => p e.1 e.2)
  nodup := m.nodup.sublist (List.filter_sublist.map _)

def remove (m : HashMap κ α) (k : κ) : HashMap κ α := m.retain (fun j _ => decide (j ≠ k))

/-- A key that is already present has its value replaced. -/
def insert (m : HashMap κ α) (k : κ) (v : α) : HashMap κ α where
  entries := (k, v) :: (m.remove k).entries
  nodup := by
    simp only [List.map_cons, List.nodup_cons]
    refine ⟨?_, (m.remove k).nodup⟩
    simp [remove, retain]

@[simp] theorem get_empty (k : κ) : (empty : HashMap κ α).get k = none := rfl

theorem find?_eq_of_nodup {es : List (κ × α)} (hn : (es.map Prod.fst).Nodup) {k : κ} {v : α} :
    (es.find? (fun e => e.1 = k)).map Prod.snd = some v ↔ (k, v) ∈ es := by
  induction es with
  | nil => simp
  | cons e es ih =>
    obtain ⟨hne, hn'⟩ : e.1 ∉ es.map Prod.fst ∧ (es.map Prod.fst).Nodup := by
      simpa only [List.map_cons, List.nodup_cons] using hn
    by_cases he : e.1 = k
    · have hk : (k, v) ∉ es := fun h => hne (he ▸ List.mem_map_of_mem (f := Prod.fst) h)
      rw [List.find?_cons_of_pos (by simpa using he)]
      subst he
      simp [hk, Prod.ext_iff, eq_comm]
    · rw [List.find?_cons_of_neg (by simpa using he), ih hn', List.mem_cons]
      constructor
      · exact Or.inr
      · rintro (h | h)
        · exact absurd (congrArg Prod.fst h).symm he
        · exact h

/-- Lookup and membership of the stored pair are the same fact. -/
theorem get_eq_some_iff (m : HashMap κ α) {k : κ} {v : α} : m.get k = some v ↔ (k, v) ∈ m.entries :=
  find?_eq_of_nodup m.nodup

@[simp] theorem get_retain (m : HashMap κ α) (p : κ → α → Bool) (k : κ) :
    (m.retain p).get k = (m.get k).filter (p k) := by
  ext v
  simp only [get_eq_some_iff, Option.filter_eq_some_iff]
  simp [retain]

@[simp] theorem get_remove (m : HashMap κ α) (k j : κ) :
    (m.remove k).get j = if j = k then none else m.get j := by
  by_cases h : j = k <;> cases hg : m.get j <;> simp [remove, h, hg]

@[simp] theorem get_insert (m : HashMap κ α) (k j : κ) (v : α) :
    (m.insert k v).get j = if j = k then some v else m.get j := by
  by_cases h : j = k
  · simp [insert, get, h]
  · have he : (m.insert k v).get j = (m.remove k).get j := by
      simp only [insert, get]
      rw [List.find?_cons_of_neg (by simpa using fun e => h e.symm)]
    rw [he, get_remove, if_neg h, if_neg h]

theorem get_insert_eq_some {m : HashMap κ α} {k j : κ} {v w : α}
    (h : (m.insert k v).get j = some w) : j = k ∧ w = v ∨ j ≠ k ∧ m.get j = some w := by
  rw [get_insert] at h
  split_ifs at h with hj
  · exact Or.inl ⟨hj, (Option.some.inj h).symm⟩
  · exact Or.inr ⟨hj, h⟩

theorem get_remove_eq_some {m : HashMap κ α} {k j : κ} {w : α} (h : (m.remove k).get j = some w) :
    j ≠ k ∧ m.get j = some w := by
  rw [get_remove] at h
  split_ifs at h with hj
  exact ⟨hj, h⟩

/-- An entry can be taken to the front. -/
theorem entries_perm_of_get {m : HashMap κ α} {k : κ} {v : α} (h : m.get k = some v) :
    m.entries.Perm ((k, v) :: (m.remove k).entries) := by
  have hput : ((k, v) :: (m.remove k).entries).Nodup := (m.insert k v).nodup.of_map
  refine (List.perm_ext_iff_of_nodup m.nodup.of_map hput).mpr ?_
  intro ⟨j, w⟩
  rw [List.mem_cons, ← get_eq_some_iff, ← get_eq_some_iff, get_remove, Prod.mk.injEq]
  by_cases hj : j = k
  · simp [hj, h, eq_comm]
  · simp [hj]

theorem remove_of_get_none {m : HashMap κ α} {k : κ} (h : m.get k = none) : m.remove k = m := by
  have hall : m.entries.filter (fun e => decide (e.1 ≠ k)) = m.entries := by
    refine List.filter_eq_self.mpr fun e he => ?_
    rw [decide_eq_true_eq]
    intro hk
    rw [(get_eq_some_iff m).mpr (show (k, e.2) ∈ m.entries by rwa [← hk])] at h
    exact absurd h (by simp)
  cases m
  simpa [remove, retain] using hall

def mapValues {β : Type*} (m : HashMap κ α) (f : κ → α → β) : HashMap κ β where
  entries := m.entries.map fun e => (e.1, f e.1 e.2)
  nodup := by
    rw [List.map_map]
    exact m.nodup

theorem get_mapValues {β : Type*} (m : HashMap κ α) (f : κ → α → β) (k : κ) :
    (m.mapValues f).get k = (m.get k).map (f k) := by
  obtain ⟨entries, hnodup⟩ := m
  unfold get mapValues
  dsimp only
  clear hnodup
  induction entries with
  | nil => rfl
  | cons e es ih =>
    rw [List.map_cons, List.find?_cons, List.find?_cons]
    by_cases he : e.1 = k
    · simp [he]
    · simpa [he] using ih

omit [DecidableEq κ] in
theorem eq_of_entries {m m' : HashMap κ α} (h : m.entries = m'.entries) : m = m' := by
  cases m
  cases m'
  congr

omit [DecidableEq κ] in
theorem mapValues_retain {β : Type*} (m : HashMap κ α) (f : κ → α → β) (keep : κ → α → Bool)
    (keep' : κ → β → Bool) (h : ∀ k v, keep' k (f k v) = keep k v) :
    (m.mapValues f).retain keep' = (m.retain keep).mapValues f := by
  apply eq_of_entries
  simp only [mapValues, retain, List.filter_map]
  congr 1
  exact List.filter_congr fun e _ => h e.1 e.2

theorem mapValues_remove {β : Type*} (m : HashMap κ α) (f : κ → α → β) (k : κ) :
    (m.mapValues f).remove k = (m.remove k).mapValues f := mapValues_retain m f _ _ fun _ _ => rfl

theorem mapValues_insert {β : Type*} (m : HashMap κ α) (f : κ → α → β) (k : κ) (v : α) :
    (m.mapValues f).insert k (f k v) = (m.insert k v).mapValues f := by
  apply eq_of_entries
  exact congrArg (fun rest : HashMap κ β => (k, f k v) :: rest.entries) (mapValues_remove m f k)

/-- Values filed one after the other, each under a key of its own. -/
def extendBy (m : HashMap κ α) (key : α → κ) (xs : List α) : HashMap κ α :=
  xs.foldl (fun m x => m.insert (key x) x) m

/-- The last value of a key is kept. -/
theorem get_extendBy (m : HashMap κ α) (key : α → κ) (xs : List α) (k : κ) :
    (m.extendBy key xs).get k = (xs.reverse.find? fun x => decide (key x = k)).or (m.get k) := by
  induction xs generalizing m with
  | nil => rfl
  | cons x xs ih =>
    rw [extendBy, List.foldl_cons, ← extendBy, ih, get_insert, List.reverse_cons, List.find?_append,
      Option.or_assoc]
    congr 1
    by_cases hk : key x = k
    · simp [hk]
    · simp [hk, Ne.symm hk]

theorem get_extendBy_eq_some {m : HashMap κ α} {key : α → κ} {xs : List α} {k : κ} {x : α}
    (h : (m.extendBy key xs).get k = some x) :
    key x = k ∧ x ∈ xs ∨ (∀ y ∈ xs, key y ≠ k) ∧ m.get k = some x := by
  rw [get_extendBy, Option.or_eq_some_iff] at h
  rcases h with hlast | ⟨hnone, hold⟩
  · refine Or.inl ⟨by simpa using List.find?_some hlast, ?_⟩
    exact List.mem_reverse.mp (List.mem_of_find?_eq_some hlast)
  · refine Or.inr ⟨?_, hold⟩
    intro y hy
    simpa using List.find?_eq_none.mp hnone y (List.mem_reverse.mpr hy)

theorem exists_get_extendBy (m : HashMap κ α) (key : α → κ) {xs : List α} {x : α} (hx : x ∈ xs) :
    ∃ y, (m.extendBy key xs).get (key x) = some y := by
  have hlast : (xs.reverse.find? fun y => decide (key y = key x)).isSome = true :=
    List.find?_isSome.mpr ⟨x, List.mem_reverse.mpr hx, by simp⟩
  obtain ⟨y, hy⟩ := Option.isSome_iff_exists.mp hlast
  exact ⟨y, by rw [get_extendBy, hy, Option.some_or]⟩

/-- Nothing is lost exactly when no two different values share a key. -/
theorem get_extendBy_self_iff (key : α → κ) (xs : List α) :
    (∀ x ∈ xs, (empty.extendBy key xs).get (key x) = some x) ↔ ∀ x ∈ xs, ∀ y ∈ xs,
      key x = key y → x = y := by
  constructor
  · intro hkept x hx y hy hkey
    have hget := hkept x hx
    rw [hkey, hkept y hy] at hget
    exact (Option.some.inj hget).symm
  · intro hinj x hx
    obtain ⟨y, hy⟩ := exists_get_extendBy empty key hx
    rcases get_extendBy_eq_some hy with ⟨hkey, hmem⟩ | ⟨hnone, -⟩
    · rw [hy, hinj y hmem x hx hkey]
    · exact absurd rfl (hnone x hx)

/-- Entries under keys of their own are there after they were filed one after the other. -/
theorem get_foldl_insert {es : List (κ × α)} (hn : (es.map Prod.fst).Nodup) (m : HashMap κ α)
    (k : κ) : (es.foldl (fun m entry => m.insert entry.1 entry.2) m).get k =
      ((es.find? fun e => e.1 = k).map Prod.snd).or (m.get k) := by
  induction es generalizing m with
  | nil => rfl
  | cons e es ih =>
    rw [List.map_cons, List.nodup_cons] at hn
    rw [List.foldl_cons, ih hn.2, get_insert]
    by_cases hk : e.1 = k
    · have hrest : es.find? (fun e => e.1 = k) = none := by
        rw [List.find?_eq_none]
        intro e' he' hk'
        have hmem := List.mem_map_of_mem (f := Prod.fst) he'
        rw [of_decide_eq_true hk', ← hk] at hmem
        exact hn.1 hmem
      rw [hrest, List.find?_cons_of_pos (by simpa using hk), if_pos hk.symm]
      rfl
    · rw [List.find?_cons_of_neg (by simpa using hk), if_neg (Ne.symm hk)]

end HashMap
end Facet
