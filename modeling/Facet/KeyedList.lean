import Mathlib.Data.List.Nodup
import Mathlib.Data.List.Basic

/-!
# Lists with keys

`upsert` replaces the first element of a key where it stands or appends the new one; `overlay`
does so for a whole list. What the keys are, in which order, and which element each of them has.
-/
namespace Facet.KeyedList
variable {α κ : Type} [DecidableEq κ] (key : α → κ)

def upsert (x : α) : List α → List α
  | [] => [x]
  | y :: ys => if key y = key x then x :: ys else y :: upsert x ys

def overlay (base added : List α) : List α := added.foldl (fun merged x => upsert key x merged) base

/-- The first element of a key. -/
def lookup (k : κ) (xs : List α) : Option α := xs.find? fun x => decide (key x = k)

variable {key}

@[simp] theorem lookup_nil (k : κ) : lookup key k [] = none := rfl

theorem lookup_cons (k : κ) (y : α) (ys : List α) :
    lookup key k (y :: ys) = if key y = k then some y else lookup key k ys := by
  by_cases hy : key y = k <;> simp [lookup, hy]

theorem lookup_eq_none {k : κ} {xs : List α} : lookup key k xs = none ↔ k ∉ xs.map key := by
  rw [lookup, List.find?_eq_none]
  simp

theorem mem_of_lookup {k : κ} {xs : List α} {x : α} (hx : lookup key k xs = some x) : x ∈ xs :=
  List.mem_of_find?_eq_some hx

/-- With the keys distinct, every element is the first one of its key. -/
theorem lookup_of_mem {xs : List α} (hnodup : (xs.map key).Nodup) {x : α} (hx : x ∈ xs) :
    lookup key (key x) xs = some x := by
  induction xs with
  | nil => simp at hx
  | cons y ys ih =>
    rw [List.map_cons, List.nodup_cons] at hnodup
    rw [lookup_cons]
    rcases List.mem_cons.mp hx with rfl | hys
    · exact if_pos rfl
    · have hne : key y ≠ key x := fun heq => hnodup.1 (heq ▸ List.mem_map_of_mem hys)
      rw [if_neg hne]
      exact ih hnodup.2 hys

/-! ## One element -/

theorem map_upsert (x : α) (xs : List α) : (upsert key x xs).map key =
    if key x ∈ xs.map key then xs.map key else xs.map key ++ [key x] := by
  induction xs with
  | nil => simp [upsert]
  | cons y ys ih =>
    rw [upsert]
    by_cases hy : key y = key x
    · simp [hy]
    · have hx : key x ≠ key y := Ne.symm hy
      rw [if_neg hy, List.map_cons, ih]
      by_cases hmem : key x ∈ ys.map key
      · rw [if_pos hmem, List.map_cons, if_pos (List.mem_cons_of_mem _ hmem)]
      · rw [if_neg hmem, List.map_cons, if_neg (by simpa [hx] using hmem), List.cons_append]

theorem lookup_upsert (k : κ) (x : α) (xs : List α) :
    lookup key k (upsert key x xs) = if key x = k then some x else lookup key k xs := by
  induction xs with
  | nil => simp [upsert, lookup_cons]
  | cons y ys ih =>
    rw [upsert]
    by_cases hy : key y = key x
    · rw [if_pos hy, lookup_cons, lookup_cons, hy]
      by_cases hk : key x = k
      · rw [if_pos hk, if_pos hk]
      · rw [if_neg hk, if_neg hk, if_neg hk]
    · rw [if_neg hy, lookup_cons, lookup_cons, ih]
      by_cases hk : key y = k
      · rw [if_pos hk, if_pos hk, if_neg (fun hx => hy (hk.trans hx.symm))]
      · rw [if_neg hk, if_neg hk]

theorem nodup_upsert (x : α) {xs : List α} (hnodup : (xs.map key).Nodup) :
    ((upsert key x xs).map key).Nodup := by
  rw [map_upsert]
  split_ifs with hmem
  · exact hnodup
  · rw [List.nodup_append]
    refine ⟨hnodup, List.nodup_singleton _, ?_⟩
    intro k hk other hother heq
    rw [List.mem_singleton] at hother
    exact hmem (hother ▸ heq ▸ hk)

/-- An element that is there already is put in its own place. -/
theorem upsert_of_lookup {x : α} {xs : List α} (hx : lookup key (key x) xs = some x) :
    upsert key x xs = xs := by
  induction xs with
  | nil => simp at hx
  | cons y ys ih =>
    rw [lookup_cons] at hx
    rw [upsert]
    by_cases hy : key y = key x
    · rw [if_pos hy] at hx ⊢
      rw [Option.some.inj hx]
    · rw [if_neg hy] at hx ⊢
      rw [ih hx]

/-! ## A whole list -/

@[simp] theorem overlay_nil (base : List α) : overlay key base [] = base := rfl

theorem overlay_cons (base : List α) (x : α) (added : List α) :
    overlay key base (x :: added) = overlay key (upsert key x base) added := rfl

theorem nodup_overlay {base : List α} (added : List α) (hnodup : (base.map key).Nodup) :
    ((overlay key base added).map key).Nodup := by
  induction added generalizing base with
  | nil => exact hnodup
  | cons x added ih => exact ih (nodup_upsert x hnodup)

/-- The keys of the base stay where they are; the new ones follow in their order. -/
theorem map_overlay (base : List α) {added : List α} (hadded : (added.map key).Nodup) :
    (overlay key base added).map key =
      base.map key ++ (added.map key).filter (fun k => decide (k ∉ base.map key)) := by
  induction added generalizing base with
  | nil => simp
  | cons x added ih =>
    rw [List.map_cons, List.nodup_cons] at hadded
    rw [overlay_cons, ih _ hadded.2, map_upsert, List.map_cons]
    by_cases hmem : key x ∈ base.map key
    · rw [if_pos hmem, List.filter_cons_of_neg (by simpa using hmem)]
    · rw [if_neg hmem, List.filter_cons_of_pos (by simpa using hmem), List.append_assoc,
        List.singleton_append]
      congr 2
      refine List.filter_congr fun k hk => ?_
      have hne : k ≠ key x := fun heq => hadded.1 (heq ▸ hk)
      simp [hne]

/-- The element of a key is that of the list laid over the base, if it has one. -/
theorem lookup_overlay (k : κ) (base : List α) {added : List α} (hadded : (added.map key).Nodup) :
    lookup key k (overlay key base added) = (lookup key k added).or (lookup key k base) := by
  induction added generalizing base with
  | nil => rfl
  | cons x added ih =>
    rw [List.map_cons, List.nodup_cons] at hadded
    rw [overlay_cons, ih _ hadded.2, lookup_upsert, lookup_cons]
    by_cases hk : key x = k
    · have hnone : lookup key k added = none := lookup_eq_none.mpr (hk ▸ hadded.1)
      rw [if_pos hk, if_pos hk, hnone]
      rfl
    · rw [if_neg hk, if_neg hk]

theorem overlay_of_lookup {base added : List α}
    (hthere : ∀ x ∈ added, lookup key (key x) base = some x) : overlay key base added = base := by
  induction added with
  | nil => rfl
  | cons x added ih =>
    rw [overlay_cons, upsert_of_lookup (hthere x List.mem_cons_self)]
    exact ih fun y hy => hthere y (List.mem_cons_of_mem _ hy)

theorem overlay_overlay (base : List α) {added : List α} (hadded : (added.map key).Nodup) :
    overlay key (overlay key base added) added = overlay key base added := by
  refine overlay_of_lookup fun x hx => ?_
  rw [lookup_overlay _ _ hadded, lookup_of_mem hadded hx]
  rfl

/-- The elements: those of the list laid over the base, and those of the base whose key it does not
have. -/
theorem mem_overlay {base added : List α} (hbase : (base.map key).Nodup)
    (hadded : (added.map key).Nodup) (x : α) :
    x ∈ overlay key base added ↔ x ∈ added ∨ x ∈ base ∧ key x ∉ added.map key := by
  have hlookup := lookup_overlay (key x) base hadded
  constructor
  · intro hx
    rw [lookup_of_mem (nodup_overlay added hbase) hx] at hlookup
    cases hover : lookup key (key x) added with
    | some y =>
      rw [hover, Option.some_or] at hlookup
      exact Or.inl (Option.some.inj hlookup ▸ mem_of_lookup hover)
    | none =>
      rw [hover, Option.none_or] at hlookup
      exact Or.inr ⟨mem_of_lookup hlookup.symm, lookup_eq_none.mp hover⟩
  · rintro (hx | ⟨hx, hnot⟩)
    · rw [lookup_of_mem hadded hx, Option.some_or] at hlookup
      exact mem_of_lookup hlookup
    · rw [lookup_eq_none.mpr hnot, Option.none_or, lookup_of_mem hbase hx] at hlookup
      exact mem_of_lookup hlookup

end Facet.KeyedList
