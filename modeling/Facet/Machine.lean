import Mathlib

/-!
# Labelled machines and their runs

A machine is a partial step function. Everything the environment chooses (which
party moves, what a clock or a random source answers) is part of the label, so
a run is determined by its labels and can be evaluated.

Assumptions about a run are stated as a predicate `ok` on its single steps: the
state before, the label, and the state after.
-/
namespace Facet

structure Machine (σ ι : Type*) where
  init : σ → Prop
  next : σ → ι → Option σ

namespace Machine
variable {σ ι : Type*} {M : Machine σ ι} {ok ok' : σ → ι → σ → Prop}

/-- Runs from one state to another all of whose steps satisfy `ok`. -/
inductive Path (M : Machine σ ι) (ok : σ → ι → σ → Prop) : σ → List ι → σ → Prop
  | nil (s : σ) : Path M ok s [] s
  | cons {s t u : σ} {l : ι} {ls : List ι} (step : M.next s l = some t) (good : ok s l t)
      (rest : Path M ok t ls u) : Path M ok s (l :: ls) u

/-- States reached from an initial state by steps that all satisfy `ok`. -/
def Reach (M : Machine σ ι) (ok : σ → ι → σ → Prop) (s : σ) : Prop :=
  ∃ s₀ ls, M.init s₀ ∧ Path M ok s₀ ls s

/-- No assumption on the steps. -/
def Any : σ → ι → σ → Prop := fun _ _ _ => True

theorem Path.append {s t u : σ} {ls ms : List ι} (h : Path M ok s ls t) (g : Path M ok t ms u) :
    Path M ok s (ls ++ ms) u := by
  induction h with
  | nil s => exact g
  | cons hs hok _ ih => exact Path.cons hs hok (ih g)

theorem Path.one {s t : σ} {l : ι} (h : M.next s l = some t) (hok : ok s l t) :
    Path M ok s [l] t := Path.cons h hok (Path.nil t)

theorem Path.mono (hm : ∀ s l t, ok s l t → ok' s l t) {s t : σ} {ls : List ι}
    (h : Path M ok s ls t) : Path M ok' s ls t := by
  induction h with
  | nil s => exact Path.nil s
  | cons hs hok _ ih => exact Path.cons hs (hm _ _ _ hok) ih

theorem Path.preserves {P : σ → Prop} {s t : σ} {ls : List ι} (h : Path M ok s ls t) (hs : P s)
    (hstep : ∀ a l b, l ∈ ls → M.next a l = some b → ok a l b → P a → P b) : P t := by
  induction h with
  | nil s => exact hs
  | cons hn hok _ ih =>
    apply ih (hstep _ _ _ (by simp) hn hok hs)
    intro a l b hl
    exact hstep a l b (by simp [hl])

theorem Path.invariant {P : σ → Prop} {s t : σ} {ls : List ι} (h : Path M ok s ls t) (hs : P s)
    (hstep : ∀ a l b, P a → M.next a l = some b → ok a l b → P b) : P t := by
  induction h with
  | nil s => exact hs
  | cons hn hok _ ih => exact ih (hstep _ _ _ hs hn hok)

theorem Reach.initial {s : σ} (h : M.init s) : Reach M ok s := ⟨s, [], h, Path.nil s⟩

theorem Reach.extend {s t : σ} {ls : List ι} (h : Reach M ok s) (g : Path M ok s ls t) :
    Reach M ok t := by
  obtain ⟨s₀, ms, hi, hp⟩ := h
  exact ⟨s₀, ms ++ ls, hi, hp.append g⟩

theorem Reach.snoc {s t : σ} {l : ι} (h : Reach M ok s) (hn : M.next s l = some t)
    (hok : ok s l t) : Reach M ok t := h.extend (Path.one hn hok)

theorem Reach.mono (hm : ∀ s l t, ok s l t → ok' s l t) {s : σ} (h : Reach M ok s) :
    Reach M ok' s := by
  obtain ⟨s₀, ls, hi, hp⟩ := h
  exact ⟨s₀, ls, hi, hp.mono hm⟩

theorem Reach.invariant {P : σ → Prop} (hinit : ∀ s, M.init s → P s)
    (hstep : ∀ a l b, P a → M.next a l = some b → ok a l b → P b) {s : σ} (h : Reach M ok s) :
    P s := by
  obtain ⟨s₀, ls, hi, hp⟩ := h
  exact hp.invariant (hinit s₀ hi) hstep

/-- Evaluation of a run, checking a decidable step assumption on the way. -/
def run (M : Machine σ ι) (ok : σ → ι → σ → Bool) : σ → List ι → Option σ
  | s, [] => some s
  | s, l :: ls => (M.next s l).bind fun t => if ok s l t then run M ok t ls else none

theorem path_of_run {check : σ → ι → σ → Bool} (hok : ∀ a l b, check a l b = true → ok a l b) :
    ∀ {s t : σ} {ls : List ι}, M.run check s ls = some t → Path M ok s ls t
  | s, t, [], h => by
    simp only [run, Option.some.injEq] at h
    exact h ▸ Path.nil s
  | s, t, l :: ls, h => by
    obtain ⟨u, hu, hrest⟩ := Option.bind_eq_some_iff.mp h
    by_cases hc : check s l u = true
    · rw [if_pos hc] at hrest
      exact Path.cons hu (hok _ _ _ hc) (path_of_run hok hrest)
    · simp [hc] at hrest

theorem run_of_path {s t : σ} {ls : List ι} (h : Path M ok s ls t) :
    M.run (fun _ _ _ => true) s ls = some t := by
  induction h with
  | nil s => rfl
  | cons hn _ _ ih => simp only [run, hn, Option.bind_some, if_true, ih]

/-- Erasure: when every step is taken along or leaves the related state as it is, the steps taken
along are a run from there. -/
theorem Path.erase {R : σ → σ → Prop} (kept : ι → Prop)
    (hstep : ∀ a b l a', R a b → M.next a l = some a' →
      (kept l ∧ ∃ b', M.next b l = some b' ∧ R a' b') ∨ R a' b) {s s' : σ} {ls : List ι} (h :
      Path M ok s ls s') {t : σ}
    (hR : R s t) :
    ∃ ls' t', ls'.Sublist ls ∧ (∀ l ∈ ls', kept l) ∧ Path M Any t ls' t' ∧ R s' t' := by
  induction h generalizing t with
  | nil s => exact ⟨[], t, List.Sublist.refl [], by simp, Path.nil t, hR⟩
  | @cons s u s' l ls hn _ _ ih =>
    rcases hstep s t l u hR hn with ⟨hl, t₁, ht₁, hR₁⟩ | hR₁
    · obtain ⟨ls', t', hsublist, hkept, hpath, hR'⟩ := ih hR₁
      exact ⟨l :: ls', t', hsublist.cons_cons l, List.forall_mem_cons.mpr ⟨hl, hkept⟩,
        Path.cons ht₁ trivial hpath, hR'⟩
    · obtain ⟨ls', t', hsublist, hkept, hpath, hR'⟩ := ih hR₁
      exact ⟨ls', t', hsublist.cons l, hkept, hpath, hR'⟩

/-- The states a run goes through, the first one included. -/
def visited (M : Machine σ ι) : σ → List ι → List σ
  | s, [] => [s]
  | s, l :: ls => s :: match M.next s l with
    | some t => visited M t ls
    | none => []

theorem Path.visited_invariant {P : List σ → σ → Prop}
    (hstep : ∀ vs a l b, P vs a → M.next a l = some b → ok a l b → P (vs ++ [b]) b) {s t : σ}
    {ls : List ι} (h : Path M ok s ls t) (hs : P [s] s) : P (M.visited s ls) t := by
  suffices hpre : ∀ pre, P (pre ++ [s]) s →
      P (pre ++ M.visited s ls) t by simpa using hpre [] (by simpa using hs)
  clear hs
  induction h with
  | nil s => exact fun pre hpre => hpre
  | @cons s u t l ls hn hok _ ih =>
    intro pre hpre
    have hu : P ((pre ++ [s]) ++ [u]) u := hstep _ s l u hpre hn hok
    have ht := ih (pre ++ [s]) hu
    simpa [visited, hn] using ht

/-- The last state of a run that goes through. -/
def final (M : Machine σ ι) (ok : σ → ι → σ → Bool) (s : σ) (ls : List ι) : σ :=
  (M.run ok s ls).getD s

theorem path_final {check : σ → ι → σ → Bool} (hok : ∀ a l b, check a l b = true → ok a l b)
    {s : σ} {ls : List ι} (h : (M.run check s ls).isSome = true) :
    Path M ok s ls (M.final check s ls) := by
  obtain ⟨t, ht⟩ := Option.isSome_iff_exists.mp h
  rw [final, ht]
  exact path_of_run hok ht

/-- Under `f` a step of `M` is a step of `N`, or changes nothing that `N` sees. -/
structure Refines {τ κ : Type*} (M : Machine σ ι) (N : Machine τ κ) (f : σ → τ) : Prop where
  init : ∀ s, M.init s → N.init (f s)
  step : ∀ s l t, M.next s l = some t → f t = f s ∨ ∃ k, N.next (f s) k = some (f t)

theorem Refines.reach {τ κ : Type*} {N : Machine τ κ} {f : σ → τ} (h : Refines M N f) {s : σ}
    (hs : Reach M ok s) : Reach N Any (f s) := by
  refine hs.invariant (P := fun s => Reach N Any (f s)) (fun s hi => Reach.initial (h.init s hi)) ?_
  intro a l b ha hn _
  rcases h.step a l b hn with hsame | ⟨k, hk⟩
  · rwa [hsame]
  · exact ha.snoc hk trivial

theorem Path.length_add_le {P : σ → Prop} (height : σ → ℕ)
    (hstep : ∀ a l b, P a → M.next a l = some b → ok a l b → P b ∧ height b < height a) {s t : σ}
    {ls : List ι} (h : Path M ok s ls t) (hs : P s) :
    height t + ls.length ≤ height s := by
  induction h with
  | nil s => simp
  | @cons s u t l ls hn hok _ ih =>
    obtain ⟨hu, hlt⟩ := hstep s l u hs hn hok
    have hrest := ih hu
    rw [List.length_cons]
    omega

theorem exists_path_to {P goal : σ → Prop} (height : σ → ℕ)
    (hprogress : ∀ a, P a → goal a ∨ ∃ l b, M.next a l = some b ∧ ok a l b ∧ P b ∧
      height b < height a) {s : σ}
    (hs : P s) : ∃ ls t, Path M ok s ls t ∧ goal t := by
  induction hn : height s using Nat.strong_induction_on generalizing s with
  | _ n ih =>
    rcases hprogress s hs with hgoal | ⟨l, t, hnext, hok, ht, hlt⟩
    · exact ⟨[], s, .nil s, hgoal⟩
    · obtain ⟨ls, u, hpath, hgoal⟩ := ih (height t) (hn ▸ hlt) ht rfl
      exact ⟨l :: ls, u, .cons hnext hok hpath, hgoal⟩

end Machine
end Facet
