import Mathlib

/-!
# Sequential services

A service answers a call from its state and moves to the next one. Two services agree on
a list of calls when they give the same replies; the rules below prove it from a relation
between their states, and say on which lists they agree when some calls tell them apart.
-/
namespace Facet

structure Service (σ ι ω : Type*) where
  init : σ
  step : σ → ι → ω × σ

namespace Service
variable {σ τ ι ω : Type*} (S : Service σ ι ω) {T : Service τ ι ω}

def replies : σ → List ι → List ω
  | _, [] => []
  | s, i :: is => (S.step s i).1 :: replies (S.step s i).2 is

def after : σ → List ι → σ
  | s, [] => s
  | s, i :: is => after (S.step s i).2 is

def observed {ω' : Type*} (f : ω → ω') : Service σ ι ω' where
  init := S.init
  step s i := (f (S.step s i).1, (S.step s i).2)

/-- Every call is made in a state that admits it. -/
def Along (ok : σ → ι → Prop) : σ → List ι → Prop
  | _, [] => True
  | s, i :: is => ok s i ∧ Along ok (S.step s i).2 is

def alongCheck (check : σ → ι → Bool) : σ → List ι → Bool
  | _, [] => true
  | s, i :: is => check s i && alongCheck check (S.step s i).2 is

variable {S} {ok : σ → ι → Prop}

theorem along_of_check {check : σ → ι → Bool} (hok : ∀ s i, check s i = true → ok s i) {s : σ}
    {is : List ι} (h : S.alongCheck check s is = true) : S.Along ok s is := by
  induction is generalizing s with
  | nil => trivial
  | cons i is ih =>
    rw [alongCheck, Bool.and_eq_true] at h
    exact ⟨hok s i h.1, ih h.2⟩

theorem along_and {dom : ι → Prop} {s : σ} {is : List ι} (h : S.Along ok s is)
    (hdom : ∀ i ∈ is, dom i) : S.Along (fun s i => ok s i ∧ dom i) s is := by
  induction is generalizing s with
  | nil => trivial
  | cons i is ih =>
    exact ⟨⟨h.1, hdom i List.mem_cons_self⟩, ih h.2 fun j hj => hdom j (List.mem_cons_of_mem i hj)⟩

theorem after_append (s : σ) (is js : List ι) :
    S.after s (is ++ js) = S.after (S.after s is) js := by
  induction is generalizing s with
  | nil => rfl
  | cons i is ih => exact ih (S.step s i).2

theorem replies_observed {ω' : Type*} (f : ω → ω') (s : σ) (is : List ι) :
    (S.observed f).replies s is = (S.replies s is).map f := by
  induction is generalizing s with
  | nil => rfl
  | cons i is ih =>
    rw [replies, replies, List.map_cons, ← ih]
    rfl

theorem along_observed {ω' : Type*} (f : ω → ω') {s : σ} {is : List ι} (h : S.Along ok s is) :
    (S.observed f).Along ok s is := by
  induction is generalizing s with
  | nil => trivial
  | cons i is ih => exact ⟨h.1, ih h.2⟩

theorem after_related {R : σ → τ → Prop} {dom : ι → Prop}
    (hstep : ∀ s t i, R s t → dom i → R (S.step s i).2 (T.step t i).2) {is : List ι}
    (hdom : ∀ i ∈ is, dom i) {s : σ} {t : τ} (h : R s t) : R (S.after s is) (T.after t is) := by
  induction is generalizing s t with
  | nil => exact h
  | cons i is ih =>
    exact ih (fun j hj => hdom j (List.mem_cons_of_mem i hj))
      (hstep s t i h (hdom i List.mem_cons_self))

theorem after_invariant {P : σ → Prop} (hstep : ∀ s i, P s → P (S.step s i).2) {s : σ} (h : P s)
    (is : List ι) : P (S.after s is) := by
  induction is generalizing s with
  | nil => exact h
  | cons i is ih => exact ih (hstep s i h)

theorem replies_eq {R : σ → τ → Prop}
    (hstep : ∀ s t i, R s t → ok s i → (S.step s i).1 = (T.step t i).1 ∧
      R (S.step s i).2 (T.step t i).2)
    {is : List ι} {s : σ} {t : τ} (h : R s t) (halong : S.Along ok s is) :
    S.replies s is = T.replies t is := by
  induction is generalizing s t with
  | nil => rfl
  | cons i is ih =>
    obtain ⟨hok, hrest⟩ := halong
    obtain ⟨hreply, hnext⟩ := hstep s t i h hok
    rw [replies, replies, hreply, ih hnext hrest]

/-- When a call gets the same reply exactly in the states that admit it, and related states stay
related by such calls, the replies agree on the lists of admitted calls. -/
theorem replies_eq_iff {R : σ → τ → Prop} {dom : ι → Prop}
    (hreply : ∀ s t i, R s t → dom i → ((S.step s i).1 = (T.step t i).1 ↔ ok s i))
    (hstep : ∀ s t i, R s t → dom i → ok s i → R (S.step s i).2 (T.step t i).2)
    {is : List ι} (hdom : ∀ i ∈ is, dom i) {s : σ} {t : τ} (h : R s t) :
    S.replies s is = T.replies t is ↔ S.Along ok s is := by
  induction is generalizing s t with
  | nil => exact iff_of_true rfl trivial
  | cons i is ih =>
    have hi := hdom i List.mem_cons_self
    have hrest : ∀ j ∈ is, dom j := fun j hj => hdom j (List.mem_cons_of_mem i hj)
    simp only [replies, Along, List.cons.injEq, hreply s t i h hi]
    refine and_congr_right fun hok => ih hrest (hstep s t i h hi hok)

/-- A property that a call keeps exactly in the states that admit it holds throughout the lists of
admitted calls, and only there. -/
theorem always_iff_along {P : σ → Prop} (hstep : ∀ s i, P s → (P (S.step s i).2 ↔ ok s i)) {s : σ}
    (h : P s) (is : List ι) : (∀ js, js <+: is → P (S.after s js)) ↔ S.Along ok s is := by
  induction is generalizing s with
  | nil =>
    refine iff_of_true ?_ trivial
    intro js hjs
    rw [List.prefix_nil.mp hjs]
    exact h
  | cons i is ih =>
    rw [Along, ← hstep s i h]
    constructor
    · intro hall
      have hi : P (S.step s i).2 := hall [i] (by simp)
      refine ⟨hi, (ih hi).mp ?_⟩
      intro js hjs
      exact hall (i :: js) (List.cons_prefix_cons.mpr ⟨rfl, hjs⟩)
    · intro hrest js hjs
      obtain ⟨hi, hrest⟩ := hrest
      cases js with
      | nil => exact h
      | cons j js =>
        obtain ⟨rfl, hrest'⟩ := List.cons_prefix_cons.mp hjs
        exact (ih hi).mpr hrest js hrest'

/-! ## Logs -/

/-- The calls with their replies, the newest first, and the state that they lead to. -/
inductive Log (S : Service σ ι ω) : List (ι × ω) → σ → Prop
  | start : Log S [] S.init
  | call {log : List (ι × ω)} {s : σ} (before : Log S log s) (i : ι) :
    Log S ((i, (S.step s i).1) :: log) (S.step s i).2

/-- The replies are those of the other log, but for failures: a call that failed had no part in the
other run, or had another reply there. -/
inductive ExplainedBy {ω' : Type*} (Same : ω → ω' → Prop) (Failed : ω → Prop) :
    List (ι × ω) → List (ι × ω') → Prop
  | nil : ExplainedBy Same Failed [] []
  | agreed {log : List (ι × ω)} {log' : List (ι × ω')} (i : ι) {reply : ω} {reply' : ω'}
      (same : Same reply reply')
    (rest : ExplainedBy Same Failed log log') :
    ExplainedBy Same Failed ((i, reply) :: log) ((i, reply') :: log')
  | failed {log : List (ι × ω)} {log' : List (ι × ω')} (i : ι) {reply : ω} (failed : Failed reply)
    (rest : ExplainedBy Same Failed log log') : ExplainedBy Same Failed ((i, reply) :: log) log'
  | unanswered {log : List (ι × ω)} {log' : List (ι × ω')} (i : ι) {reply : ω} {reply' : ω'}
      (failed : Failed reply)
    (rest : ExplainedBy Same Failed log log') :
    ExplainedBy Same Failed ((i, reply) :: log) ((i, reply') :: log')

/-- A call gets the reply of the other one, and so do the states; or it failed, with the effect of
the other one or with none. -/
def Explained {ω' : Type*} (R : σ → τ → Prop) (Same : ω → ω' → Prop) (Failed : ω → Prop) (t : τ)
    (result : ω × σ) (result' : ω' × τ) : Prop :=
  Same result.1 result'.1 ∧ R result.2 result'.2 ∨ Failed result.1 ∧
    (R result.2 t ∨ R result.2 result'.2)

section Explanations
variable {ω' α : Type*} {T : Service τ ι ω'} {R : σ → τ → Prop} {Same : ω → ω' → Prop}
  {Failed : ω → Prop} {t : τ}

theorem Explained.related {result : ω × σ} {result' : ω' × τ}
    (h : Explained R Same Failed t result result') (hkept : result'.2 = t) : R result.2 t := by
  rcases h with ⟨-, hrel⟩ | ⟨-, hrel | hrel⟩
  · exact hkept ▸ hrel
  · exact hrel
  · exact hkept ▸ hrel

end Explanations

end Service
end Facet
