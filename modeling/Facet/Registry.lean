import Mathlib

/-!
# Registries of items that are replaced one by one

Items come in, are replaced, and are dropped by a condition. What comes in has never been there, so
an item that was replaced stays away, and items that a condition dropped stay away as long as
nothing brings their like in again.
-/
namespace Facet.Registry

inductive Event (α : Type*)
  | added (item : α)
  | replaced (old new : α)
  | dropped (gone : α → Prop)

variable {α : Type*}

namespace Event

def incoming : Event α → Option α
  | .added item | .replaced _ item => some item
  | .dropped _ => none

def replacedItem : Event α → Option α
  | .replaced old _ => some old
  | _ => none

def Retires (x : α) : Event α → Prop
  | .added _ => False
  | .replaced old _ => old = x
  | .dropped gone => gone x

end Event

/-- No event brought the item in. -/
def New (history : List (Event α)) (item : α) : Prop := ∀ ev ∈ history, ev.incoming ≠ some item

/-- The items that are there after the events, of which the newest is the first. -/
inductive Run : Set α → List (Event α) → Prop
  | start : Run ∅ []
  | add {live : Set α} {history : List (Event α)} {item : α} (before : Run live history)
      (new : New history item) :
    Run (insert item live) (.added item :: history)
  | replace {live : Set α} {history : List (Event α)} {old item : α} (before : Run live history)
      (present : old ∈ live) (new : New history item) :
      Run (insert item (live \ {old})) (.replaced old item :: history)
  | drop {live : Set α} {history : List (Event α)} (before : Run live history) (gone : α → Prop) :
    Run {x | x ∈ live ∧ ¬ gone x} (.dropped gone :: history)

theorem not_new_iff {history : List (Event α)} {item : α} :
    ¬ New history item ↔ ∃ ev ∈ history, ev.incoming = some item := by
  simp [New]

namespace Run
variable {live : Set α} {history : List (Event α)}

theorem not_new (h : Run live history) {x : α} (hx : x ∈ live) : ¬ New history x := by
  rw [not_new_iff]
  induction h with
  | start => exact absurd hx (Set.notMem_empty x)
  | add _ _ ih =>
    rcases Set.mem_insert_iff.mp hx with rfl | hx
    · exact ⟨_, List.mem_cons_self, rfl⟩
    · obtain ⟨ev, hev, hin⟩ := ih hx
      exact ⟨ev, List.mem_cons_of_mem _ hev, hin⟩
  | replace _ _ _ ih =>
    rcases Set.mem_insert_iff.mp hx with rfl | hx
    · exact ⟨_, List.mem_cons_self, rfl⟩
    · obtain ⟨ev, hev, hin⟩ := ih hx.1
      exact ⟨ev, List.mem_cons_of_mem _ hev, hin⟩
  | drop _ gone ih =>
    obtain ⟨ev, hev, hin⟩ := ih hx.1
    exact ⟨ev, List.mem_cons_of_mem _ hev, hin⟩

/-- Items that a condition dropped stay away as long as none that meets it is added anew, or
replaces one that does not meet it. -/
theorem dropped_gone (h : Run live history) {later earlier : List (Event α)} {gone : α → Prop}
    (hsplit : history = later ++ .dropped gone :: earlier)
    (hadded : ∀ x, .added x ∈ later → ¬ gone x)
    (hreplaced : ∀ old new, .replaced old new ∈ later → gone new → gone old) :
    ∀ x ∈ live, ¬ gone x := by
  induction h generalizing later with
  | start => exact absurd hsplit (by simp)
  | add _ _ ih =>
    cases later with
    | nil => exact absurd hsplit (by simp)
    | cons ev later =>
      obtain ⟨rfl, hrest⟩ := List.cons.inj hsplit
      intro x hx
      rcases Set.mem_insert_iff.mp hx with rfl | hx
      · exact hadded x List.mem_cons_self
      · exact ih hrest (fun y hy => hadded y (List.mem_cons_of_mem _ hy))
          (fun y z hy => hreplaced y z (List.mem_cons_of_mem _ hy)) x hx
  | @replace live history old item before hpresent hnew ih =>
    cases later with
    | nil => exact absurd hsplit (by simp)
    | cons ev later =>
      obtain ⟨rfl, hrest⟩ := List.cons.inj hsplit
      have hearlier := ih hrest (fun y hy => hadded y (List.mem_cons_of_mem _ hy))
        (fun y z hy => hreplaced y z (List.mem_cons_of_mem _ hy))
      intro x hx
      rcases Set.mem_insert_iff.mp hx with rfl | hx
      · exact fun hgone => hearlier old hpresent (hreplaced old x List.mem_cons_self hgone)
      · exact hearlier x hx.1
  | drop _ gone' ih =>
    cases later with
    | nil =>
      obtain ⟨hsame, rfl⟩ := List.cons.inj hsplit
      obtain rfl := Event.dropped.inj hsame
      exact fun x hx => hx.2
    | cons ev later =>
      obtain ⟨rfl, hrest⟩ := List.cons.inj hsplit
      intro x hx
      exact ih hrest (fun y hy => hadded y (List.mem_cons_of_mem _ hy))
        (fun y z hy => hreplaced y z (List.mem_cons_of_mem _ hy)) x hx.1

theorem replaced_gone (h : Run live history) {old : α}
    (hold : old ∈ history.filterMap Event.replacedItem) : old ∉ live ∧ ¬ New history old := by
  induction h with
  | start => exact absurd hold (List.not_mem_nil)
  | @add live history item before hnew ih =>
    obtain ⟨hgone, hin⟩ := ih hold
    refine ⟨?_, fun hnew' => hin fun ev hev => hnew' ev (List.mem_cons_of_mem _ hev)⟩
    intro hx
    rcases Set.mem_insert_iff.mp hx with rfl | hx
    · exact hin hnew
    · exact hgone hx
  | @replace live history gone item before hpresent hnew ih =>
    have hin : ¬ New history old ∧ (old = gone ∨ old ∉ live) := by
      rcases List.mem_cons.mp hold with rfl | hearlier
      · exact ⟨before.not_new hpresent, Or.inl rfl⟩
      · exact ⟨(ih hearlier).2, Or.inr (ih hearlier).1⟩
    refine ⟨?_, fun hnew' => hin.1 fun ev hev => hnew' ev (List.mem_cons_of_mem _ hev)⟩
    intro hx
    rcases Set.mem_insert_iff.mp hx with rfl | hx
    · exact hin.1 hnew
    · rcases hin.2 with rfl | hgone
      · exact hx.2 rfl
      · exact hgone hx.1
  | drop before gone ih =>
    obtain ⟨hgone, hin⟩ := ih hold
    exact ⟨fun hx => hgone hx.1, fun hnew' => hin fun ev hev =>
      hnew' ev (List.mem_cons_of_mem _ hev)⟩

theorem replaced_once (h : Run live history) : (history.filterMap Event.replacedItem).Nodup := by
  induction h with
  | start => exact List.nodup_nil
  | add _ _ ih => exact ih
  | replace before hpresent hnew ih =>
    exact List.nodup_cons.mpr ⟨fun hold => (before.replaced_gone hold).1 hpresent, ih⟩
  | drop _ gone ih => exact ih

/-- An item stays until an event retires it. -/
theorem kept (h : Run live history) {later earlier : List (Event α)} {ev : Event α} {x : α}
    (hsplit : history = later ++ ev :: earlier) (hin : ev.incoming = some x)
    (hnone : ∀ ev' ∈ later, ¬ ev'.Retires x) : x ∈ live := by
  induction h generalizing later with
  | start => exact absurd hsplit (by simp)
  | add _ _ ih =>
    cases later with
    | nil =>
      obtain ⟨rfl, rfl⟩ := List.cons.inj hsplit
      exact Set.mem_insert_iff.mpr (Or.inl (Option.some.inj hin).symm)
    | cons ev' later =>
      obtain ⟨rfl, hrest⟩ := List.cons.inj hsplit
      exact Set.mem_insert_of_mem _ (ih hrest fun ev' hev => hnone ev' (List.mem_cons_of_mem _ hev))
  | replace _ _ _ ih =>
    cases later with
    | nil =>
      obtain ⟨rfl, rfl⟩ := List.cons.inj hsplit
      exact Set.mem_insert_iff.mpr (Or.inl (Option.some.inj hin).symm)
    | cons ev' later =>
      obtain ⟨rfl, hrest⟩ := List.cons.inj hsplit
      have hx := ih hrest fun ev' hev => hnone ev' (List.mem_cons_of_mem _ hev)
      exact Set.mem_insert_of_mem _ ⟨hx, fun hsame => hnone _ List.mem_cons_self hsame.symm⟩
  | drop _ gone ih =>
    cases later with
    | nil =>
      obtain ⟨rfl, rfl⟩ := List.cons.inj hsplit
      exact absurd hin (by simp [Event.incoming])
    | cons ev' later =>
      obtain ⟨rfl, hrest⟩ := List.cons.inj hsplit
      have hx := ih hrest fun ev' hev => hnone ev' (List.mem_cons_of_mem _ hev)
      exact ⟨hx, fun hgone => hnone _ List.mem_cons_self hgone⟩

end Run
end Facet.Registry
