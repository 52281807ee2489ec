import Mathlib

/-!
# Records read from named members

The members of an object are visited one after the other. One whose name belongs to a field is read
into the slot of that field, a second one for the same slot is an error, and a name of no field is
skipped. What the slots hold in the end does not depend on the order of the members.
-/
namespace Facet

/-- The fields of a record: which field a name belongs to, how its value is read, and what is said
of a second one. -/
structure Schema (ι V ε : Type) (T : ι → Type) where
  field : String → Option ι
  read : (i : ι) → V → Except ε (T i)
  duplicate : ι → ε

namespace Schema
variable {ι V ε : Type} {T : ι → Type}

/-- A field is absent, or is there once with a value that can be read. -/
inductive Fills {α : Type} (read : V → Except ε α) : List V → Option α → Prop
  | absent : Fills read [] none
  | once {v : V} {x : α} (h : read v = .ok x) : Fills read [v] (some x)

section Fills
variable {α : Type} {read : V → Except ε α} {slot : Option α}

theorem fills_nil : Fills read [] slot ↔ slot = none := by
  constructor
  · intro h
    cases h
    rfl
  · rintro rfl
    exact .absent

theorem fills_cons {v : V} {vs : List V} :
    Fills read (v :: vs) slot ↔ ∃ x, read v = .ok x ∧ vs = [] ∧ slot = some x := by
  constructor
  · intro h
    cases h with
    | once h => exact ⟨_, h, rfl, rfl⟩
  · rintro ⟨x, h, rfl, rfl⟩
    exact .once h

theorem Fills.perm {vs vs' : List V} (h : Fills read vs slot) (hperm : vs.Perm vs') :
    Fills read vs' slot := by
  cases h with
  | absent =>
    obtain rfl := hperm.nil_eq
    exact .absent
  | once hread =>
    obtain rfl := List.singleton_perm.mp hperm
    exact .once hread

end Fills

variable [DecidableEq ι] (s : Schema ι V ε T)

/-- The values of the members that name the field. -/
def given (members : List (String × V)) (i : ι) : List V :=
  (members.filter fun member => decide (s.field member.1 = some i)).map Prod.snd

def visit (slots : (i : ι) → Option (T i)) (member : String × V) :
    Except ε ((i : ι) → Option (T i)) :=
  match s.field member.1 with
  | none => .ok slots
  | some i =>
    if (slots i).isSome then .error (s.duplicate i)
    else (s.read i member.2).map fun x => Function.update slots i (some x)

def collect (members : List (String × V)) : Except ε ((i : ι) → Option (T i)) :=
  members.foldlM s.visit fun _ => none

/-- The array form: the values of the first fields, in the order of the record. -/
def collectSeq (fields : List ι) (items : List V) : Except ε ((i : ι) → Option (T i)) :=
  (fields.zip items).foldlM
    (fun slots entry => (s.read entry.1 entry.2).map fun x =>
      Function.update slots entry.1 (some x)) fun _ => none

theorem given_cons_none {member : String × V} (h : s.field member.1 = none)
    (members : List (String × V)) (i : ι) : s.given (member :: members) i = s.given members i := by
  simp [given, h]

theorem given_cons_self {member : String × V} {i : ι} (h : s.field member.1 = some i)
    (members : List (String × V)) :
    s.given (member :: members) i = member.2 :: s.given members i := by
  simp [given, h]

theorem given_cons_ne {member : String × V} {i j : ι} (h : s.field member.1 = some i) (hj : j ≠ i)
    (members : List (String × V)) : s.given (member :: members) j = s.given members j := by
  simp [given, h, hj.symm]

theorem given_perm {members members' : List (String × V)} (h : members.Perm members') (i : ι) :
    (s.given members i).Perm (s.given members' i) := (h.filter _).map _

theorem foldlM_visit_eq_ok (members : List (String × V)) (slots slots' : (i : ι) → Option (T i)) :
    members.foldlM s.visit slots = .ok slots' ↔
      ∀ i, ((slots i).isSome → s.given members i = [] ∧ slots' i = slots i) ∧
      (slots i = none → Fills (s.read i) (s.given members i) (slots' i)) := by
  induction members generalizing slots with
  | nil =>
    rw [List.foldlM_nil, show (pure slots : Except ε _) = .ok slots from rfl,
      Except.ok.injEq, funext_iff]
    refine forall_congr' fun i => ?_
    simp only [given, List.filter_nil, List.map_nil, fills_nil, true_and]
    cases slots i with
    | none => simp [eq_comm]
    | some x => simp [eq_comm]
  | cons member members ih =>
    rw [List.foldlM_cons]
    cases hfield : s.field member.1 with
    | none =>
      simp only [visit, hfield, s.given_cons_none hfield]
      exact ih slots
    | some i =>
      simp only [visit, hfield]
      cases hslot : slots i with
      | some x =>
        refine iff_of_false (by simp [bind, Except.bind]) fun hall => ?_
        have hnil := ((hall i).1 (by simp [hslot])).1
        rw [s.given_cons_self hfield] at hnil
        exact List.cons_ne_nil _ _ hnil
      | none =>
        cases hread : s.read i member.2 with
        | error e =>
          refine iff_of_false (by simp [bind, Except.bind, Except.map]) fun hall => ?_
          have hfills := (hall i).2 hslot
          rw [s.given_cons_self hfield, fills_cons, hread] at hfills
          obtain ⟨x, hx, -⟩ := hfills
          exact absurd hx (by simp)
        | ok x =>
          simp only [Option.isSome_none, Bool.false_eq_true, if_false,
            Except.map, bind, Except.bind]
          rw [ih]
          refine forall_congr' fun j => ?_
          by_cases hj : j = i
          · subst hj
            simp [s.given_cons_self hfield, fills_cons, hslot, hread]
          · simp [s.given_cons_ne hfield hj, Function.update_of_ne hj]

/-- The members are accepted when each field is named at most once and its value can be read. -/
theorem collect_eq_ok {members : List (String × V)} {slots : (i : ι) → Option (T i)} :
    s.collect members = .ok slots ↔ ∀ i, Fills (s.read i) (s.given members i) (slots i) := by
  rw [collect, foldlM_visit_eq_ok]
  simp

theorem collect_perm {members members' : List (String × V)} (h : members.Perm members')
    {slots : (i : ι) → Option (T i)} :
    s.collect members = .ok slots ↔ s.collect members' = .ok slots := by
  rw [collect_eq_ok, collect_eq_ok]
  refine forall_congr' fun i => ?_
  have hperm := s.given_perm h i
  exact ⟨fun hfills => hfills.perm hperm, fun hfills => hfills.perm hperm.symm⟩

theorem given_related {R : V → V → Prop} {members members' : List (String × V)}
    (hnames : members.map Prod.fst = members'.map Prod.fst)
    (hvalues : List.Forall₂ R (members.map Prod.snd) (members'.map Prod.snd)) (i : ι) :
    List.Forall₂ R (s.given members i) (s.given members' i) := by
  induction members generalizing members' with
  | nil =>
    obtain rfl := List.map_eq_nil_iff.mp hnames.symm
    exact .nil
  | cons member members ih =>
    cases members' with
    | nil => exact absurd hnames (by simp)
    | cons member' members' =>
      simp only [List.map_cons, List.cons.injEq, List.forall₂_cons] at hnames hvalues
      have hrest := ih hnames.2 hvalues.2
      by_cases hfield : s.field member.1 = some i
      · rw [s.given_cons_self hfield, s.given_cons_self (hnames.1 ▸ hfield)]
        exact .cons hvalues.1 hrest
      · have hskip : ∀ (other : String × V) (rest : List (String × V)), s.field other.1 ≠ some i →
            s.given (other :: rest) i = s.given rest i := by
          intro other rest hother
          simp [given, hother]
        rw [hskip member members hfield, hskip member' members' (hnames.1 ▸ hfield)]
        exact hrest

/-- The members of a record that was written, in another order and with values that read like the
written ones. -/
theorem collect_related {R : V → V → Prop} {members mid members' : List (String × V)}
    {slots : (i : ι) → Option (T i)} (hnames : members.map Prod.fst = mid.map Prod.fst)
    (hvalues : List.Forall₂ R (members.map Prod.snd) (mid.map Prod.snd)) (hperm : mid.Perm members')
    (hread : ∀ i values, List.Forall₂ R (s.given members i) values →
      Fills (s.read i) values (slots i)) :
    s.collect members' = .ok slots := by
  rw [← s.collect_perm hperm, collect_eq_ok]
  exact fun i => hread i _ (s.given_related hnames hvalues i)

end Schema
end Facet
