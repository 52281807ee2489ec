import Facet.HashMap
import Facet.Jwt
import Facet.Service

/-!
# Authorization rules

Rules with a pattern for the resource, and the evaluator that keeps them in memory under
participant and scope. What the nested maps stand for is, for each participant, the
multiset of the rules saved and not since removed.
-/
namespace Facet.Auth

/-- The `regex` crate: `Regex::new` and `is_match`. -/
structure RegexEngine where
  Regex : Type
  new : String → Except String Regex
  isMatch : Regex → String → Bool

structure Operation where
  scope : String
  action : String
  resource : String
  deriving DecidableEq, Repr

inductive AuthorizationError
  | internalError (msg : String)
  | storeError (msg : String)
  | invalidRegex (msg : String)
  deriving DecidableEq, Repr

def AuthorizationError.toString : AuthorizationError → String
  | .internalError msg => "Internal error: " ++ msg
  | .storeError msg => "Store error: " ++ msg
  | .invalidRegex msg => "Invalid regex pattern: " ++ msg

/-- The fields are public, so a rule need not come from `Rule.new`. -/
structure Rule (E : RegexEngine) where
  scope : String
  actions : List String
  resource : String
  compiledRegex : Option E.Regex

variable {E : RegexEngine}

namespace Rule

def new (scope : String) (actions : List String) (resource : String) :
    Except AuthorizationError (Rule E) :=
  match E.new resource with
  | .error e => .error (.invalidRegex ("Failed to compile regex '" ++ resource ++ "': " ++ e))
  | .ok regex => .ok ⟨scope, actions, resource, some regex⟩

def matchesResource (rule : Rule E) (resource : String) : Bool :=
  match rule.compiledRegex with
  | some regex => E.isMatch regex resource
  | none => resource == rule.resource

/-- The test in the loop of both evaluators. -/
def grants (rule : Rule E) (operation : Operation) : Bool :=
  rule.actions.contains operation.action && rule.matchesResource operation.resource

/-- Equal in scope, actions and resource. -/
def same (r rule : Rule E) : Bool :=
  r.scope == rule.scope && r.actions == rule.actions && r.resource == rule.resource

theorem same_iff {r rule : Rule E} :
    r.same rule = true ↔ r.scope = rule.scope ∧ r.actions = rule.actions ∧
      r.resource = rule.resource := by
  simp [same, and_assoc]

theorem grants_iff {rule : Rule E} {operation : Operation} : rule.grants operation = true ↔
    operation.action ∈ rule.actions ∧ rule.matchesResource operation.resource = true := by
  simp [grants]

end Rule

/-! ## The evaluator in memory -/

/-- The rules of a participant id and a scope. -/
abbrev RuleMap (E : RegexEngine) := HashMap String (HashMap String (List (Rule E)))

namespace Memory

def evaluate (rules : RuleMap E) (pc : ParticipantContext) (operation : Operation) : Bool :=
  match rules.get pc.id with
  | none => false
  | some participantRules =>
    match participantRules.get operation.scope with
    | none => false
    | some scopeRules => scopeRules.any fun rule => rule.grants operation

def getRules (rules : RuleMap E) (pc : ParticipantContext) : List (Rule E) :=
  match rules.get pc.id with
  | none => []
  | some participantRules => participantRules.values.flatten

def saveRule (rules : RuleMap E) (pc : ParticipantContext) (rule : Rule E) : RuleMap E :=
  let participantRules := (rules.get pc.id).getD HashMap.empty
  let scopeRules := (participantRules.get rule.scope).getD []
  rules.insert pc.id (participantRules.insert rule.scope (scopeRules ++ [rule]))

/-- The value is written back, or its key removed when nothing is left under it. -/
def writeBack {α : Type} (m : HashMap String α) (k : String) (v : α) (isEmpty : Bool) :
    HashMap String α :=
  if isEmpty then m.remove k else m.insert k v

def removeRule (rules : RuleMap E) (pc : ParticipantContext) (rule : Rule E) : RuleMap E :=
  match rules.get pc.id with
  | none => rules
  | some participantRules =>
    match participantRules.get rule.scope with
    | none => rules
    | some scopeRules =>
      let scopeRules := scopeRules.filter fun r => !r.same rule
      let participantRules := writeBack participantRules rule.scope scopeRules scopeRules.isEmpty
      writeBack rules pc.id participantRules participantRules.isEmpty

def removeRules (rules : RuleMap E) (pc : ParticipantContext) : RuleMap E := rules.remove pc.id

end Memory

inductive RuleCall (E : RegexEngine)
  | evaluate (pc : ParticipantContext) (operation : Operation)
  | getRules (pc : ParticipantContext)
  | saveRule (pc : ParticipantContext) (rule : Rule E)
  | removeRule (pc : ParticipantContext) (rule : Rule E)
  | removeRules (pc : ParticipantContext)

def RuleCall.participant : RuleCall E → ParticipantContext
  | .evaluate pc _ | .getRules pc | .saveRule pc _ | .removeRule pc _ | .removeRules pc => pc

inductive RuleReply (E : RegexEngine)
  | evaluated (result : Except AuthorizationError Bool)
  | rules (result : Except AuthorizationError (List (Rule E)))
  | done

open Memory in
/-- No call panics while it has the lock, so the lock is never poisoned. -/
def MemoryAuthorizationEvaluator (E : RegexEngine) :
    Service (RuleMap E) (RuleCall E) (RuleReply E) where
  init := HashMap.empty
  step rules
    | .evaluate pc operation => (.evaluated (.ok (evaluate rules pc operation)), rules)
    | .getRules pc => (.rules (.ok (getRules rules pc)), rules)
    | .saveRule pc rule => (.done, saveRule rules pc rule)
    | .removeRule pc rule => (.done, removeRule rules pc rule)
    | .removeRules pc => (.done, removeRules rules pc)

/-! ## What the rules stand for -/

/-- The rules that the calls save for a participant id, those left out that a later call drops. -/
def kept (drops : RuleCall E → String → Rule E → Bool) (p : String) :
    List (RuleCall E) → Multiset (Rule E)
  | [] => 0
  | .saveRule pc rule :: calls =>
    if pc.id = p ∧ ∀ call ∈ calls, drops call p rule = false then rule ::ₘ kept drops p calls
    else kept drops p calls
  | _ :: calls => kept drops p calls

/-- The rule that a call saves for a participant id. -/
def RuleCall.saved (p : String) : RuleCall E → Multiset (Rule E)
  | .saveRule pc rule => if pc.id = p then {rule} else 0
  | _ => 0

theorem kept_cons (drops : RuleCall E → String → Rule E → Bool) (p : String) (call : RuleCall E)
    (calls : List (RuleCall E)) : kept drops p (call :: calls) =
      (call.saved p).filter (fun r => ∀ c ∈ calls, drops c p r = false) + kept drops p calls := by
  cases call with
  | saveRule pc rule =>
    by_cases hp : pc.id = p
    · by_cases hd : ∀ c ∈ calls, drops c p rule = false
      · rw [kept, if_pos ⟨hp, hd⟩, RuleCall.saved, if_pos hp, Multiset.filter_singleton, if_pos hd,
          Multiset.singleton_add]
      · rw [kept, if_neg (fun h => hd h.2), RuleCall.saved, if_pos hp,
          Multiset.filter_singleton, if_neg hd]
        exact (zero_add _).symm
    · rw [kept, if_neg (fun h => hp h.1), RuleCall.saved, if_neg hp]
      exact (zero_add _).symm
  | evaluate pc operation => exact (zero_add _).symm
  | getRules pc => exact (zero_add _).symm
  | removeRule pc rule => exact (zero_add _).symm
  | removeRules pc => exact (zero_add _).symm

/-- A store whose calls drop some rules and add the saved one has the rules kept by the calls. -/
theorem rules_after {σ ω : Type*} {S : Service σ (RuleCall E) ω} {P : σ → Prop}
    (rules : σ → Multiset (Rule E)) {drops : RuleCall E → String → Rule E → Bool} {p : String}
    {calls : List (RuleCall E)} (hkeep : ∀ s, ∀ call ∈ calls, P s → P (S.step s call).2)
    (hstep : ∀ s, ∀ call ∈ calls, P s →
      rules (S.step s call).2 = (rules s).filter (fun r => drops call p r = false) + call.saved p)
    {s : σ} (h : P s) : P (S.after s calls) ∧ rules (S.after s calls) =
      (rules s).filter (fun r => ∀ c ∈ calls, drops c p r = false) + kept drops p calls := by
  induction calls generalizing s with
  | nil => exact ⟨h, by simp [Service.after, kept]⟩
  | cons call calls ih =>
    obtain ⟨hP, hrest⟩ := ih (fun s c hc => hkeep s c (List.mem_cons_of_mem call hc))
      (fun s c hc => hstep s c (List.mem_cons_of_mem call hc)) (hkeep s call List.mem_cons_self h)
    refine ⟨hP, ?_⟩
    rw [Service.after, hrest, hstep s call List.mem_cons_self h, Multiset.filter_add,
      Multiset.filter_filter, kept_cons, add_assoc]
    congr 1
    refine Multiset.filter_congr ?_
    intro r _
    rw [List.forall_mem_cons, and_comm]

/-- `remove_rule` drops every equal copy, `remove_rules` everything of the participant. -/
def RuleCall.removes : RuleCall E → String → Rule E → Bool
  | .removeRule pc rule, p, r => pc.id == p && r.same rule
  | .removeRules pc, p, _ => pc.id == p
  | _, _, _ => false

/-- Every list is under the scope of its rules and not empty. -/
structure Scoped (participantRules : HashMap String (List (Rule E))) : Prop where
  nonempty : ∀ scope scopeRules, participantRules.get scope = some scopeRules → scopeRules ≠ []
  own : ∀ scope scopeRules, participantRules.get scope = some scopeRules →
    ∀ r ∈ scopeRules, r.scope = scope

/-- No participant has an empty map. -/
def WellFormed (rules : RuleMap E) : Prop :=
  ∀ p participantRules, rules.get p = some participantRules → participantRules.isEmpty = false ∧
    Scoped participantRules

section Levels
variable {α : Type} {m : HashMap String α} {k j : String} {v : α} {gone : Bool}

theorem Memory.get_writeBack : (writeBack m k v gone).get j =
    if j = k then (if gone then none else some v) else m.get j := by
  cases gone with
  | false => simp [writeBack]
  | true => simp [writeBack]

end Levels

section Flat
variable {m : HashMap String (List (Rule E))} {scope : String} {l : List (Rule E)}

variable (m scope) in
/-- The rules under one scope, then the rest. -/
theorem flatten_perm :
    m.values.flatten.Perm ((m.get scope).getD [] ++ (m.remove scope).values.flatten) := by
  cases hg : m.get scope with
  | none => rw [HashMap.remove_of_get_none hg, Option.getD_none, List.nil_append]
  | some l => exact ((HashMap.entries_perm_of_get hg).map Prod.snd).flatten

theorem flatten_insert :
    (m.insert scope l).values.flatten = l ++ (m.remove scope).values.flatten := rfl

theorem Memory.flatten_writeBack :
    (writeBack m scope l l.isEmpty).values.flatten = l ++ (m.remove scope).values.flatten := by
  cases l with
  | nil => rfl
  | cons r l => rfl

theorem mem_flatten {r : Rule E} :
    r ∈ m.values.flatten ↔ ∃ scope l, m.get scope = some l ∧ r ∈ l := by
  simp only [HashMap.values, List.mem_flatten, List.mem_map, HashMap.get_eq_some_iff]
  constructor
  · intro h
    obtain ⟨l, ⟨e, he, rfl⟩, hr⟩ := h
    exact ⟨e.1, e.2, he, hr⟩
  · intro h
    obtain ⟨scope, l, he, hr⟩ := h
    exact ⟨l, ⟨(scope, l), he, rfl⟩, hr⟩

theorem Scoped.insert (h : Scoped m) (hne : l ≠ []) (hown : ∀ r ∈ l, r.scope = scope) :
    Scoped (m.insert scope l) where
  nonempty j l' hl' := by
    rcases HashMap.get_insert_eq_some hl' with ⟨-, rfl⟩ | ⟨-, hget⟩
    · exact hne
    · exact h.nonempty j l' hget
  own j l' hl' := by
    rcases HashMap.get_insert_eq_some hl' with ⟨rfl, rfl⟩ | ⟨-, hget⟩
    · exact hown
    · exact h.own j l' hget

theorem Scoped.remove (h : Scoped m) (scope : String) : Scoped (m.remove scope) where
  nonempty j l hl := h.nonempty j l (HashMap.get_remove_eq_some hl).2
  own j l hl := h.own j l (HashMap.get_remove_eq_some hl).2

theorem Scoped.writeBack (h : Scoped m) (hown : ∀ r ∈ l, r.scope = scope) :
    Scoped (Memory.writeBack m scope l l.isEmpty) := by
  cases l with
  | nil => exact h.remove scope
  | cons r l => exact h.insert (by simp) hown

theorem scoped_empty : Scoped (HashMap.empty : HashMap String (List (Rule E))) where
  nonempty _ _ hl := by simp at hl
  own _ _ hl := by simp at hl

theorem Scoped.own_getD (h : Scoped m) {r : Rule E} (hr : r ∈ (m.get scope).getD []) :
    r.scope = scope := by
  cases hl : m.get scope with
  | none => simp [hl] at hr
  | some l =>
    rw [hl, Option.getD_some] at hr
    exact h.own scope l hl r hr

/-- Away from a scope no rule has it. -/
theorem Scoped.scope_ne (h : Scoped m) {r : Rule E} (hr : r ∈ (m.remove scope).values.flatten) :
    r.scope ≠ scope := by
  obtain ⟨j, l, hl, hmem⟩ := mem_flatten.mp hr
  obtain ⟨hj, hget⟩ := HashMap.get_remove_eq_some hl
  rw [h.own j l hget r hmem]
  exact hj

end Flat

section Steps
variable {rules : RuleMap E} {pc : ParticipantContext} {rule : Rule E} {p : String}

/-- What a participant without rules has. -/
def Memory.scopesOf (rules : RuleMap E) (p : String) : HashMap String (List (Rule E)) :=
  (rules.get p).getD HashMap.empty

open Memory

theorem getRules_eq : getRules rules pc = (scopesOf rules pc.id).values.flatten := by
  unfold getRules scopesOf
  cases rules.get pc.id with
  | none => rfl
  | some participantRules => rfl

theorem evaluate_eq {operation : Operation} : evaluate rules pc operation =
    (((scopesOf rules pc.id).get operation.scope).getD []).any fun rule =>
      rule.grants operation := by
  unfold evaluate scopesOf
  cases rules.get pc.id with
  | none => rfl
  | some participantRules =>
    dsimp only [Option.getD_some]
    cases participantRules.get operation.scope with
    | none => rfl
    | some scopeRules => rfl

theorem WellFormed.scoped (h : WellFormed rules) (p : String) : Scoped (scopesOf rules p) := by
  unfold scopesOf
  cases hg : rules.get p with
  | none => exact scoped_empty
  | some participantRules => exact (h p participantRules hg).2

/-- The rules of the scope that stay. -/
def Memory.remaining (m : HashMap String (List (Rule E))) (rule : Rule E) : List (Rule E) :=
  ((m.get rule.scope).getD []).filter fun r => !r.same rule

variable (rules pc rule) in
theorem removeRule_cases :
    (removeRule rules pc rule = rules ∧ (scopesOf rules pc.id).get rule.scope = none) ∨
    ∃ m, rules.get pc.id = some m ∧ removeRule rules pc rule =
      writeBack rules pc.id (writeBack m rule.scope (remaining m rule) (remaining m rule).isEmpty)
        (writeBack m rule.scope (remaining m rule) (remaining m rule).isEmpty).isEmpty := by
  unfold removeRule scopesOf
  cases hp : rules.get pc.id with
  | none => exact Or.inl ⟨rfl, by simp⟩
  | some m =>
    dsimp only
    cases hs : m.get rule.scope with
    | none => exact Or.inl ⟨rfl, by simpa using hs⟩
    | some l =>
      refine Or.inr ⟨m, rfl, ?_⟩
      simp only [remaining, hs, Option.getD_some]

theorem scopesOf_of_get {m : HashMap String (List (Rule E))} (h : rules.get p = some m) :
    scopesOf rules p = m := by
  simp [scopesOf, h]

/-- A map without entries is left out, and read back as such. -/
theorem scopesOf_writeBack {m : HashMap String (List (Rule E))} :
    scopesOf (writeBack rules p m m.isEmpty) p = m := by
  unfold scopesOf
  rw [get_writeBack, if_pos rfl]
  obtain ⟨entries, hn⟩ := m
  cases entries with
  | nil => rfl
  | cons e es => rfl

theorem scopesOf_removeRule : scopesOf (removeRule rules pc rule) pc.id =
    writeBack (scopesOf rules pc.id) rule.scope (remaining (scopesOf rules pc.id) rule)
      (remaining (scopesOf rules pc.id) rule).isEmpty := by
  rcases removeRule_cases rules pc rule with ⟨he, hnone⟩ | ⟨m, hm, he⟩
  · rw [he, remaining, hnone]
    exact (HashMap.remove_of_get_none hnone).symm
  · rw [he, scopesOf_writeBack, scopesOf_of_get hm]

/-! ### What a call does to the rules of a participant -/

theorem getRules_saveRule :
    (getRules (saveRule rules pc rule) pc : Multiset (Rule E)) = rule ::ₘ getRules rules pc := by
  have hsaved : scopesOf (saveRule rules pc rule) pc.id = (scopesOf rules pc.id).insert rule.scope
      (((scopesOf rules pc.id).get rule.scope).getD [] ++ [rule]) := by
    simp [saveRule, scopesOf]
  rw [getRules_eq, getRules_eq, hsaved, flatten_insert, Multiset.cons_coe, Multiset.coe_eq_coe,
    List.append_assoc]
  exact List.perm_middle.trans ((flatten_perm _ rule.scope).symm.cons rule)

theorem getRules_removeRule (h : WellFormed rules) :
    (getRules (removeRule rules pc rule) pc : Multiset (Rule E)) =
      (getRules rules pc : Multiset (Rule E)).filter fun r => r.same rule = false := by
  have hrest : ((scopesOf rules pc.id).remove rule.scope).values.flatten.filter
      (fun r => !r.same rule) =
      ((scopesOf rules pc.id).remove rule.scope).values.flatten := by
    refine List.filter_eq_self.mpr ?_
    intro r hr
    have hne := (h.scoped pc.id).scope_ne hr
    simp [Rule.same, hne]
  have hflat := (flatten_perm (scopesOf rules pc.id) rule.scope).filter (fun r => !r.same rule)
  rw [List.filter_append, hrest] at hflat
  rw [getRules_eq, getRules_eq, scopesOf_removeRule, flatten_writeBack, Multiset.filter_coe,
    Multiset.coe_eq_coe]
  simpa only [Bool.not_eq_true', remaining, Bool.decide_eq_false] using hflat.symm

theorem getRules_removeRules : getRules (removeRules rules pc) pc = [] := by
  simp [getRules, removeRules]

theorem step_get_of_ne {call : RuleCall E} (h : call.participant.id ≠ p) :
    ((MemoryAuthorizationEvaluator E).step rules call).2.get p = rules.get p := by
  have hne : p ≠ call.participant.id := h.symm
  cases call with
  | evaluate pc operation => rfl
  | getRules pc => rfl
  | saveRule pc rule => exact (HashMap.get_insert _ _ _ _).trans (if_neg hne)
  | removeRule pc rule =>
    change (removeRule rules pc rule).get p = rules.get p
    rcases removeRule_cases rules pc rule with ⟨he, -⟩ | ⟨m, -, he⟩
    · rw [he]
    · rw [he, get_writeBack]
      exact if_neg hne
  | removeRules pc => exact (HashMap.get_remove _ _ _).trans (if_neg hne)

/-! ### Well-formedness -/

theorem wellFormed_empty : WellFormed (HashMap.empty : RuleMap E) := by
  intro p m hm
  simp at hm

theorem WellFormed.saveRule (h : WellFormed rules) (pc : ParticipantContext) (rule : Rule E) :
    WellFormed (saveRule rules pc rule) := by
  intro p m hm
  rcases HashMap.get_insert_eq_some hm with ⟨-, rfl⟩ | ⟨-, hget⟩
  · refine ⟨rfl, (h.scoped pc.id).insert (by simp) ?_⟩
    intro r hr
    rcases List.mem_append.mp hr with hr | hr
    · exact (h.scoped pc.id).own_getD hr
    · rw [List.mem_singleton.mp hr]
  · exact h p m hget

theorem WellFormed.removeRule (h : WellFormed rules) (pc : ParticipantContext) (rule : Rule E) :
    WellFormed (removeRule rules pc rule) := by
  intro p m' hm'
  rcases removeRule_cases rules pc rule with ⟨he, -⟩ | ⟨m, hm, he⟩
  · rw [he] at hm'
    exact h p m' hm'
  · rw [he, get_writeBack] at hm'
    split_ifs at hm' with hp hempty
    · obtain rfl := Option.some.inj hm'
      refine ⟨by simpa using hempty, (h pc.id m hm).2.writeBack ?_⟩
      intro r hr
      exact (h pc.id m hm).2.own_getD (List.mem_of_mem_filter hr)
    · exact h p m' hm'

theorem WellFormed.step (h : WellFormed rules) (call : RuleCall E) :
    WellFormed ((MemoryAuthorizationEvaluator E).step rules call).2 := by
  cases call with
  | evaluate pc operation => exact h
  | getRules pc => exact h
  | saveRule pc rule => exact h.saveRule pc rule
  | removeRule pc rule => exact h.removeRule pc rule
  | removeRules pc =>
    intro p m hm
    exact h p m (HashMap.get_remove_eq_some hm).2

theorem getRules_of_get_eq {rules' : RuleMap E} (h : rules'.get pc.id = rules.get pc.id) :
    getRules rules' pc = getRules rules pc := by
  unfold getRules
  rw [h]

theorem getRules_step (h : WellFormed rules) (call : RuleCall E) (pc : ParticipantContext) :
    (getRules ((MemoryAuthorizationEvaluator E).step rules call).2 pc : Multiset (Rule E)) =
      (getRules rules pc : Multiset (Rule E)).filter (fun r => call.removes pc.id r = false) +
        call.saved pc.id := by
  by_cases hp : call.participant.id = pc.id
  · have hsame : ∀ rules' : RuleMap E, getRules rules' pc = getRules rules' call.participant := by
      intro rules'
      unfold getRules
      rw [hp]
    rw [hsame, hsame]
    cases call with
    | evaluate pc' operation =>
      simp [MemoryAuthorizationEvaluator, RuleCall.removes, RuleCall.saved]
    | getRules pc' => simp [MemoryAuthorizationEvaluator, RuleCall.removes, RuleCall.saved]
    | saveRule pc' rule =>
      have hp' : pc'.id = pc.id := hp
      change (getRules (saveRule rules pc' rule) pc' : Multiset (Rule E)) = _
      simp [getRules_saveRule, RuleCall.removes, RuleCall.saved, RuleCall.participant,
        hp', add_comm]
    | removeRule pc' rule =>
      have hp' : pc'.id = pc.id := hp
      change (getRules (removeRule rules pc' rule) pc' : Multiset (Rule E)) = _
      simp [getRules_removeRule h, RuleCall.removes, RuleCall.saved, RuleCall.participant, hp']
    | removeRules pc' =>
      have hp' : pc'.id = pc.id := hp
      change (getRules (removeRules rules pc') pc' : Multiset (Rule E)) = _
      simp [getRules_removeRules, RuleCall.removes, RuleCall.saved, RuleCall.participant, hp']
  · have hdrop : ∀ r, call.removes pc.id r = false := by
      intro r
      cases call with
      | evaluate pc' operation => rfl
      | getRules pc' => rfl
      | saveRule pc' rule => rfl
      | removeRule pc' rule =>
        have hp' : ¬ pc'.id = pc.id := hp
        simp [RuleCall.removes, hp']
      | removeRules pc' =>
        have hp' : ¬ pc'.id = pc.id := hp
        simp [RuleCall.removes, hp']
    have hsaved : call.saved pc.id = 0 := by
      cases call with
      | saveRule pc' rule => exact if_neg hp
      | evaluate pc' operation => rfl
      | getRules pc' => rfl
      | removeRule pc' rule => rfl
      | removeRules pc' => rfl
    rw [getRules_of_get_eq (step_get_of_ne hp), hsaved, add_zero]
    exact (Multiset.filter_eq_self.mpr fun r _ => hdrop r).symm

/-- The lookup under the scope finds what the flat list has. -/
theorem evaluate_iff (h : WellFormed rules) {operation : Operation} :
    evaluate rules pc operation = true ↔
    ∃ r ∈ getRules rules pc, r.scope = operation.scope ∧ operation.action ∈ r.actions ∧
      r.matchesResource operation.resource = true := by
  rw [evaluate_eq, getRules_eq, List.any_eq_true]
  constructor
  · intro hr
    obtain ⟨r, hr, hgrants⟩ := hr
    refine ⟨r, ?_, (h.scoped pc.id).own_getD hr, Rule.grants_iff.mp hgrants⟩
    exact (flatten_perm _ operation.scope).mem_iff.mpr (List.mem_append_left _ hr)
  · intro hr
    obtain ⟨r, hr, hscope, hgrants⟩ := hr
    refine ⟨r, ?_, Rule.grants_iff.mpr hgrants⟩
    rcases List.mem_append.mp ((flatten_perm _ operation.scope).mem_iff.mp hr) with hr | hr
    · exact hr
    · exact absurd hscope ((h.scoped pc.id).scope_ne hr)

variable (E) in
theorem wellFormed_after (calls : List (RuleCall E)) :
    WellFormed
      ((MemoryAuthorizationEvaluator E).after (MemoryAuthorizationEvaluator E).init calls) :=
  Service.after_invariant (S := MemoryAuthorizationEvaluator E) (P := WellFormed)
    (fun _ call h => h.step call)
    wellFormed_empty calls

theorem getRules_after (calls : List (RuleCall E)) (pc : ParticipantContext) :
    (getRules
      ((MemoryAuthorizationEvaluator E).after (MemoryAuthorizationEvaluator E).init calls) pc :
      Multiset (Rule E)) = kept RuleCall.removes pc.id calls := by
  obtain ⟨-, hrules⟩ :=
    rules_after (S := MemoryAuthorizationEvaluator E) (P := WellFormed) (p := pc.id)
      (fun s => (getRules s pc : Multiset (Rule E)))
      (fun s call (_ : call ∈ calls) h => h.step call)
      (fun s call _ h => getRules_step h call pc) wellFormed_empty
  have hinit : getRules (HashMap.empty : RuleMap E) pc = [] := rfl
  rw [hinit, Multiset.coe_nil, Multiset.filter_zero, zero_add] at hrules
  exact hrules

end Steps

open Memory in
/-- After any calls the maps are well formed, `get_rules` has exactly the rules saved and not since
removed, `evaluate` is the flat search through them, and a call leaves the rules and answers of
every other participant alone. -/
theorem memory_rules_mean_saved (calls : List (RuleCall E)) :
    let rules := (MemoryAuthorizationEvaluator E).after (MemoryAuthorizationEvaluator E).init calls
    WellFormed rules ∧
    (∀ pc, (getRules rules pc : Multiset (Rule E)) = kept RuleCall.removes pc.id calls) ∧
    (∀ pc operation, evaluate rules pc operation = true ↔
      ∃ r ∈ getRules rules pc, r.scope = operation.scope ∧
      operation.action ∈ r.actions ∧ r.matchesResource operation.resource = true) ∧
    ∀ (call : RuleCall E) pc, call.participant.id ≠ pc.id →
      getRules ((MemoryAuthorizationEvaluator E).step rules call).2 pc = getRules rules pc ∧
      ∀ operation, evaluate ((MemoryAuthorizationEvaluator E).step rules call).2 pc operation =
        evaluate rules pc operation := by
  intro rules
  have hwf : WellFormed rules := wellFormed_after E calls
  refine ⟨hwf, getRules_after calls, fun pc operation => evaluate_iff hwf, ?_⟩
  intro call pc hne
  refine ⟨getRules_of_get_eq (step_get_of_ne hne), ?_⟩
  intro operation
  unfold evaluate
  rw [step_get_of_ne hne]

end Facet.Auth
