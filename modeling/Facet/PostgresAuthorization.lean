import Facet.Authorization

/-!
# The authorization evaluator in Postgres

The table `authorization_rules`, keyed by participant, scope and resource. A save replaces
the actions of its key and a removal takes the key whatever its actions, where the evaluator
in memory adds a rule and removes the equal ones. The widths of the columns are left out.
-/
namespace Facet.Auth
variable {E : RegexEngine}

/-- `participant_identifier`, `scope` and `resource`, with `actions`. -/
abbrev RuleTable := HashMap (String × String × String) String

namespace Postgres

def joinActions (actions : List String) : String :=
  String.ofList ([','].intercalate (actions.map String.toList))

def splitActions (actions : String) : List String := (actions.toList.splitOn ',').map String.ofList

/-- A row as `Rule::new` gives it back. -/
def loadRule (pc : ParticipantContext) (row : (String × String × String) × String) :
    Except AuthorizationError (Rule E) :=
  match Rule.new row.1.2.1 (splitActions row.2) row.1.2.2 with
  | .error e =>
    .error (.storeError ("Failed loading rule for participant " ++ pc.id ++ ": " ++ e.toString))
  | .ok rule => .ok rule

def getRules (table : RuleTable) (pc : ParticipantContext) :
    Except AuthorizationError (List (Rule E)) :=
  (table.entries.filter fun row => row.1.1 == pc.id).mapM (loadRule pc)

def saveRule (table : RuleTable) (pc : ParticipantContext) (rule : Rule E) : RuleTable :=
  table.insert (pc.id, rule.scope, rule.resource) (joinActions rule.actions)

def removeRule (table : RuleTable) (pc : ParticipantContext) (rule : Rule E) : RuleTable :=
  table.remove (pc.id, rule.scope, rule.resource)

def removeRules (table : RuleTable) (pc : ParticipantContext) : RuleTable :=
  table.retain fun key _ => decide (key.1 ≠ pc.id)

/-- The loop of `evaluate`: the first rule that grants the operation ends it, a rule that cannot be
loaded fails it. -/
def evaluateRows (E : RegexEngine) (pc : ParticipantContext) (operation : Operation) :
    List ((String × String × String) × String) → Except AuthorizationError Bool
  | [] => .ok false
  | row :: rows =>
    match (loadRule pc row : Except AuthorizationError (Rule E)) with
    | .error e => .error e
    | .ok rule => if rule.grants operation then .ok true else evaluateRows E pc operation rows

def evaluate (E : RegexEngine) (table : RuleTable) (pc : ParticipantContext)
    (operation : Operation) : Except AuthorizationError Bool :=
  let rows := table.entries.filter fun row => row.1.1 == pc.id && row.1.2.1 == operation.scope
  if rows.isEmpty then .ok false else evaluateRows E pc operation rows

end Postgres

open Postgres in
def PostgresAuthorizationEvaluator (E : RegexEngine) :
    Service RuleTable (RuleCall E) (RuleReply E) where
  init := HashMap.empty
  step table
    | .evaluate pc operation => (.evaluated (evaluate E table pc operation), table)
    | .getRules pc => (.rules (getRules table pc), table)
    | .saveRule pc rule => (.done, saveRule table pc rule)
    | .removeRule pc rule => (.done, removeRule table pc rule)
    | .removeRules pc => (.done, removeRules table pc)

/-! ## Rules that a row can hold -/

/-- Made by `Rule::new`, with actions that the column gives back. -/
structure Rule.Storable (rule : Rule E) : Prop where
  new : Rule.new rule.scope rule.actions rule.resource = .ok rule
  nonempty : rule.actions ≠ []
  noComma : ∀ action ∈ rule.actions, ',' ∉ action.toList

theorem splitActions_joinActions {actions : List String} (hne : actions ≠ [])
    (hcomma : ∀ action ∈ actions, ',' ∉ action.toList) :
    Postgres.splitActions (Postgres.joinActions actions) = actions := by
  have hsplit : ([','].intercalate (actions.map String.toList)).splitOn ',' =
      actions.map String.toList := by
    apply List.splitOn_intercalate
    · intro l hl
      obtain ⟨action, ha, rfl⟩ := List.mem_map.mp hl
      exact hcomma action ha
    · simpa using hne
  rw [Postgres.splitActions, Postgres.joinActions, String.toList_ofList, hsplit, List.map_map]
  simp

/-! ## What the table stands for -/

/-- The rules of a participant that can be loaded. -/
def Postgres.loaded (E : RegexEngine) (pc : ParticipantContext) (table : RuleTable) :
    List (Rule E) :=
  (table.entries.filter fun row => row.1.1 == pc.id).filterMap fun row => (loadRule pc row).toOption

/-- A save or a removal for the same scope and resource takes the row, `remove_rules` all of
them. -/
def RuleCall.replacesKey : RuleCall E → String × String × String → Bool
  | .saveRule pc rule, key | .removeRule pc rule, key =>
    decide (key = (pc.id, rule.scope, rule.resource))
  | .removeRules pc, key => decide (key.1 = pc.id)
  | _, _ => false

def RuleCall.replaces (call : RuleCall E) (p : String) (r : Rule E) : Bool :=
  call.replacesKey (p, r.scope, r.resource)

/-- Every pattern in the table compiles. -/
def Loadable (E : RegexEngine) (table : RuleTable) : Prop :=
  ∀ key actions, table.get key = some actions → ∃ regex, E.new key.2.2 = .ok regex

section Rows
variable {table : RuleTable} {pc : ParticipantContext} {row : (String × String × String) × String}
  {rule : Rule E}

theorem loadRule_ok
    (h : (Postgres.loadRule pc row : Except AuthorizationError (Rule E)) = .ok rule) :
    rule.scope = row.1.2.1 ∧ rule.resource = row.1.2.2 ∧
      rule.actions = Postgres.splitActions row.2 ∧
      ∃ regex, E.new rule.resource = .ok regex ∧ rule.compiledRegex = some regex := by
  unfold Postgres.loadRule Rule.new at h
  cases hr : E.new row.1.2.2 with
  | error e => simp [hr] at h
  | ok regex =>
    simp only [hr, Except.ok.injEq] at h
    subst h
    exact ⟨rfl, rfl, rfl, regex, hr, rfl⟩

theorem Rule.Storable.loadRule (h : rule.Storable) :
    Postgres.loadRule pc ((pc.id, rule.scope, rule.resource), Postgres.joinActions rule.actions) =
      .ok rule := by
  unfold Postgres.loadRule
  dsimp only
  rw [splitActions_joinActions h.nonempty h.noComma, h.new]

theorem Rule.Storable.compiles (h : rule.Storable) : ∃ regex, E.new rule.resource = .ok regex := by
  have hnew := h.new
  unfold Rule.new at hnew
  cases hr : E.new rule.resource with
  | error e => simp [hr] at hnew
  | ok regex => exact ⟨regex, rfl⟩

theorem Loadable.loadRule (h : Loadable E table) (hrow : row ∈ table.entries) :
    ∃ rule : Rule E, Postgres.loadRule pc row = .ok rule := by
  obtain ⟨regex, hr⟩ := h row.1 row.2 ((HashMap.get_eq_some_iff table).mpr hrow)
  exact ⟨⟨row.1.2.1, Postgres.splitActions row.2, row.1.2.2,
    some regex⟩, by simp [Postgres.loadRule, Rule.new, hr]⟩

theorem loaded_filter (rows : List ((String × String × String) × String))
    (keep : String × String × String → Bool) :
    ((rows.filter fun row => row.1.1 == pc.id && keep row.1).filterMap
        fun row => (Postgres.loadRule pc row : Except AuthorizationError (Rule E)).toOption) =
      ((rows.filter fun row => row.1.1 == pc.id).filterMap fun row =>
        (Postgres.loadRule pc row).toOption).filter fun r => keep (pc.id, r.scope, r.resource) := by
  rw [List.filterMap_filter, List.filterMap_filter, List.filter_filterMap]
  congr 1
  funext row
  by_cases hp : row.1.1 = pc.id
  · cases hload : (Postgres.loadRule pc row : Except AuthorizationError (Rule E)) with
    | error e => simp [Except.toOption]
    | ok rule =>
      obtain ⟨hscope, hresource, -⟩ := loadRule_ok hload
      have hkey : (pc.id, rule.scope, rule.resource) = row.1 := by rw [hscope, hresource, ← hp]
      simp [hp, Except.toOption, hkey, Option.filter]
  · simp [hp]

theorem loaded_retain (keep : String × String × String → Bool) :
    Postgres.loaded E pc (table.retain fun key _ => keep key) =
      (Postgres.loaded E pc table).filter fun r => keep (pc.id, r.scope, r.resource) := by
  unfold Postgres.loaded
  rw [← loaded_filter, HashMap.retain, List.filter_filter]

theorem loaded_saveRule (h : rule.Storable) (pc' : ParticipantContext) :
    Postgres.loaded E pc (Postgres.saveRule table pc' rule) =
      (if pc'.id = pc.id then [rule] else []) ++
        (Postgres.loaded E pc table).filter
          fun r => decide ((pc.id, r.scope, r.resource) ≠ (pc'.id, rule.scope, rule.resource)) := by
  rw [← loaded_retain fun key => decide (key ≠ (pc'.id, rule.scope, rule.resource))]
  unfold Postgres.loaded Postgres.saveRule
  by_cases hp : pc'.id = pc.id
  · simp [HashMap.insert, HashMap.remove, hp, h.loadRule, Except.toOption]
  · simp [HashMap.insert, HashMap.remove, hp]

theorem loaded_step {call : RuleCall E} (h : ∀ pc rule, call = .saveRule pc rule → rule.Storable) :
    (Postgres.loaded E pc ((PostgresAuthorizationEvaluator E).step table call).2 : Multiset
      (Rule E)) = (Postgres.loaded E pc table :
      Multiset (Rule E)).filter (fun r => call.replaces pc.id r = false) +
        call.saved pc.id := by
  rw [Multiset.filter_coe]
  cases call with
  | evaluate pc' operation =>
    simp [PostgresAuthorizationEvaluator, RuleCall.replaces, RuleCall.replacesKey, RuleCall.saved]
  | getRules pc' =>
    simp [PostgresAuthorizationEvaluator, RuleCall.replaces, RuleCall.replacesKey, RuleCall.saved]
  | saveRule pc' rule =>
    change (Postgres.loaded E pc (Postgres.saveRule table pc' rule) : Multiset (Rule E)) = _
    rw [loaded_saveRule (h pc' rule rfl), RuleCall.saved, ← Multiset.coe_add, add_comm]
    congr 1
    · refine congrArg _ (List.filter_congr ?_)
      intro r _
      simp [RuleCall.replaces, RuleCall.replacesKey]
    · split_ifs <;> rfl
  | removeRule pc' rule =>
    change (Postgres.loaded E pc (table.retain _) : Multiset (Rule E)) = _ + 0
    rw [loaded_retain fun key => decide (key ≠ (pc'.id, rule.scope, rule.resource)), add_zero]
    refine congrArg _ (List.filter_congr ?_)
    intro r _
    simp [RuleCall.replaces, RuleCall.replacesKey]
  | removeRules pc' =>
    change (Postgres.loaded E pc (table.retain _) : Multiset (Rule E)) = _ + 0
    rw [loaded_retain fun key => decide (key.1 ≠ pc'.id), add_zero]
    refine congrArg _ (List.filter_congr ?_)
    intro r _
    simp [RuleCall.replaces, RuleCall.replacesKey]

theorem Loadable.step (h : Loadable E table) {call : RuleCall E}
    (hcall : ∀ pc rule, call = .saveRule pc rule → rule.Storable) :
    Loadable E ((PostgresAuthorizationEvaluator E).step table call).2 := by
  intro key actions hget
  cases call with
  | evaluate pc operation => exact h key actions hget
  | getRules pc => exact h key actions hget
  | saveRule pc rule =>
    rcases HashMap.get_insert_eq_some hget with ⟨rfl, -⟩ | ⟨-, hget⟩
    · exact (hcall pc rule rfl).compiles
    · exact h key actions hget
  | removeRule pc rule => exact h key actions (HashMap.get_remove_eq_some hget).2
  | removeRules pc =>
    change (table.retain _).get key = some actions at hget
    rw [HashMap.get_retain] at hget
    exact h key actions (Option.filter_eq_some_iff.mp hget).1

theorem evaluateRows_eq {operation : Operation} {rows : List ((String × String × String) × String)}
    (h : ∀ row ∈ rows, ∃ rule : Rule E, Postgres.loadRule pc row = .ok rule) :
    Postgres.evaluateRows E pc operation rows = .ok ((rows.filterMap
      fun row => (Postgres.loadRule pc row : Except AuthorizationError (Rule E)).toOption).any
        (·.grants operation)) := by
  induction rows with
  | nil => rfl
  | cons row rows ih =>
    obtain ⟨rule, hrule⟩ := h row List.mem_cons_self
    have hrest := ih fun row hrow => h row (List.mem_cons_of_mem _ hrow)
    rw [Postgres.evaluateRows, List.filterMap_cons]
    simp only [hrule, hrest, Except.toOption, List.any_cons]
    by_cases hg : rule.grants operation = true
    · simp [hg]
    · simp [hg]

/-- Over rows that load, `evaluate` is the flat search. -/
theorem Loadable.evaluate_eq (h : Loadable E table) (operation : Operation) :
    Postgres.evaluate E table pc operation = .ok ((Postgres.loaded E pc table).any
      fun r => r.scope == operation.scope && r.grants operation) := by
  have hload :
      ∀ row ∈ table.entries.filter (fun row => row.1.1 == pc.id && row.1.2.1 == operation.scope),
      ∃ rule : Rule E, Postgres.loadRule pc row = .ok rule := by
    intro row hrow
    exact h.loadRule (List.mem_of_mem_filter hrow)
  have heval : Postgres.evaluate E table pc operation = Postgres.evaluateRows E pc operation
      (table.entries.filter fun row => row.1.1 == pc.id && row.1.2.1 == operation.scope) := by
    unfold Postgres.evaluate
    dsimp only
    split_ifs with hempty
    · rw [List.isEmpty_iff.mp hempty]
      rfl
    · rfl
  rw [heval, evaluateRows_eq hload, loaded_filter _ fun key => key.2.1 == operation.scope,
    List.any_filter]
  rfl

end Rows

/-! ## The rows of a participant -/

section RowsOf
variable {p : String} {table table' : RuleTable} {call : RuleCall E}

end RowsOf

/-! ## Both evaluators -/

/-- Some rule has the scope and the action and matches the resource. -/
def Granted (rules : Multiset (Rule E)) (operation : Operation) : Prop :=
  ∃ r ∈ rules, r.scope = operation.scope ∧ operation.action ∈ r.actions ∧
    r.matchesResource operation.resource = true

/-- Some rule with the scope and the pattern has the action. -/
def Offers (rules : Multiset (Rule E)) (scope resource action : String) : Prop :=
  ∃ r ∈ rules, r.scope = scope ∧ r.resource = resource ∧ action ∈ r.actions

def RuleCall.Storable (call : RuleCall E) : Prop :=
  ∀ pc rule, call = .saveRule pc rule → rule.Storable

/-- A save repeats the actions stored for its scope and resource, a removal names all of them. -/
def Aligned (rules : RuleMap E) : RuleCall E → Prop
  | .saveRule pc rule => ∀ r ∈ Memory.getRules rules pc, r.scope = rule.scope →
      r.resource = rule.resource →
      ∀ action ∈ r.actions, action ∈ rule.actions
  | .removeRule pc rule => ∀ r ∈ Memory.getRules rules pc, r.scope = rule.scope →
      r.resource = rule.resource →
      r.actions = rule.actions
  | _ => True

instance (rules : RuleMap E) : (call : RuleCall E) → Decidable (Aligned rules call)
  | .saveRule pc rule =>
    inferInstanceAs (Decidable (∀ r ∈ Memory.getRules rules pc, r.scope = rule.scope →
      r.resource = rule.resource → ∀ action ∈ r.actions, action ∈ rule.actions))
  | .removeRule pc rule =>
    inferInstanceAs (Decidable (∀ r ∈ Memory.getRules rules pc, r.scope = rule.scope →
      r.resource = rule.resource → r.actions = rule.actions))
  | .evaluate _ _ | .getRules _ | .removeRules _ => inferInstanceAs (Decidable True)

/-- The two states offer the same, with rules that the patterns alone decide. -/
structure Matched (rules : RuleMap E) (table : RuleTable) : Prop where
  wellFormed : WellFormed rules
  loadable : Loadable E table
  storable : ∀ pc, ∀ r ∈ Memory.getRules rules pc, r.Storable
  same : ∀ pc scope resource action,
    Offers (Memory.getRules rules pc : Multiset (Rule E)) scope resource action ↔
    Offers (Postgres.loaded E pc table : Multiset (Rule E)) scope resource action

section Agreement
variable {rules : RuleMap E} {table : RuleTable} {pc : ParticipantContext} {M : Multiset (Rule E)}
  {call : RuleCall E} {scope resource action : String}

theorem offers_add {N : Multiset (Rule E)} :
    Offers (M + N) scope resource action ↔ Offers M scope resource action ∨
      Offers N scope resource action := by
  simp only [Offers, Multiset.mem_add, or_and_right, exists_or]

/-- Rows are dropped by their key. -/
theorem offers_replaced :
    Offers (M.filter (fun r => call.replaces pc.id r = false)) scope resource action ↔
    call.replacesKey (pc.id, scope, resource) = false ∧ Offers M scope resource action := by
  constructor
  · intro h
    obtain ⟨r, hr, rfl, rfl, ha⟩ := h
    obtain ⟨hmem, hkeep⟩ := Multiset.mem_filter.mp hr
    exact ⟨hkeep, r, hmem, rfl, rfl, ha⟩
  · intro h
    obtain ⟨hkeep, r, hmem, rfl, rfl, ha⟩ := h
    exact ⟨r, Multiset.mem_filter.mpr ⟨hmem, hkeep⟩, rfl, rfl, ha⟩

theorem replacesKey_of_removes {r : Rule E} (h : call.removes pc.id r = true) :
    call.replacesKey (pc.id, r.scope, r.resource) = true := by
  cases call with
  | evaluate pc' operation => exact h
  | getRules pc' => exact h
  | saveRule pc' rule => simp [RuleCall.removes] at h
  | removeRule pc' rule =>
    rw [RuleCall.removes, Bool.and_eq_true, beq_iff_eq, Rule.same_iff] at h
    obtain ⟨hp, hscope, -, hresource⟩ := h
    simp [RuleCall.replacesKey, hp, hscope, hresource]
  | removeRules pc' =>
    simp only [RuleCall.removes, beq_iff_eq] at h
    simp [RuleCall.replacesKey, h]

/-- A rule that stays although its key is replaced is repeated by the saved one. -/
theorem Aligned.saved_offers (h : Aligned rules call) {r : Rule E}
    (hr : r ∈ Memory.getRules rules pc)
    (hkey : call.replacesKey (pc.id, r.scope, r.resource) = true)
    (hstays : call.removes pc.id r = false) (ha : action ∈ r.actions) :
    Offers (call.saved pc.id) r.scope r.resource action := by
  have hsame : ∀ pc', pc'.id = pc.id → Memory.getRules rules pc' = Memory.getRules rules pc := by
    intro pc' hp
    unfold Memory.getRules
    rw [hp]
  cases call with
  | evaluate pc' operation => simp [RuleCall.replacesKey] at hkey
  | getRules pc' => simp [RuleCall.replacesKey] at hkey
  | saveRule pc' rule =>
    simp only [RuleCall.replacesKey, decide_eq_true_eq, Prod.mk.injEq] at hkey
    obtain ⟨hp, hscope, hresource⟩ := hkey
    rw [← hsame pc' hp.symm] at hr
    refine ⟨rule, ?_, hscope.symm, hresource.symm, h r hr hscope hresource action ha⟩
    simp [RuleCall.saved, hp]
  | removeRule pc' rule =>
    simp only [RuleCall.replacesKey, decide_eq_true_eq, Prod.mk.injEq] at hkey
    obtain ⟨hp, hscope, hresource⟩ := hkey
    rw [← hsame pc' hp.symm] at hr
    have hremoves : (RuleCall.removeRule pc' rule).removes pc.id r = true := by
      rw [RuleCall.removes, Bool.and_eq_true, beq_iff_eq, Rule.same_iff]
      exact ⟨hp.symm, hscope, h r hr hscope hresource, hresource⟩
    rw [hremoves] at hstays
    exact absurd hstays (by simp)
  | removeRules pc' =>
    simp only [RuleCall.replacesKey, decide_eq_true_eq] at hkey
    simp [RuleCall.removes, hkey] at hstays

/-- An aligned call changes what is offered in memory as it does in the table. -/
theorem Aligned.offers (h : Aligned rules call) :
    Offers ((Memory.getRules rules pc : Multiset (Rule E)).filter
      (fun r => call.removes pc.id r = false) + call.saved pc.id) scope resource action ↔
    (call.replacesKey (pc.id, scope, resource) = false ∧
      Offers (Memory.getRules rules pc : Multiset (Rule E)) scope resource action) ∨
      Offers (call.saved pc.id) scope resource action := by
  rw [offers_add]
  constructor
  · intro ho
    rcases ho with ⟨r, hr, rfl, rfl, ha⟩ | hsaved
    · obtain ⟨hmem, hstays⟩ := Multiset.mem_filter.mp hr
      by_cases hkey : call.replacesKey (pc.id, r.scope, r.resource) = true
      · exact Or.inr (h.saved_offers (Multiset.mem_coe.mp hmem) hkey hstays ha)
      · exact Or.inl ⟨Bool.eq_false_iff.mpr hkey, r, hmem, rfl, rfl, ha⟩
    · exact Or.inr hsaved
  · intro ho
    rcases ho with ⟨hkey, r, hmem, rfl, rfl, ha⟩ | hsaved
    · refine Or.inl ⟨r, Multiset.mem_filter.mpr ⟨hmem, ?_⟩, rfl, rfl, ha⟩
      rw [Bool.eq_false_iff]
      intro hremoves
      rw [replacesKey_of_removes hremoves] at hkey
      exact absurd hkey (by simp)
    · exact Or.inr hsaved

theorem Rule.Storable.of_step (h : ∀ r ∈ M, r.Storable) (hcall : call.Storable) (p : String)
    {r : Rule E}
    (hr : r ∈ M.filter (fun r => call.removes p r = false) + call.saved p) : r.Storable := by
  rcases Multiset.mem_add.mp hr with hr | hr
  · exact h r (Multiset.mem_of_mem_filter hr)
  · cases call with
    | saveRule pc rule =>
      rw [RuleCall.saved] at hr
      split_ifs at hr with hp
      · rw [Multiset.mem_singleton.mp hr]
        exact hcall pc rule rfl
      · simp at hr
    | evaluate pc operation => simp [RuleCall.saved] at hr
    | getRules pc => simp [RuleCall.saved] at hr
    | removeRule pc rule => simp [RuleCall.saved] at hr
    | removeRules pc => simp [RuleCall.saved] at hr

theorem Matched.step (h : Matched rules table) (hcall : call.Storable)
    (haligned : Aligned rules call) : Matched ((MemoryAuthorizationEvaluator E).step rules call).2
    ((PostgresAuthorizationEvaluator E).step table call).2 where
  wellFormed := h.wellFormed.step call
  loadable := h.loadable.step hcall
  storable pc r hr := by
    rw [← Multiset.mem_coe, getRules_step h.wellFormed call pc] at hr
    exact Rule.Storable.of_step (fun r hr => h.storable pc r (Multiset.mem_coe.mp hr))
      hcall pc.id hr
  same pc scope resource action := by
    rw [getRules_step h.wellFormed call pc, loaded_step hcall, haligned.offers,
      offers_add, offers_replaced, h.same pc scope resource action]

/-- Where the pattern was compiled, it decides the match. -/
theorem granted_iff_offers {operation : Operation}
    (h : ∀ r ∈ M, ∃ regex, E.new r.resource = .ok regex ∧ r.compiledRegex = some regex) :
    Granted M operation ↔ ∃ resource regex, E.new resource = .ok regex ∧
      E.isMatch regex operation.resource = true ∧
        Offers M operation.scope resource operation.action := by
  constructor
  · intro hg
    obtain ⟨r, hr, hscope, ha, hm⟩ := hg
    obtain ⟨regex, hnew, hcompiled⟩ := h r hr
    rw [Rule.matchesResource, hcompiled] at hm
    exact ⟨r.resource, regex, hnew, hm, r, hr, hscope, rfl, ha⟩
  · intro ho
    obtain ⟨_, regex, hnew, hm, r, hr, hscope, rfl, ha⟩ := ho
    obtain ⟨regex', hnew', hcompiled⟩ := h r hr
    rw [hnew] at hnew'
    obtain rfl := Except.ok.inj hnew'
    refine ⟨r, hr, hscope, ha, ?_⟩
    rw [Rule.matchesResource, hcompiled]
    exact hm

theorem Rule.Storable.compiled {rule : Rule E} (h : rule.Storable) :
    ∃ regex, E.new rule.resource = .ok regex ∧ rule.compiledRegex = some regex := by
  obtain ⟨regex, hr⟩ := h.compiles
  have hnew := h.new
  rw [Rule.new, hr] at hnew
  refine ⟨regex, hr, ?_⟩
  rw [← Except.ok.inj hnew]

theorem compiled_of_mem_loaded {r : Rule E} (hr : r ∈ Postgres.loaded E pc table) :
    ∃ regex, E.new r.resource = .ok regex ∧ r.compiledRegex = some regex := by
  obtain ⟨row, -, hload⟩ := List.mem_filterMap.mp hr
  cases hl : (Postgres.loadRule pc row : Except AuthorizationError (Rule E)) with
  | error e => simp [hl, Except.toOption] at hload
  | ok rule =>
    rw [hl] at hload
    obtain rfl := Option.some.inj hload
    exact (loadRule_ok hl).2.2.2

theorem Loadable.evaluate_iff (h : Loadable E table) (pc : ParticipantContext)
    (operation : Operation) : ∃ granted, Postgres.evaluate E table pc operation = .ok granted ∧
      (granted = true ↔ Granted (Postgres.loaded E pc table : Multiset (Rule E)) operation) := by
  refine ⟨_, h.evaluate_eq operation, ?_⟩
  simp only [List.any_eq_true, Bool.and_eq_true, beq_iff_eq, Rule.grants_iff]
  rfl

theorem Matched.evaluate (h : Matched rules table) (pc : ParticipantContext)
    (operation : Operation) :
    Postgres.evaluate E table pc operation = .ok (Memory.evaluate rules pc operation) := by
  obtain ⟨granted, heval, hgranted⟩ := h.loadable.evaluate_iff pc operation
  have hiff : granted = true ↔ Memory.evaluate rules pc operation = true := by
    have hmemory : Granted (Memory.getRules rules pc : Multiset (Rule E)) operation ↔
        Granted (Postgres.loaded E pc table : Multiset (Rule E)) operation := by
      rw [granted_iff_offers fun r hr => (h.storable pc r (Multiset.mem_coe.mp hr)).compiled,
        granted_iff_offers fun r hr => compiled_of_mem_loaded (Multiset.mem_coe.mp hr)]
      simp only [h.same]
    rw [hgranted, ← hmemory, evaluate_iff h.wellFormed]
    rfl
  rw [heval, Bool.eq_iff_iff.mpr hiff]

theorem matched_empty : Matched (HashMap.empty : RuleMap E) HashMap.empty where
  wellFormed := wellFormed_empty
  loadable _ _ hget := by simp at hget
  storable _ r hr := by
    change r ∈ [] at hr
    simp at hr
  same _ _ _ _ := Iff.rfl

theorem loaded_after {calls : List (RuleCall E)} (hcalls : ∀ call ∈ calls, call.Storable)
    (pc : ParticipantContext) :
    Loadable E
      ((PostgresAuthorizationEvaluator E).after (PostgresAuthorizationEvaluator E).init calls) ∧
        (Postgres.loaded E pc
          ((PostgresAuthorizationEvaluator E).after (PostgresAuthorizationEvaluator E).init calls) :
        Multiset (Rule E)) = kept RuleCall.replaces pc.id calls := by
  obtain ⟨hloadable, hrules⟩ :=
    rules_after (S := PostgresAuthorizationEvaluator E) (P := Loadable E) (p := pc.id)
      (fun table => (Postgres.loaded E pc table : Multiset (Rule E))) (fun s call hc h =>
        h.step (hcalls call hc))
      (fun s call hc _ => loaded_step (hcalls call hc)) matched_empty.loadable
  have hinit : Postgres.loaded E pc HashMap.empty = [] := rfl
  rw [hinit, Multiset.coe_nil, Multiset.filter_zero, zero_add] at hrules
  exact ⟨hloadable, hrules⟩

end Agreement

/-- The answer of an `evaluate`. -/
def RuleReply.evaluation : RuleReply E → Option (Except AuthorizationError Bool)
  | .evaluated result => some result
  | .rules _ | .done => none

/-- For rules with actions that the column gives back: in memory the rules saved and not removed by
an equal one decide, in the table those not removed or saved again for their scope and resource; and
the answers are the same along calls that are aligned. -/
theorem authorization_evaluators_agree (calls : List (RuleCall E))
    (hcalls : ∀ call ∈ calls, call.Storable) : let memory := MemoryAuthorizationEvaluator E
    let postgres := PostgresAuthorizationEvaluator E
    (∀ pc operation, Memory.evaluate (memory.after memory.init calls) pc operation = true ↔
      Granted (kept RuleCall.removes pc.id calls) operation) ∧
    (∀ pc operation, ∃ granted, Postgres.evaluate E (postgres.after postgres.init calls) pc
      operation = .ok granted ∧
      (granted = true ↔ Granted (kept RuleCall.replaces pc.id calls) operation)) ∧
    (memory.Along Aligned memory.init calls →
      (memory.observed RuleReply.evaluation).replies memory.init calls =
        (postgres.observed RuleReply.evaluation).replies postgres.init calls) := by
  intro memory postgres
  refine ⟨?_, ?_, ?_⟩
  · intro pc operation
    rw [evaluate_iff (wellFormed_after E calls), ← getRules_after calls pc]
    rfl
  · intro pc operation
    obtain ⟨hloadable, hrules⟩ := loaded_after hcalls pc
    rw [← hrules]
    exact hloadable.evaluate_iff pc operation
  · intro halong
    refine Service.replies_eq ?_ matched_empty
      (Service.along_observed RuleReply.evaluation (Service.along_and halong hcalls))
    intro rules table call hmatched hcall
    refine ⟨?_, hmatched.step hcall.2 hcall.1⟩
    cases call with
    | evaluate pc operation =>
      change some (Except.ok (Memory.evaluate rules pc operation)) =
        some (Postgres.evaluate E table pc operation)
      rw [hmatched.evaluate pc operation]
    | getRules pc => rfl
    | saveRule pc rule => rfl
    | removeRule pc rule => rfl
    | removeRules pc => rfl

/-- Patterns of letters, digits and slashes, which match where they occur. -/
def plainPatterns : RegexEngine where
  Regex := List Char
  new pattern := if pattern.toList.all (fun c => c.isAlphanum || c == '/') then .ok pattern.toList
    else .error "unsupported"
  isMatch regex text := decide (regex <:+: text.toList)

def demoParticipant : ParticipantContext := { id := "participant1" }

def demoRule (actions : List String) (resource : String) : Rule plainPatterns :=
  ⟨"scope1", actions, resource, some resource.toList⟩

def demoCalls : List (RuleCall plainPatterns) :=
  [.saveRule demoParticipant (demoRule ["read"] "resource1"),
    .saveRule demoParticipant (demoRule ["read", "write"] "resource1"),
    .saveRule demoParticipant (demoRule ["read"] "resource2"),
    .removeRule demoParticipant (demoRule ["read"] "resource2"),
    .evaluate demoParticipant ⟨"scope1", "write", "data/resource1"⟩,
    .removeRules demoParticipant,
    .evaluate demoParticipant ⟨"scope1", "write", "data/resource1"⟩]

theorem demoRule_new {actions : List String} {resource : String}
    (hplain : resource.toList.all (fun c => c.isAlphanum || c == '/') = true) :
    Rule.new "scope1" actions resource = .ok (demoRule actions resource) := by
  simp only [Rule.new, plainPatterns, demoRule, hplain, if_true]

theorem demoRule_storable {actions : List String} {resource : String} (hne : actions ≠ [])
    (hcomma : ∀ action ∈ actions, ',' ∉ action.toList)
    (hplain : resource.toList.all (fun c => c.isAlphanum || c == '/') = true) :
    (demoRule actions resource).Storable where
  new := demoRule_new hplain
  nonempty := hne
  noComma := hcomma

theorem evaluators_agree_on_widened_rule :
    ((MemoryAuthorizationEvaluator plainPatterns).observed RuleReply.evaluation).replies
      HashMap.empty demoCalls =
        ((PostgresAuthorizationEvaluator plainPatterns).observed RuleReply.evaluation).replies
          HashMap.empty demoCalls := by
  have hstorable : ∀ call ∈ demoCalls, call.Storable := by
    intro call hcall pc rule he
    subst he
    simp only [demoCalls, List.mem_cons, RuleCall.saveRule.injEq, reduceCtorEq, List.not_mem_nil,
      or_false] at hcall
    rcases hcall with ⟨-, rfl⟩ | ⟨-, rfl⟩ | ⟨-, rfl⟩
    · exact demoRule_storable (by decide) (by decide) (by decide)
    · exact demoRule_storable (by decide) (by decide) (by decide)
    · exact demoRule_storable (by decide) (by decide) (by decide)
  have hcheck : ∀ (rules : RuleMap plainPatterns) call, decide (Aligned rules call) = true →
      Aligned rules call :=
    fun _ _ => of_decide_eq_true
  exact (authorization_evaluators_agree demoCalls hstorable).2.2
    (Service.along_of_check hcheck (by decide +kernel))

/-- The rules of a call come from `Rule::new`. -/
def RuleCall.Made : RuleCall E → Prop
  | .saveRule _ rule | .removeRule _ rule =>
    Rule.new rule.scope rule.actions rule.resource = .ok rule
  | _ => True

def demoOverwriting : List (RuleCall plainPatterns) :=
  [.saveRule demoParticipant (demoRule ["read"] "resource1"),
    .saveRule demoParticipant (demoRule ["write"] "resource1"),
    .evaluate demoParticipant ⟨"scope1", "read", "resource1"⟩]

def demoOtherRemoval : List (RuleCall plainPatterns) :=
  [.saveRule demoParticipant (demoRule ["read"] "resource1"),
    .removeRule demoParticipant (demoRule ["write"] "resource1"),
    .evaluate demoParticipant ⟨"scope1", "read", "resource1"⟩]

/-- A rule saved again with other actions, and a removal with other actions, leave the first grant
in memory only. -/
theorem overwritten_grant_stays_in_memory :
    (∀ call ∈ demoOverwriting ++ demoOtherRemoval, call.Made) ∧
    ((MemoryAuthorizationEvaluator plainPatterns).observed RuleReply.evaluation).replies
      HashMap.empty demoOverwriting = [none, none, some (.ok true)] ∧
    ((PostgresAuthorizationEvaluator plainPatterns).observed RuleReply.evaluation).replies
      HashMap.empty demoOverwriting = [none, none, some (.ok false)] ∧
    ((MemoryAuthorizationEvaluator plainPatterns).observed RuleReply.evaluation).replies
      HashMap.empty demoOtherRemoval = [none, none, some (.ok true)] ∧
    ((PostgresAuthorizationEvaluator plainPatterns).observed RuleReply.evaluation).replies
      HashMap.empty demoOtherRemoval = [none, none, some (.ok false)] := by
  refine ⟨?_, by rfl, by rfl, by rfl, by rfl⟩
  intro call hcall
  simp only [demoOverwriting, demoOtherRemoval, List.cons_append, List.nil_append, List.mem_cons,
    List.not_mem_nil, or_false] at hcall
  rcases hcall with rfl | rfl | rfl | rfl | rfl | rfl
  · exact demoRule_new (by decide)
  · exact demoRule_new (by decide)
  · trivial
  · exact demoRule_new (by decide)
  · exact demoRule_new (by decide)
  · trivial

end Facet.Auth
