import Facet.FlowCleanup

/-!
# Claim mappings

`CelClaimMapper`: the flow is projected once, then each mapping is compiled, evaluated and
converted in turn. The expression language is a parameter; compiled programs are cached by
their source. The contract of a mapper is a fold over what the expressions come to.
-/
namespace Facet.Siglet

inductive ClaimMapperError
  | compile (expression message : String)
  | evaluate (expression claim message : String)
  | convert (expression claim message : String)
  | projection (flowId message : String)
  | binding (flowId message : String)
  deriving DecidableEq, Repr

def ClaimMapperError.message : ClaimMapperError → String
  | .compile expression message => "invalid expression '" ++ expression ++ "': " ++ message
  | .evaluate expression claim message =>
    "failed to evaluate expression '" ++ expression ++ "' for claim '" ++ claim ++ "': " ++ message
  | .convert expression claim message =>
    "expression '" ++ expression ++ "' for claim '" ++ claim ++
      "' produced a value that cannot be represented as JSON: " ++ message
  | .projection flowId message =>
    "failed to project data flow '" ++ flowId ++ "' for evaluation: " ++ message
  | .binding flowId message =>
    "failed to bind the 'flow' variable for data flow '" ++ flowId ++ "': " ++ message

/-- The expression engine. `bindFlow` is the default context with the credential functions and the
variable `flow`. -/
structure Cel where
  Program : Type
  Context : Type
  Result : Type
  compileText : String → Except String Program
  bindFlow : Value → Except String Context
  execute : Program → Context → Except String Result
  isNull : Result → Bool
  json : Result → Except String Value

/-- The fields of a flow that only expressions see. The first three are the serialiser's answers. -/
structure FlowDetails where
  state : Except String Value
  kind : Except String Value
  dataAddress : DataAddress → Except String Value
  dataspaceContext : String := ""
  controlPlaneId : String := ""
  suspensionReason : Option String := none
  terminationReason : Option String := none
  labels : List String := []
  claims : HashMap String Value := HashMap.empty
  createdAt : String := ""
  updatedAt : String := ""

def projectField (flowId field : String) (value : Except String Value) :
    Except ClaimMapperError Value :=
  value.mapError fun e => .projection flowId ("field '" ++ field ++ "': " ++ e)

def optionalString (o : Option String) : Value := (o.map Value.string).getD .null

namespace SigletDataFlowHandler
variable (h : SigletDataFlowHandler)

def unwrapMap (source : HashMap String Value) : Value :=
  .object (source.entries.map fun entry =>
    (entry.1, h.unwrapJsonValue ((entry.2.asStr.getD "").length + 1) entry.2))

/-- The document that expressions see under `flow`; the JSON reader is that of the handler. -/
def flowToValue (flow : DataFlow) (details : FlowDetails) : Except ClaimMapperError Value := do
  let state ← projectField flow.id "state" details.state
  let kind ← projectField flow.id "kind" details.kind
  let dataAddress ← match flow.dataAddress with
    | some address => projectField flow.id "dataAddress" (details.dataAddress address)
    | none => .ok .null
  return .object [
    ("id", .string flow.id),
    ("state", state),
    ("profile", .string flow.profile),
    ("kind", kind),
    ("agreementId", .string flow.agreementId),
    ("datasetId", .string flow.datasetId),
    ("dataspaceContext", .string details.dataspaceContext),
    ("participantId", .string flow.participantId),
    ("counterPartyId", .string flow.counterPartyId),
    ("controlPlaneId", .string details.controlPlaneId),
    ("participantContextId", .string flow.participantContextId),
    ("suspensionReason", optionalString details.suspensionReason),
    ("terminationReason", optionalString details.terminationReason),
    ("labels", .array (details.labels.map .string)),
    ("metadata", h.unwrapMap flow.metadata),
    ("claims", h.unwrapMap details.claims),
    ("dataAddress", dataAddress),
    ("createdAt", .string details.createdAt),
    ("updatedAt", .string details.updatedAt)]

end SigletDataFlowHandler

namespace Cel
variable (cel : Cel)

def compile (expression : String) : Except ClaimMapperError cel.Program :=
  (cel.compileText expression).mapError fun e => .compile expression e

def flowContext (h : SigletDataFlowHandler) (flow : DataFlow) (details : FlowDetails) :
    Except ClaimMapperError cel.Context := do
  let projection ← h.flowToValue flow details
  (cel.bindFlow projection).mapError fun e => .binding flow.id e

end Cel

def programCacheCapacity : ℕ := 512

/-- Every cached program is the one its source compiles to. -/
structure CelClaimMapper (cel : Cel) where
  programs : HashMap String cel.Program
  compiled : ∀ expression program, programs.get expression = some program →
    cel.compile expression = .ok program

namespace CelClaimMapper
variable {cel : Cel}

def new : CelClaimMapper cel where
  programs := HashMap.empty
  compiled := by simp

def cache (m : CelClaimMapper cel) (expression : String) (program : cel.Program)
    (hcompiled : cel.compile expression = .ok program) : CelClaimMapper cel where
  programs :=
    if m.programs.entries.length < programCacheCapacity then m.programs.insert expression program
    else m.programs
  compiled := by
    intro e p hget
    split_ifs at hget with hroom
    · rcases HashMap.get_insert_eq_some hget with ⟨rfl, rfl⟩ | ⟨-, hold⟩
      · exact hcompiled
      · exact m.compiled e p hold
    · exact m.compiled e p hget

/-- The lock is not held during a compilation, so that `m` may have grown by the time of the write;
a program is then replaced by itself. -/
def programFor (m : CelClaimMapper cel) (expression : String) :
    Except ClaimMapperError cel.Program × CelClaimMapper cel :=
  match m.programs.get expression with
  | some program => (.ok program, m)
  | none =>
    match hcompiled : cel.compile expression with
    | .error e => (.error e, m)
    | .ok program => (.ok program, m.cache expression program hcompiled)

def validate (m : CelClaimMapper cel) (expression : String) :
    Except ClaimMapperError Unit × CelClaimMapper cel :=
  let (program, m') := m.programFor expression
  (program.map fun _ => (), m')

/-- The body of the loop: what a mapping binds, `none` when it is skipped. -/
def mapClaim (m : CelClaimMapper cel) (context : cel.Context) (mapping : ClaimMapping) :
    Except ClaimMapperError (Option Value) × CelClaimMapper cel :=
  let (program, m') := m.programFor mapping.from
  (match program with
    | .error e => if mapping.optional then .ok none else .error e
    | .ok program =>
      match cel.execute program context with
      | .error e =>
        if mapping.optional then .ok none else .error (.evaluate mapping.from mapping.to e)
      | .ok value =>
        if mapping.optional && cel.isNull value then .ok none
        else
          -- a value that is no JSON is an error whether the mapping is optional or not
          match cel.json value with
          | .error e => .error (.convert mapping.from mapping.to e)
          | .ok json => .ok (some json), m')

def mapFrom (context : cel.Context) : List ClaimMapping → HashMap String Value →
    CelClaimMapper cel → Except ClaimMapperError (HashMap String Value) × CelClaimMapper cel
  | [], claims, m => (.ok claims, m)
  | mapping :: mappings, claims, m =>
    match m.mapClaim context mapping with
    | (.error e, m') => (.error e, m')
    | (.ok none, m') => mapFrom context mappings claims m'
    | (.ok (some json), m') => mapFrom context mappings (claims.insert mapping.to json) m'

def mapClaims (m : CelClaimMapper cel) (h : SigletDataFlowHandler) (mappings : List ClaimMapping)
    (flow : DataFlow) (details : FlowDetails) :
    Except ClaimMapperError (HashMap String Value) × CelClaimMapper cel :=
  match mappings with
  | [] => (.ok HashMap.empty, m)
  | mappings =>
    match cel.flowContext h flow details with
    | .error e => (.error e, m)
    | .ok context => mapFrom context mappings HashMap.empty m

/-! ## The cache does not show -/

theorem programFor_fst (m : CelClaimMapper cel) (expression : String) :
    (m.programFor expression).1 = cel.compile expression := by
  unfold programFor
  cases hget : m.programs.get expression with
  | some program => exact (m.compiled expression program hget).symm
  | none =>
    dsimp only
    split
    · rename_i e hcompiled
      exact hcompiled.symm
    · rename_i program hcompiled
      exact hcompiled.symm

theorem compile_of_validate {m : CelClaimMapper cel} {expression : String}
    (hvalid : (m.validate expression).1 = .ok ()) (later : CelClaimMapper cel) :
    ∃ program, (later.programFor expression).1 = .ok program := by
  rw [programFor_fst]
  have hprogram : (m.programFor expression).1.map (fun _ => ()) = .ok () := hvalid
  rw [programFor_fst] at hprogram
  cases hcompile : cel.compile expression with
  | error e => simp [hcompile, Except.map] at hprogram
  | ok program => exact ⟨program, rfl⟩

end CelClaimMapper

/-! ## The contract -/

namespace Cel
variable (cel : Cel) (context : cel.Context)

/-- What the expression of a mapping comes to: its value as JSON, `none` for null. -/
def outcome (mapping : ClaimMapping) : Except ClaimMapperError (Option Value) := do
  let program ← cel.compile mapping.from
  let value ← (cel.execute program context).mapError fun e => .evaluate mapping.from mapping.to e
  if cel.isNull value then .ok none
  else ((cel.json value).mapError fun e => .convert mapping.from mapping.to e).map some

def contractStep (claims : HashMap String Value) (mapping : ClaimMapping) :
    Except ClaimMapperError (HashMap String Value) :=
  match cel.outcome context mapping with
  | .error e => if mapping.optional then .ok claims else .error e
  | .ok none => if mapping.optional then .ok claims else .ok (claims.insert mapping.to .null)
  | .ok (some json) => .ok (claims.insert mapping.to json)

/-- The mappings from left to right: an optional one is skipped when it fails or is null, the first
required one that fails ends the fold, and a later binding replaces an earlier one. -/
def contractFrom (claims : HashMap String Value) (mappings : List ClaimMapping) :
    Except ClaimMapperError (HashMap String Value) :=
  mappings.foldlM (cel.contractStep context) claims

def contract (mappings : List ClaimMapping) : Except ClaimMapperError (HashMap String Value) :=
  cel.contractFrom context HashMap.empty mappings

/-- The expression has a value, but not one that can be written as JSON. -/
def Unconvertible (mapping : ClaimMapping) : Prop :=
  ∃ program value e, cel.compileText mapping.from = .ok program ∧
    cel.execute program context = .ok value ∧
    cel.isNull value = false ∧ cel.json value = .error e

/-- The first required mapping whose expression fails. -/
def firstFailure (mappings : List ClaimMapping) : Option ClaimMapping :=
  mappings.find? fun mapping => !mapping.optional && !(cel.outcome context mapping).isOk

/-- No optional mapping whose value is no JSON is reached, unless the required mapping that fails
first after it has the same expression and the same target. -/
def Convertible : List ClaimMapping → Prop
  | [] => True
  | mapping :: mappings =>
    (mapping.optional = true ∧ cel.Unconvertible context mapping → ∃ culprit,
      cel.firstFailure context mappings = some culprit ∧ culprit.from = mapping.from ∧
        culprit.to = mapping.to) ∧
    (¬(mapping.optional = true ∧ cel.Unconvertible context mapping) →
      cel.firstFailure context [mapping] = none → Convertible mappings)

/-- A null of the language is the null of JSON. -/
def NullIsJson : Prop := ∀ value, cel.isNull value = true → cel.json value = .ok .null

variable {cel context}

theorem contractFrom_cons (claims : HashMap String Value) (mapping : ClaimMapping)
    (mappings : List ClaimMapping) : cel.contractFrom context claims (mapping :: mappings) =
      (cel.contractStep context claims mapping >>= fun claims =>
        cel.contractFrom context claims mappings) :=
  List.foldlM_cons ..

theorem outcome_eq_error_of_unconvertible {mapping : ClaimMapping}
    (hun : cel.Unconvertible context mapping) :
    ∃ e, cel.outcome context mapping = .error (.convert mapping.from mapping.to e) := by
  obtain ⟨program, value, e, hcompile, hexecute, hnull, hjson⟩ := hun
  refine ⟨e, ?_⟩
  unfold outcome compile
  simp [hcompile, hexecute, hnull, hjson, Except.mapError, Except.map, bind, Except.bind]

theorem outcome_eq_convert {mapping : ClaimMapping} {expression claim e : String}
    (houtcome : cel.outcome context mapping = .error (.convert expression claim e)) :
    mapping.from = expression ∧ mapping.to = claim := by
  unfold outcome compile at houtcome
  cases hcompile : cel.compileText mapping.from with
  | error e => simp [hcompile, Except.mapError, bind, Except.bind] at houtcome
  | ok program =>
    cases hexecute : cel.execute program context with
    | error e => simp [hcompile, hexecute, Except.mapError, bind, Except.bind] at houtcome
    | ok value =>
      cases hnull : cel.isNull value with
      | true => simp [hcompile, hexecute, hnull, Except.mapError, bind, Except.bind] at houtcome
      | false =>
        cases hjson : cel.json value with
        | error e =>
          simp [hcompile, hexecute, hnull, hjson, Except.mapError, Except.map, bind,
            Except.bind] at houtcome
          exact ⟨houtcome.1, houtcome.2.1⟩
        | ok json =>
          simp [hcompile, hexecute, hnull, hjson, Except.mapError, Except.map, bind,
            Except.bind] at houtcome

theorem outcome_congr {mapping other : ClaimMapping} (hfrom : mapping.from = other.from)
    (hto : mapping.to = other.to) : cel.outcome context mapping = cel.outcome context other := by
  unfold outcome
  rw [hfrom, hto]

theorem firstFailure_cons_of_error {mapping : ClaimMapping} {e : ClaimMapperError}
    (mappings : List ClaimMapping) (hrequired : mapping.optional = false)
    (houtcome : cel.outcome context mapping = .error e) :
    cel.firstFailure context (mapping :: mappings) = some mapping :=
  List.find?_cons_of_pos (by simp [hrequired, houtcome, Except.isOk, Except.toBool])

theorem firstFailure_cons_of_optional {mapping : ClaimMapping} (mappings : List ClaimMapping)
    (hoptional : mapping.optional = true) :
    cel.firstFailure context (mapping :: mappings) = cel.firstFailure context mappings :=
  List.find?_cons_of_neg (by simp [hoptional])

theorem firstFailure_cons_of_ok {mapping : ClaimMapping} {bound : Option Value}
    (mappings : List ClaimMapping) (houtcome : cel.outcome context mapping = .ok bound) :
    cel.firstFailure context (mapping :: mappings) = cel.firstFailure context mappings :=
  List.find?_cons_of_neg (by simp [houtcome, Except.isOk, Except.toBool])

theorem contractFrom_eq_error {e : ClaimMapperError} (mappings : List ClaimMapping)
    (claims : HashMap String Value) : cel.contractFrom context claims mappings = .error e ↔
      ∃ culprit, cel.firstFailure context mappings = some culprit ∧
        cel.outcome context culprit = .error e := by
  induction mappings generalizing claims with
  | nil => simp [contractFrom, firstFailure, pure, Except.pure]
  | cons mapping mappings ih =>
    rw [contractFrom_cons, contractStep]
    cases hoptional : mapping.optional with
    | true =>
      rw [firstFailure_cons_of_optional mappings hoptional]
      rcases cel.outcome context mapping with e' | _ | json <;> exact ih _
    | false =>
      cases houtcome : cel.outcome context mapping with
      | error e' =>
        rw [firstFailure_cons_of_error mappings hoptional houtcome]
        simp [houtcome, bind, Except.bind]
      | ok bound =>
        rw [firstFailure_cons_of_ok mappings houtcome]
        cases bound <;> exact ih _

end Cel

namespace CelClaimMapper
variable {cel : Cel} {context : cel.Context}

/-- A mapping is bound under its target. -/
def bindClaim (claims : HashMap String Value) (mapping : ClaimMapping) :
    Option Value → HashMap String Value
  | none => claims
  | some json => claims.insert mapping.to json

theorem mapFrom_cons (m : CelClaimMapper cel) (mapping : ClaimMapping)
    (mappings : List ClaimMapping) (claims : HashMap String Value) :
    mapFrom context (mapping :: mappings) claims m =
      match m.mapClaim context mapping with
      | (.error e, m') => (.error e, m')
      | (.ok bound, m') => mapFrom context mappings (bindClaim claims mapping bound) m' := by
  rw [mapFrom]
  rcases m.mapClaim context mapping with ⟨_ | _ | json, m'⟩ <;> rfl

theorem mapClaim_of_unconvertible (m : CelClaimMapper cel) {mapping : ClaimMapping}
    (hun : cel.Unconvertible context mapping) :
    ∃ e, (m.mapClaim context mapping).1 = .error (.convert mapping.from mapping.to e) ∧
      cel.outcome context mapping = .error (.convert mapping.from mapping.to e) := by
  obtain ⟨e, houtcome⟩ := Cel.outcome_eq_error_of_unconvertible hun
  refine ⟨e, ?_, houtcome⟩
  obtain ⟨program, value, e', hcompile, hexecute, hnull, hjson⟩ := hun
  have hprogram : (m.programFor mapping.from).1 = .ok program := by
    rw [programFor_fst, Cel.compile, hcompile]
    rfl
  have hmap : (m.mapClaim context mapping).1 = .error (.convert mapping.from mapping.to e') := by
    simp [mapClaim, hprogram, hexecute, hnull, hjson]
  rw [hmap]
  simpa [Cel.outcome, Cel.compile, hcompile, hexecute, hnull, hjson, Except.mapError,
    Except.map, bind, Except.bind]
    using houtcome

theorem mapClaim_of_convertible (hnull : cel.NullIsJson) (m : CelClaimMapper cel)
    (claims : HashMap String Value) {mapping : ClaimMapping}
    (hconvertible : ¬(mapping.optional = true ∧ cel.Unconvertible context mapping)) :
    (m.mapClaim context mapping).1.map (bindClaim claims mapping) =
      cel.contractStep context claims mapping := by
  unfold mapClaim Cel.contractStep Cel.outcome
  simp only [programFor_fst, Cel.compile]
  cases hcompile : cel.compileText mapping.from with
  | error e =>
    cases mapping.optional <;> simp [Except.mapError, Except.map, bind, Except.bind, bindClaim]
  | ok program =>
    cases hexecute : cel.execute program context with
    | error e =>
      cases mapping.optional <;> simp [hexecute, Except.mapError, Except.map, bind,
        Except.bind, bindClaim]
    | ok value =>
      cases hvalue : cel.isNull value with
      | true =>
        have hjson := hnull value hvalue
        cases mapping.optional <;>
          simp [hexecute, hvalue, hjson, Except.mapError, Except.map, bind, Except.bind, bindClaim]
      | false =>
        cases hjson : cel.json value with
        | ok json =>
          simp [hexecute, hvalue, hjson, Except.mapError, Except.map, bind, Except.bind, bindClaim]
        | error e =>
          have hrequired : mapping.optional = false := by
            by_contra hoptional
            exact hconvertible
              ⟨by simpa using hoptional, program, value, e, hcompile, hexecute, hvalue, hjson⟩
          simp [hexecute, hvalue, hjson, hrequired, Except.mapError, Except.map, bind, Except.bind]

theorem mapFrom_eq_contractFrom_iff (hnull : cel.NullIsJson) (context : cel.Context)
    (mappings : List ClaimMapping) (claims : HashMap String Value) (m : CelClaimMapper cel) :
    (mapFrom context mappings claims m).1 = cel.contractFrom context claims mappings ↔
      cel.Convertible context mappings := by
  induction mappings generalizing claims m with
  | nil => simp [mapFrom, Cel.contractFrom, Cel.Convertible, pure, Except.pure]
  | cons mapping mappings ih =>
    rw [mapFrom_cons, Cel.contractFrom_cons, Cel.Convertible]
    by_cases hun : mapping.optional = true ∧ cel.Unconvertible context mapping
    · obtain ⟨e, hmap, houtcome⟩ := mapClaim_of_unconvertible m hun.2
      have hstep : cel.contractStep context claims mapping = .ok claims := by
        simp [Cel.contractStep, houtcome, hun.1]
      have hloop : m.mapClaim context mapping =
          (.error (.convert mapping.from mapping.to e), (m.mapClaim context mapping).2) :=
            Prod.ext hmap rfl
      rw [hloop, hstep]
      simp only [hun, and_self, true_implies, not_true_eq_false, false_implies,
        and_true, bind, Except.bind]
      rw [eq_comm, Cel.contractFrom_eq_error]
      refine exists_congr fun culprit => and_congr_right fun _ => ?_
      constructor
      · exact Cel.outcome_eq_convert
      · intro hsame
        rw [Cel.outcome_congr hsame.1 hsame.2, houtcome]
    · have hstep := mapClaim_of_convertible hnull m claims hun
      rw [← hstep]
      simp only [hun, false_implies, not_false_eq_true, true_implies, true_and]
      cases hmap : m.mapClaim context mapping with
      | mk bound m' =>
        rw [hmap] at hstep
        cases bound with
        | error e =>
          have herror : cel.contractFrom context claims [mapping] = .error e := by
            rw [Cel.contractFrom_cons, ← hstep]
            rfl
          have hfails : cel.firstFailure context [mapping] ≠ none := by
            obtain ⟨culprit, hfirst, -⟩ := (Cel.contractFrom_eq_error [mapping] claims).mp herror
            simp [hfirst]
          simp [hfails, Except.map, bind, Except.bind]
        | ok bound =>
          have hpasses : cel.firstFailure context [mapping] = none := by
            unfold Cel.contractStep at hstep
            cases houtcome : cel.outcome context mapping with
            | ok value => exact Cel.firstFailure_cons_of_ok [] houtcome
            | error e =>
              cases hoptional : mapping.optional with
              | true => exact Cel.firstFailure_cons_of_optional [] hoptional
              | false => simp [houtcome, hoptional, Except.map] at hstep
          simpa [hpasses, Except.map, bind, Except.bind] using
            ih (bindClaim claims mapping bound) m'

theorem convertible_of_mapFrom_ok (context : cel.Context) (mappings : List ClaimMapping)
    (claims : HashMap String Value) (m : CelClaimMapper cel) {result : HashMap String Value}
    (hok : (mapFrom context mappings claims m).1 = .ok result) :
    ∀ mapping ∈ mappings, ¬ cel.Unconvertible context mapping := by
  induction mappings generalizing claims m with
  | nil => simp
  | cons mapping mappings ih =>
    rw [mapFrom_cons] at hok
    cases hmap : m.mapClaim context mapping with
    | mk bound m' =>
      rw [hmap] at hok
      cases bound with
      | error e => exact absurd hok (by simp)
      | ok bound =>
        intro other hother
        rcases List.mem_cons.mp hother with rfl | hother
        · intro hun
          obtain ⟨e, herror, -⟩ := mapClaim_of_unconvertible m hun
          rw [hmap] at herror
          exact absurd herror (by simp)
        · exact ih _ m' hok other hother

theorem mapClaims_eq_mapFrom (m : CelClaimMapper cel) {h : SigletDataFlowHandler}
    (mappings : List ClaimMapping) {flow : DataFlow} {details : FlowDetails}
    (hcontext : cel.flowContext h flow details = .ok context) :
    (m.mapClaims h mappings flow details).1 = (mapFrom context mappings HashMap.empty m).1 := by
  cases mappings with
  | nil => rfl
  | cons mapping mappings => simp only [mapClaims, hcontext]

end CelClaimMapper

theorem Cel.convertible_of_forall {cel : Cel} {context : cel.Context} (mappings : List ClaimMapping)
    (hall : ∀ mapping ∈ mappings, ¬ cel.Unconvertible context mapping) :
    cel.Convertible context mappings := by
  induction mappings with
  | nil => trivial
  | cons mapping mappings ih =>
    refine ⟨fun hun => absurd hun.2 (hall mapping List.mem_cons_self), fun _ _ =>
      ih fun other hother => ?_⟩
    exact hall other (List.mem_cons_of_mem _ hother)

/-- The claims of a flow are those of the contract exactly when the mappings are convertible. A list
of optional mappings fails exactly when some value of it is no JSON. -/
theorem map_claims_contract_iff {cel : Cel} (hnull : cel.NullIsJson) (m : CelClaimMapper cel)
    (h : SigletDataFlowHandler) (mappings : List ClaimMapping) (flow : DataFlow)
    (details : FlowDetails) {context : cel.Context}
    (hcontext : cel.flowContext h flow details = .ok context) :
    ((m.mapClaims h mappings flow details).1 = cel.contract context mappings ↔
      cel.Convertible context mappings) ∧
    ((∀ mapping ∈ mappings, mapping.optional = true) →
      ((∃ claims, (m.mapClaims h mappings flow details).1 = .ok claims) ↔
        ∀ mapping ∈ mappings, ¬ cel.Unconvertible context mapping)) := by
  rw [m.mapClaims_eq_mapFrom mappings hcontext]
  have hagree := CelClaimMapper.mapFrom_eq_contractFrom_iff hnull context mappings HashMap.empty m
  refine ⟨hagree, ?_⟩
  intro hoptional
  constructor
  · intro hok
    obtain ⟨claims, hclaims⟩ := hok
    exact CelClaimMapper.convertible_of_mapFrom_ok context mappings HashMap.empty m hclaims
  · intro hall
    rw [hagree.mpr (Cel.convertible_of_forall mappings hall)]
    cases hcontract : cel.contractFrom context HashMap.empty mappings with
    | ok claims => exact ⟨claims, rfl⟩
    | error e =>
      obtain ⟨culprit, hfirst, -⟩ := (Cel.contractFrom_eq_error mappings HashMap.empty).mp hcontract
      have hrequired := List.find?_some hfirst
      simp [hoptional culprit (List.mem_of_find?_eq_some hfirst)] at hrequired

/-- An engine that knows `null` and durations too long for a JSON number. -/
def durationCel : Cel where
  Program := String
  Context := Unit
  Result := String
  compileText := fun expression => .ok expression
  bindFlow := fun _ => .ok ()
  execute := fun program _ => .ok program
  isNull := fun result => result == "null"
  json := fun result => if result == "null" then .ok .null else .error "duration overflow"

def demoDetails : FlowDetails where
  state := .ok (.string "STARTED")
  kind := .ok (.string "PROVIDER")
  dataAddress := fun _ => .ok .null

theorem durationCel_nullIsJson : durationCel.NullIsJson := by
  intro value hvalue
  exact if_pos hvalue

/-- Nulls alone: the optional one is skipped. -/
theorem null_claims_contract :
    ((CelClaimMapper.new : CelClaimMapper durationCel).mapClaims demoHandler
      [⟨"null", "tier", true⟩, ⟨"null", "region", false⟩] demoFlow demoDetails).1 =
        .ok (HashMap.empty.insert "region" .null) :=
  (map_claims_contract_iff durationCel_nullIsJson CelClaimMapper.new demoHandler
    [⟨"null", "tier", true⟩, ⟨"null", "region", false⟩] demoFlow demoDetails
    (show durationCel.flowContext demoHandler demoFlow demoDetails = .ok () from rfl)).1.mpr
      (Cel.convertible_of_forall _ (by
        intro mapping hmapping hun
        obtain ⟨program, value, e, hcompile, hexecute, hnull, -⟩ := hun
        obtain rfl := Except.ok.inj hcompile
        obtain rfl := Except.ok.inj hexecute
        simp only [List.mem_cons, List.not_mem_nil, or_false] at hmapping
        rcases hmapping with rfl | rfl <;> exact absurd hnull (by decide)))

def lifetimeMapping : ClaimMapping :=
  ⟨"duration('2562047h') + duration('2562047h')", "lifetime", true⟩

/-- An optional duration that does not fit a JSON number fails the flow. -/
theorem optional_duration_fails :
    ¬ ∀ (cel : Cel), cel.NullIsJson → ∀ (m : CelClaimMapper cel) (h : SigletDataFlowHandler)
      (mappings : List ClaimMapping) (flow : DataFlow) (details : FlowDetails)
      (context : cel.Context), cel.flowContext h flow details = .ok context →
        (m.mapClaims h mappings flow details).1 = cel.contract context mappings ∧
          ((∀ mapping ∈ mappings, mapping.optional = true) →
            ∃ claims, (m.mapClaims h mappings flow details).1 = .ok claims) := by
  intro hall
  obtain ⟨claims, hclaims⟩ :=
    (hall durationCel durationCel_nullIsJson CelClaimMapper.new demoHandler [lifetimeMapping]
      demoFlow demoDetails () rfl).2 (by simp [lifetimeMapping])
  have hnone := CelClaimMapper.convertible_of_mapFrom_ok () [lifetimeMapping] HashMap.empty
    (CelClaimMapper.new : CelClaimMapper durationCel) hclaims
  have hjson : durationCel.json lifetimeMapping.from = .error "duration overflow" := by
    simp [durationCel, lifetimeMapping]
  exact hnone lifetimeMapping List.mem_cons_self
    ⟨lifetimeMapping.from, lifetimeMapping.from, "duration overflow", rfl, rfl, by decide, hjson⟩

end Facet.Siglet
