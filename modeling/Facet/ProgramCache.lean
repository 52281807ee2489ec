import Facet.ClaimMapper
import Facet.MemoTable

/-!
# The program cache under interleaved calls

`validate` and `map_claims` of one mapper as calls that share its cache of compiled programs:
`program_for` reads the cache, compiles without the lock, and inserts under the lock while there
is room. A poisoned lock is an access that finds the cache unavailable.
-/
namespace Facet.Siglet

inductive MapperRequest
  | validate (expression : String)
  | mapClaims (mappings : List ClaimMapping) (flow : DataFlow) (details : FlowDetails)

inductive MapperResponse
  | validated (result : Except ClaimMapperError Unit)
  | mapped (result : Except ClaimMapperError (HashMap String Value))

namespace Cel
variable (cel : Cel)

/-- What a mapping binds once its program is there, `none` when it is skipped. -/
def bindMapping (context : cel.Context) (mapping : ClaimMapping) :
    Except ClaimMapperError cel.Program → Except ClaimMapperError (Option Value)
  | .error e => if mapping.optional then .ok none else .error e
  | .ok program =>
    match cel.execute program context with
    | .error e =>
      if mapping.optional then .ok none else .error (.evaluate mapping.from mapping.to e)
    | .ok value =>
      if mapping.optional && cel.isNull value then .ok none
      else
        match cel.json value with
        | .error e => .error (.convert mapping.from mapping.to e)
        | .ok json => .ok (some json)

/-- The loop as a call that asks for one program after the other. -/
def mapScript (context : cel.Context) :
    List ClaimMapping → HashMap String Value →
      Script String ClaimMapperError cel.Program MapperResponse
  | [], claims => .done (.mapped (.ok claims))
  | mapping :: mappings, claims => .ask mapping.from fun program =>
    match cel.bindMapping context mapping program with
    | .error e => .done (.mapped (.error e))
    | .ok none => mapScript context mappings claims
    | .ok (some json) => mapScript context mappings (claims.insert mapping.to json)

def script (h : SigletDataFlowHandler) :
    MapperRequest → Script String ClaimMapperError cel.Program MapperResponse
  | .validate expression => .ask expression fun program =>
      .done (.validated (program.map fun _ => ()))
  | .mapClaims mappings flow details =>
    match mappings with
    | [] => .done (.mapped (.ok HashMap.empty))
    | mappings =>
      match cel.flowContext h flow details with
      | .error e => .done (.mapped (.error e))
      | .ok context => cel.mapScript context mappings HashMap.empty

/-- The cache of a mapper, its calls in progress and the results of the others. -/
abbrev MapperState : Type :=
  MemoTable.State MapperRequest String ClaimMapperError cel.Program MapperResponse

/-- Calls of one mapper, from an empty cache. -/
def mapperMachine (h : SigletDataFlowHandler) :
    Machine cel.MapperState (MemoTable.Label MapperRequest) :=
  MemoTable.machine programCacheCapacity cel.compile (cel.script h)

/-! ## Without a cache -/

/-- The loop with a compilation for each mapping. -/
def mapUncached (context : cel.Context) :
    List ClaimMapping → HashMap String Value → Except ClaimMapperError (HashMap String Value)
  | [], claims => .ok claims
  | mapping :: mappings, claims =>
    match cel.bindMapping context mapping (cel.compile mapping.from) with
    | .error e => .error e
    | .ok none => mapUncached context mappings claims
    | .ok (some json) => mapUncached context mappings (claims.insert mapping.to json)

/-- `validate` and `map_claims` with compilation on each use. -/
def uncached (h : SigletDataFlowHandler) : MapperRequest → MapperResponse
  | .validate expression => .validated ((cel.compile expression).map fun _ => ())
  | .mapClaims mappings flow details =>
    .mapped <| match mappings with
      | [] => .ok HashMap.empty
      | mappings =>
        match cel.flowContext h flow details with
        | .error e => .error e
        | .ok context => cel.mapUncached context mappings HashMap.empty

variable {cel}

theorem eval_mapScript (context : cel.Context) (mappings : List ClaimMapping)
    (claims : HashMap String Value) : (cel.mapScript context mappings claims).eval cel.compile =
      .mapped (cel.mapUncached context mappings claims) := by
  induction mappings generalizing claims with
  | nil => rfl
  | cons mapping mappings ih =>
    simp only [mapScript, mapUncached, Script.eval]
    cases hbind : cel.bindMapping context mapping (cel.compile mapping.from) with
    | error e => rfl
    | ok bound =>
      cases bound with
      | none => exact ih claims
      | some json => exact ih (claims.insert mapping.to json)

theorem eval_script (h : SigletDataFlowHandler) (request : MapperRequest) :
    (cel.script h request).eval cel.compile = cel.uncached h request := by
  cases request with
  | validate expression => rfl
  | mapClaims mappings flow details =>
    cases mappings with
    | nil => rfl
    | cons mapping mappings =>
      simp only [script, uncached]
      cases hcontext : cel.flowContext h flow details with
      | error e => rfl
      | ok context => exact eval_mapScript context (mapping :: mappings) HashMap.empty

end Cel

/-! ## Without other calls -/

namespace CelClaimMapper
variable {cel : Cel}

theorem run_ask (m : CelClaimMapper cel) (expression : String)
    (resume : Except ClaimMapperError cel.Program →
      Script String ClaimMapperError cel.Program MapperResponse) :
    MemoTable.run programCacheCapacity cel.compile (.ask expression resume) m.programs =
      MemoTable.run programCacheCapacity cel.compile (resume (m.programFor expression).1)
        (m.programFor expression).2.programs := by
  unfold programFor
  rw [MemoTable.run]
  cases hget : m.programs.get expression with
  | some program => rfl
  | none =>
    dsimp only
    split
    · rename_i e hcompile
      split
      · rename_i e' hcompile'
        rw [Except.error.inj (hcompile.symm.trans hcompile')]
      · rename_i program hcompile'
        exact absurd (hcompile.symm.trans hcompile') (by simp)
    · rename_i program hcompile
      split
      · rename_i e hcompile'
        exact absurd (hcompile.symm.trans hcompile') (by simp)
      · rename_i program' hcompile'
        obtain rfl := Except.ok.inj (hcompile.symm.trans hcompile')
        rfl

theorem mapClaim_eq_bindMapping (m : CelClaimMapper cel) (context : cel.Context)
    (mapping : ClaimMapping) : m.mapClaim context mapping =
      (cel.bindMapping context mapping (m.programFor mapping.from).1,
        (m.programFor mapping.from).2) := rfl

theorem run_mapScript (context : cel.Context) (mappings : List ClaimMapping)
    (claims : HashMap String Value) (m : CelClaimMapper cel) :
    MemoTable.run programCacheCapacity cel.compile
      (cel.mapScript context mappings claims) m.programs =
        (.mapped (mapFrom context mappings claims m).1,
          (mapFrom context mappings claims m).2.programs) := by
  induction mappings generalizing claims m with
  | nil => rfl
  | cons mapping mappings ih =>
    rw [Cel.mapScript, run_ask]
    simp only [mapFrom, mapClaim_eq_bindMapping]
    cases hbind : cel.bindMapping context mapping (m.programFor mapping.from).1 with
    | error e => rfl
    | ok bound =>
      cases bound with
      | none => exact ih claims _
      | some json => exact ih (claims.insert mapping.to json) _

theorem run_validate (m : CelClaimMapper cel) (h : SigletDataFlowHandler) (expression : String) :
    MemoTable.run programCacheCapacity cel.compile
      (cel.script h (.validate expression)) m.programs =
      (.validated (m.validate expression).1, (m.validate expression).2.programs) := by
  rw [Cel.script, run_ask]
  rfl

theorem run_mapClaims (m : CelClaimMapper cel) (h : SigletDataFlowHandler)
    (mappings : List ClaimMapping) (flow : DataFlow) (details : FlowDetails) :
    MemoTable.run programCacheCapacity cel.compile
      (cel.script h (.mapClaims mappings flow details)) m.programs =
        (.mapped (m.mapClaims h mappings flow details).1,
          (m.mapClaims h mappings flow details).2.programs) := by
  cases mappings with
  | nil => rfl
  | cons mapping mappings =>
    simp only [Cel.script, mapClaims]
    cases hcontext : cel.flowContext h flow details with
    | error e => rfl
    | ok context => exact run_mapScript context (mapping :: mappings) HashMap.empty m

theorem alone (m : CelClaimMapper cel) (h : SigletDataFlowHandler) {s : cel.MapperState}
    (htable : s.table = m.programs) {call : ℕ} (hfree : s.calls.get call = none) :
    (∀ expression, MemoTable.Returns programCacheCapacity cel.compile (cel.script h) call
      (.validate expression)
      s.results (.validated (m.validate expression).1, (m.validate expression).2.programs) s) ∧
    ∀ mappings flow details, MemoTable.Returns programCacheCapacity cel.compile (cel.script h) call
      (.mapClaims mappings flow details) s.results
      (.mapped (m.mapClaims h mappings flow details).1,
        (m.mapClaims h mappings flow details).2.programs) s := by
  constructor
  · intro expression
    rw [← run_validate m h, ← htable]
    exact MemoTable.returns_of_start hfree _
  · intro mappings flow details
    rw [← run_mapClaims, ← htable]
    exact MemoTable.returns_of_start hfree _

end CelClaimMapper

/-! ## With any other calls -/

/-- The response reports that the expression does not compile. -/
def MapperResponse.FailsToCompile (expression : String) : MapperResponse → Prop
  | .validated result => ∃ message, result = .error (.compile expression message)
  | .mapped result => ∃ message, result = .error (.compile expression message)

namespace Cel
variable {cel : Cel}

theorem compile_of_error {source expression message : String}
    (herror : cel.compile source = .error (.compile expression message)) :
    ∃ e, cel.compile expression = .error e := by
  have hsource := herror
  unfold compile at herror
  cases htext : cel.compileText source with
  | ok program => simp [htext, Except.mapError] at herror
  | error e =>
    simp only [htext, Except.mapError, Except.error.injEq, ClaimMapperError.compile.injEq] at herror
    exact ⟨_, herror.1 ▸ hsource⟩

theorem compile_of_bindMapping {context : cel.Context} {mapping : ClaimMapping}
    {expression message : String}
    (herror : cel.bindMapping context mapping (cel.compile mapping.from) =
      .error (.compile expression message)) :
    ∃ e, cel.compile expression = .error e := by
  cases hcompile : cel.compile mapping.from with
  | error e =>
    cases hoptional : mapping.optional with
    | true => simp [hcompile, bindMapping, hoptional] at herror
    | false =>
      simp only [hcompile, bindMapping, hoptional, Bool.false_eq_true, if_false,
        Except.error.injEq] at herror
      exact compile_of_error (herror ▸ hcompile)
  | ok program =>
    rw [hcompile] at herror
    unfold bindMapping at herror
    cases hexecute : cel.execute program context with
    | error e => cases hoptional : mapping.optional <;> simp [hexecute, hoptional] at herror
    | ok value =>
      cases hnull : (mapping.optional && cel.isNull value) with
      | true => simp [hexecute, hnull] at herror
      | false => cases hjson : cel.json value <;> simp [hexecute, hnull, hjson] at herror

theorem compile_of_mapUncached {context : cel.Context} {mappings : List ClaimMapping}
    {claims : HashMap String Value} {expression message : String}
    (herror : cel.mapUncached context mappings claims = .error (.compile expression message)) :
    ∃ e, cel.compile expression = .error e := by
  induction mappings generalizing claims with
  | nil => simp [mapUncached] at herror
  | cons mapping mappings ih =>
    simp only [mapUncached] at herror
    cases hbind : cel.bindMapping context mapping (cel.compile mapping.from) with
    | error e =>
      simp only [hbind, Except.error.injEq] at herror
      exact compile_of_bindMapping (herror ▸ hbind)
    | ok bound =>
      cases bound with
      | none => exact ih (by simpa [hbind] using herror)
      | some json => exact ih (by simpa [hbind] using herror)

theorem flowToValue_ne_compile {h : SigletDataFlowHandler} {flow : DataFlow} {details : FlowDetails}
    {expression message : String} :
    h.flowToValue flow details ≠ .error (.compile expression message) := by
  unfold SigletDataFlowHandler.flowToValue projectField
  cases details.state with
  | error e => simp [Except.mapError, bind, Except.bind]
  | ok state =>
    cases details.kind with
    | error e => simp [Except.mapError, bind, Except.bind]
    | ok kind =>
      cases flow.dataAddress with
      | none => simp [Except.mapError, bind, Except.bind, pure, Except.pure]
      | some address =>
        cases haddress : details.dataAddress address <;>
          simp [haddress, Except.mapError, bind, Except.bind, pure, Except.pure]

theorem flowContext_ne_compile {h : SigletDataFlowHandler} {flow : DataFlow} {details : FlowDetails}
    {expression message : String} :
    cel.flowContext h flow details ≠ .error (.compile expression message) := by
  unfold flowContext
  cases hvalue : h.flowToValue flow details with
  | error e =>
    intro herror
    have he : e = .compile expression message := by simpa [bind, Except.bind] using herror
    exact flowToValue_ne_compile (hvalue.trans (congrArg Except.error he))
  | ok projection =>
    cases hbind : cel.bindFlow projection <;> simp [hbind, Except.mapError, bind, Except.bind]

theorem compile_of_failsToCompile {h : SigletDataFlowHandler} {request : MapperRequest}
    {expression : String} (hfails : (cel.uncached h request).FailsToCompile expression) :
    ∃ e, cel.compile expression = .error e := by
  cases request with
  | validate source =>
    obtain ⟨message, herror⟩ := hfails
    cases hcompile : cel.compile source with
    | ok program => simp [hcompile, Except.map] at herror
    | error e =>
      simp only [hcompile, Except.map, Except.error.injEq] at herror
      exact compile_of_error (herror ▸ hcompile)
  | mapClaims mappings flow details =>
    obtain ⟨message, herror⟩ := hfails
    cases mappings with
    | nil => simp at herror
    | cons mapping mappings =>
      cases hcontext : cel.flowContext h flow details with
      | error e =>
        simp only [hcontext, Except.error.injEq] at herror
        exact absurd (herror ▸ hcontext) flowContext_ne_compile
      | ok context =>
        simp only [hcontext] at herror
        exact compile_of_mapUncached herror

end Cel

section Transparency
variable (cel : Cel) (h : SigletDataFlowHandler)

/-- The cache cannot be told from none, holds compiled programs of its keys only, and stays within
its capacity; a call in progress returns by steps of its own. -/
structure CacheTransparent (s : cel.MapperState) : Prop where
  results : ∀ r ∈ s.results, r.result = cel.uncached h r.request
  returns : ∀ call c, s.calls.get call = some c → ∃ labels t,
    (cel.mapperMachine h).Path Machine.Any s labels t ∧ (∀ label ∈ labels, label.call = call) ∧
      t.results = ⟨call, c.request, cel.uncached h c.request⟩ :: s.results
  cached : ∀ expression program, s.table.get expression = some program →
    cel.compile expression = .ok program
  failing : ∀ expression e, cel.compile expression = .error e → s.table.get expression = none
  bounded : s.table.entries.length ≤ 512

variable {cel h}

theorem cacheTransparent_of_reach {s : cel.MapperState}
    (hs : (cel.mapperMachine h).Reach Machine.Any s) : CacheTransparent cel h s := by
  have hcoherent := MemoTable.coherent_of_reach hs
  refine ⟨?_, ?_, hcoherent.table, ?_, hcoherent.bounded⟩
  · intro r hr
    rw [hcoherent.returned r hr, Cel.eval_script]
  · intro call c hcall
    obtain ⟨outcome, labels, t, hpath, hown, hresults, -⟩ := MemoTable.returns_of_call hcall
    refine ⟨labels, t, hpath, hown, ?_⟩
    have hreturned : outcome.1 = (cel.script h c.request).eval cel.compile :=
      (MemoTable.coherent_of_reach (hs.extend hpath)).returned ⟨call, c.request, outcome.1⟩
        (by rw [hresults]; exact List.mem_cons_self)
    rw [hresults, hreturned, Cel.eval_script]
  · intro expression e hcompile
    cases hget : s.table.get expression with
    | none => rfl
    | some program =>
      exact absurd (hcompile.symm.trans (hcoherent.table expression program hget)) (by simp)

/-- In every state that interleaved calls of a mapper reach its cache is transparent, and an
expression that the mapper has accepted compiles in every mapper at any time. -/
theorem program_cache_transparent {s : cel.MapperState}
    (hs : (cel.mapperMachine h).Reach Machine.Any s) : CacheTransparent cel h s ∧
    ∀ call expression, ⟨call, .validate expression, .validated (.ok ())⟩ ∈ s.results →
      (∃ program, cel.compile expression = .ok program) ∧
      ∀ (h' : SigletDataFlowHandler) (t : cel.MapperState),
        (cel.mapperMachine h').Reach Machine.Any t →
        ∀ r ∈ t.results, ¬ r.result.FailsToCompile expression := by
  have htransparent := cacheTransparent_of_reach hs
  refine ⟨htransparent, ?_⟩
  intro call expression hvalid
  have hresult := htransparent.results _ hvalid
  obtain ⟨program, hprogram⟩ : ∃ program, cel.compile expression = .ok program := by
    cases hcompile : cel.compile expression with
    | ok program => exact ⟨program, rfl⟩
    | error e => simp [Cel.uncached, hcompile, Except.map] at hresult
  refine ⟨⟨program, hprogram⟩, ?_⟩
  intro h' t ht r hr hfails
  rw [(cacheTransparent_of_reach ht).results r hr] at hfails
  obtain ⟨e, hcompile⟩ := Cel.compile_of_failsToCompile hfails
  exact absurd (hprogram.symm.trans hcompile) (by simp)

end Transparency

def raceStart : durationCel.MapperState := ⟨HashMap.empty, HashMap.empty, []⟩

/-- Two validations of one expression that miss and compile together, a flow that hits, and a
poisoned lock. -/
def raceLabels : List (MemoTable.Label MapperRequest) :=
  [.start 1 (.validate "null"), .start 2 (.validate "null"), .read 1 true, .read 2 true,
    .compute 2, .compute 1, .store 1 true,
    .start 3 (.mapClaims [⟨"null", "tier", true⟩] demoFlow demoDetails),
    .read 3 true, .store 2 false]

def raceEnd : durationCel.MapperState :=
  (durationCel.mapperMachine demoHandler).final (fun _ _ _ => true) raceStart raceLabels

theorem raceEnd_reach : (durationCel.mapperMachine demoHandler).Reach Machine.Any raceEnd := by
  refine ⟨raceStart, raceLabels, ⟨rfl, rfl, rfl⟩, ?_⟩
  exact Machine.path_final (fun _ _ _ _ => trivial) (by rfl)

theorem raced_expression_accepted :
    CacheTransparent durationCel demoHandler raceEnd ∧
      ∃ program, durationCel.compile "null" = .ok program :=
  have htransparent := program_cache_transparent raceEnd_reach
  ⟨htransparent.1, (htransparent.2 2 "null" (by exact List.mem_cons_self)).1⟩
end Facet.Siglet
