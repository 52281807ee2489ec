import Facet.Assembly
import Facet.Signaling
import Facet.Machine

/-!
# Where transfer types come from

The blocks of the configuration, checked by `validate` and collected into a table when the
siglet is assembled, and the mappings of a participant context, written through the management
API. The handler takes a transfer type from the second where there are any, else from the first.
-/
namespace Facet.Siglet
open Renewable

inductive ManagementApiError
  | transferType (error : TransferTypeMappingError)
  | validation (errors : List String)
  deriving DecidableEq, Repr

def validateTransferTypes (checks : Checks) (mappings : HashMap String TransferType) :
    Except ManagementApiError Unit :=
  let errors := mappings.entries.flatMap fun (key, transferType) =>
    checks.validateClaimMappings transferType.claimMappings
      ("mappings." ++ key ++ ".claimMappings") ++
    transferType.endpointMappings.zipIdx.flatMap fun (endpointMapping, idx) =>
      checks.validateClaimMappings endpointMapping.claimMappings
        (index ("mappings." ++ key ++ ".endpointMappings") idx ++ ".claimMappings")
  match errors with
  | [] => .ok ()
  | errors => .error (.validation errors)

/-- The mappings of each participant context. -/
abbrev MemoryTransferTypeMappingStore := HashMap String (HashMap String TransferType)

namespace MemoryTransferTypeMappingStore
variable (store : MemoryTransferTypeMappingStore)

def create (pc : String) (mappings : HashMap String TransferType) :
    Except TransferTypeMappingError Unit × MemoryTransferTypeMappingStore :=
  if store.containsKey pc then (.error (.alreadyExists pc), store)
  else (.ok (), store.insert pc mappings)

def update (pc : String) (mappings : HashMap String TransferType) :
    Except TransferTypeMappingError Unit × MemoryTransferTypeMappingStore :=
  if store.containsKey pc then (.ok (), store.insert pc mappings)
  else (.error (.notFound pc), store)

def find (pc : String) : Except TransferTypeMappingError (HashMap String TransferType) :=
  okOr (store.get pc) (.notFound pc)

def delete (pc : String) : Except TransferTypeMappingError Unit × MemoryTransferTypeMappingStore :=
  (okOr ((store.get pc).map fun _ => ()) (.notFound pc), store.remove pc)

end MemoryTransferTypeMappingStore

inductive ManagementCall
  | create (pc : String) (mappings : HashMap String TransferType)
  | update (pc : String) (mappings : HashMap String TransferType)
  | delete (pc : String)

/-- The three handlers that write. -/
def ManagementCall.handle (checks : Checks) (store : MemoryTransferTypeMappingStore) :
    ManagementCall → Except ManagementApiError Unit × MemoryTransferTypeMappingStore
  | .create pc mappings =>
    match validateTransferTypes checks mappings with
    | .error e => (.error e, store)
    | .ok () =>
      let (result, store') := store.create pc mappings
      (result.mapError .transferType, store')
  | .update pc mappings =>
    match validateTransferTypes checks mappings with
    | .error e => (.error e, store)
    | .ok () =>
      let (result, store') := store.update pc mappings
      (result.mapError .transferType, store')
  | .delete pc =>
    let (result, store') := store.delete pc
    (result.mapError .transferType, store')

/-- The store of mappings under any sequence of calls. -/
def managementApi (checks : Checks) : Machine MemoryTransferTypeMappingStore ManagementCall where
  init store := store = HashMap.empty
  next store call := some (call.handle checks store).2

/-- The part of `validate` that looks at the transfer types. -/
def transferTypesErrors (checks : Checks) (transferTypes : List TransferType) : List String :=
  transferTypes.zipIdx.flatMap fun (tt, i) =>
    checks.transferTypeErrors (index "transfer_types" i) tt

/-- The table of `create_siglet_handler`. -/
def transferTypeTable (cfg : SigletConfig) : HashMap String TransferType :=
  HashMap.empty.extendBy TransferType.transferType cfg.transferTypes

/-! ## What the two validators accept -/

structure ClaimMapping.Valid (checks : Checks) (mapping : ClaimMapping) : Prop where
  target : isBlank mapping.to = false
  unreserved : mapping.to ∉ reservedClaims
  source : isBlank mapping.from = false
  compiles : checks.validateExpression mapping.from = .ok ()

structure ClaimMappingsValid (checks : Checks) (mappings : List ClaimMapping) : Prop where
  valid : ∀ mapping ∈ mappings, mapping.Valid checks
  distinct : (mappings.map ClaimMapping.to).Nodup

structure EndpointMapping.Complete (mapping : EndpointMapping) : Prop where
  key : mapping.key ≠ ""
  value : mapping.value ≠ ""
  endpoint : mapping.endpoint ≠ ""

namespace TransferType

structure ClaimsValid (checks : Checks) (tt : TransferType) : Prop where
  root : ClaimMappingsValid checks tt.claimMappings
  endpoints : ∀ mapping ∈ tt.endpointMappings, ClaimMappingsValid checks mapping.claimMappings

/-- The names are there, and so is an endpoint for every flow that is matched. -/
structure Complete (tt : TransferType) : Prop where
  transferType : tt.transferType ≠ ""
  endpointType : tt.endpointType ≠ ""
  static : tt.endpointMappings = [] → ∃ endpoint, tt.endpoint = some endpoint ∧ endpoint ≠ ""
  mapped : ∀ mapping ∈ tt.endpointMappings, mapping.Complete

/-- No flow fails for want of an endpoint, and none gets an empty one. -/
def Resolvable (tt : TransferType) : Prop :=
  ∀ (h : SigletDataFlowHandler) (flow : DataFlow),
    h.resolveEndpoint tt flow ≠
      .error (.generic ("No endpoint configured for transfer type '" ++ tt.transferType ++ "'")) ∧
    ∀ mapping, h.resolveEndpoint tt flow ≠ .ok ("", mapping)

end TransferType

section Validators
variable {checks : Checks}

theorem report_eq_nil {failed : Bool} {message : String} :
    report failed message = [] ↔ failed = false := by
  cases failed <;> simp [report]

theorem isEmpty_eq_false {s : String} : s.isEmpty = false ↔ s ≠ "" := by
  rw [Bool.eq_false_iff, ne_eq, String.isEmpty_iff]

theorem claimMappingErrors_eq_nil (path : String) (seen : List String) (mapping : ClaimMapping) :
    (checks.claimMappingErrors path seen mapping).1 = [] ↔ mapping.Valid checks ∧
      mapping.to ∉ seen := by
  have hparts : mapping.Valid checks ∧ mapping.to ∉ seen ↔
      (isBlank mapping.to = false ∧ mapping.to ∉ reservedClaims ∧ mapping.to ∉ seen) ∧
        isBlank mapping.from = false ∧ checks.validateExpression mapping.from = .ok () := by
    constructor
    · intro h
      exact ⟨⟨h.1.target, h.1.unreserved, h.2⟩, h.1.source, h.1.compiles⟩
    · intro h
      exact ⟨⟨h.1.1, h.1.2.1, h.2.1, h.2.2⟩, h.1.2.2⟩
  rw [hparts]
  unfold Checks.claimMappingErrors
  rw [List.append_eq_nil_iff]
  refine and_congr ?_
    (by cases isBlank mapping.from <;> cases checks.validateExpression mapping.from <;> simp)
  cases isBlank mapping.to with
  | true => simp
  | false =>
    by_cases hreserved : mapping.to ∈ reservedClaims
    · simp [hreserved]
    · by_cases hseen : mapping.to ∈ seen <;> simp [hreserved, hseen]

theorem claimMappingErrors_snd {path : String} {seen : List String} {mapping : ClaimMapping}
    (hvalid : mapping.Valid checks) (hseen : mapping.to ∉ seen) :
    (checks.claimMappingErrors path seen mapping).2 = mapping.to :: seen := by
  unfold Checks.claimMappingErrors
  simp [hvalid.target, hvalid.unreserved, hseen]

theorem validateClaimMappingsFrom_eq_nil (path : String) (mappings : List ClaimMapping) (i : ℕ)
    (seen : List String) : checks.validateClaimMappingsFrom path i seen mappings = [] ↔
      ClaimMappingsValid checks mappings ∧ ∀ mapping ∈ mappings, mapping.to ∉ seen := by
  induction mappings generalizing i seen with
  | nil =>
    refine iff_of_true rfl ⟨⟨?_, ?_⟩, ?_⟩
    all_goals simp
  | cons mapping mappings ih =>
    rw [Checks.validateClaimMappingsFrom, List.append_eq_nil_iff, claimMappingErrors_eq_nil]
    constructor
    · intro hnil
      obtain ⟨⟨hvalid, hseen⟩, hrest⟩ := hnil
      rw [claimMappingErrors_snd hvalid hseen, ih] at hrest
      obtain ⟨hrest, hlater⟩ := hrest
      have hne : ∀ other ∈ mappings, other.to ≠ mapping.to := fun other hother heq =>
        hlater other hother (heq ▸ List.mem_cons_self)
      refine ⟨⟨?_, ?_⟩, ?_⟩
      · intro other hother
        rcases List.mem_cons.mp hother with rfl | hother
        · exact hvalid
        · exact hrest.valid other hother
      · rw [List.map_cons, List.nodup_cons]
        refine ⟨?_, hrest.distinct⟩
        intro hmem
        obtain ⟨other, hother, heq⟩ := List.mem_map.mp hmem
        exact hne other hother heq
      · intro other hother
        rcases List.mem_cons.mp hother with rfl | hother
        · exact hseen
        · exact fun hmem => hlater other hother (List.mem_cons_of_mem _ hmem)
    · intro hall
      obtain ⟨hall, hseen⟩ := hall
      have hvalid := hall.valid mapping List.mem_cons_self
      have hunseen := hseen mapping List.mem_cons_self
      have hdistinct := hall.distinct
      rw [List.map_cons, List.nodup_cons] at hdistinct
      rw [claimMappingErrors_snd hvalid hunseen, ih]
      refine ⟨⟨hvalid, hunseen⟩, ⟨?_, hdistinct.2⟩, ?_⟩
      · intro other hother
        exact hall.valid other (List.mem_cons_of_mem _ hother)
      · intro other hother hmem
        rcases List.mem_cons.mp hmem with heq | hmem
        · exact hdistinct.1 (heq ▸ List.mem_map_of_mem hother)
        · exact hseen other (List.mem_cons_of_mem _ hother) hmem

theorem validateClaimMappings_eq_nil (mappings : List ClaimMapping) (path : String) :
    checks.validateClaimMappings mappings path = [] ↔ ClaimMappingsValid checks mappings := by
  rw [Checks.validateClaimMappings, validateClaimMappingsFrom_eq_nil]
  simp

theorem flatMap_zipIdx_eq_nil {α : Type} {f : α × ℕ → List String} {P : α → Prop}
    (hf : ∀ x i, f (x, i) = [] ↔ P x) (xs : List α) : xs.zipIdx.flatMap f = [] ↔ ∀ x ∈ xs, P x := by
  rw [List.flatMap_eq_nil_iff]
  constructor
  · intro hnil x hx
    obtain ⟨i, hi, rfl⟩ := List.getElem_of_mem hx
    exact (hf xs[i] i).mp
      (hnil (xs[i], i) (List.mk_mem_zipIdx_iff_getElem?.mpr (List.getElem?_eq_getElem hi)))
  · intro hall p hp
    exact (hf p.1 p.2).mpr (hall p.1 (List.mem_of_getElem? (List.mem_zipIdx_iff_getElem?.mp hp)))

theorem endpointMappingErrors_eq_nil (path : String) (mapping : EndpointMapping) :
    checks.endpointMappingErrors path mapping = [] ↔
      mapping.Complete ∧ ClaimMappingsValid checks mapping.claimMappings := by
  unfold Checks.endpointMappingErrors
  simp only [List.append_eq_nil_iff, report_eq_nil, isEmpty_eq_false, validateClaimMappings_eq_nil]
  refine and_congr_left fun _ => ?_
  constructor
  · intro h
    exact ⟨h.1.1, h.1.2, h.2⟩
  · intro h
    exact ⟨⟨h.key, h.value⟩, h.endpoint⟩

theorem endpointErrors_eq_nil (path : String) (tt : TransferType) :
    checks.endpointErrors path tt = [] ↔
      (tt.endpointMappings = [] → ∃ endpoint, tt.endpoint = some endpoint ∧ endpoint ≠ "") ∧
      ∀ mapping ∈ tt.endpointMappings, mapping.Complete ∧
      ClaimMappingsValid checks mapping.claimMappings := by
  unfold Checks.endpointErrors
  cases hmappings : tt.endpointMappings with
  | nil =>
    cases tt.endpoint with
    | none => simp
    | some endpoint => simp [report_eq_nil]
  | cons mapping mappings =>
    dsimp only
    rw [flatMap_zipIdx_eq_nil fun x i => endpointMappingErrors_eq_nil _ x]
    simp

theorem transferTypeErrors_eq_nil (path : String) (tt : TransferType) :
    checks.transferTypeErrors path tt = [] ↔ tt.ClaimsValid checks ∧ tt.Complete := by
  unfold Checks.transferTypeErrors
  simp only [List.append_eq_nil_iff, report_eq_nil, isEmpty_eq_false, validateClaimMappings_eq_nil,
    endpointErrors_eq_nil]
  constructor
  · intro h
    obtain ⟨⟨⟨htype, hendpointType⟩, hroot⟩, hstatic, hmapped⟩ := h
    exact ⟨⟨hroot, fun mapping hm => (hmapped mapping hm).2⟩,
      ⟨htype, hendpointType, hstatic, fun mapping hm => (hmapped mapping hm).1⟩⟩
  · intro h
    obtain ⟨hclaims, hcomplete⟩ := h
    exact ⟨⟨⟨hcomplete.transferType, hcomplete.endpointType⟩, hclaims.root⟩, hcomplete.static,
      fun mapping hm => ⟨hcomplete.mapped mapping hm, hclaims.endpoints mapping hm⟩⟩

theorem transferTypesErrors_eq_nil (transferTypes : List TransferType) :
    transferTypesErrors checks transferTypes = [] ↔ ∀ tt ∈ transferTypes, tt.ClaimsValid checks ∧
      tt.Complete :=
  flatMap_zipIdx_eq_nil (fun tt i => transferTypeErrors_eq_nil (index "transfer_types" i) tt)
    transferTypes

theorem validateTransferTypes_eq_ok (mappings : HashMap String TransferType) :
    validateTransferTypes checks mappings = .ok () ↔
      ∀ tt ∈ mappings.values, tt.ClaimsValid checks := by
  have hmatch : ∀ errors : List String, (match errors with
      | [] => Except.ok ()
      | errors => Except.error (ManagementApiError.validation errors)) = .ok () ↔ errors = [] := by
    intro errors
    cases errors <;> simp
  unfold validateTransferTypes
  rw [hmatch, List.flatMap_eq_nil_iff, HashMap.values, List.forall_mem_map]
  refine forall₂_congr fun entry _ => ?_
  rw [List.append_eq_nil_iff, validateClaimMappings_eq_nil,
    flatMap_zipIdx_eq_nil fun mapping i => validateClaimMappings_eq_nil mapping.claimMappings _]
  exact ⟨fun h => ⟨h.1, h.2⟩, fun h => ⟨h.root, h.endpoints⟩⟩

theorem transferTypes_of_validate {cfg : SigletConfig} (hvalid : cfg.validate checks = .ok ()) :
    ∀ tt ∈ cfg.transferTypes, tt.ClaimsValid checks ∧ tt.Complete := by
  rw [← transferTypesErrors_eq_nil]
  have herrors := SigletConfig.validate_eq_ok.mp hvalid
  rw [SigletConfig.errors, List.flatten_eq_nil_iff] at herrors
  exact herrors (transferTypesErrors checks cfg.transferTypes) (by simp [transferTypesErrors])

theorem serverSecret_of_validate {cfg : SigletConfig} (hvalid : cfg.validate checks = .ok ())
    {secretHex : String} (hsecret : cfg.token.serverSecret = some secretHex) :
    ∃ bytes, hexDecode secretHex.toList = some bytes ∧ minServerSecretBytes ≤ bytes.length := by
  have herrors := SigletConfig.validate_eq_ok.mp hvalid
  rw [SigletConfig.errors, List.flatten_eq_nil_iff] at herrors
  have hnil := herrors (serverSecretErrors cfg.token.serverSecret) (by simp)
  rw [hsecret] at hnil
  unfold serverSecretErrors at hnil
  dsimp only at hnil
  split_ifs at hnil with hempty
  cases hdecode : hexDecode secretHex.toList with
  | none => simp [hdecode] at hnil
  | some bytes =>
    simp only [hdecode, report_eq_nil, decide_eq_false_iff_not, not_lt] at hnil
    exact ⟨bytes, rfl, hnil⟩

end Validators

/-! ## What reaches the handler -/

namespace TransferType
variable {tt : TransferType}

theorem resolvable_of_complete (hcomplete : tt.Complete) : tt.Resolvable := by
  intro h flow
  unfold SigletDataFlowHandler.resolveEndpoint
  cases hmappings : tt.endpointMappings with
  | nil =>
    obtain ⟨endpoint, hendpoint, hne⟩ := hcomplete.static hmappings
    rw [hendpoint]
    exact ⟨by simp, fun mapping heq => hne (Prod.mk.inj (Except.ok.inj heq)).1⟩
  | cons first rest =>
    dsimp only
    cases hfind : (first :: rest).find? (h.matchesFlow flow) with
    | none =>
      refine ⟨?_, by simp⟩
      intro heq
      have hmessage :=
        congrArg (fun s : String => s.toList.take 13)
          (HandlerError.generic.inj (Except.error.inj heq))
      simp [String.toList_append] at hmessage
    | some mapping =>
      have hmem : mapping ∈ tt.endpointMappings := hmappings ▸ List.mem_of_find?_eq_some hfind
      refine ⟨by simp, ?_⟩
      intro other heq
      exact (hcomplete.mapped mapping hmem).endpoint (Prod.mk.inj (Except.ok.inj heq)).1

end TransferType

theorem mem_of_transferTypeTable {cfg : SigletConfig} {profile : String} {tt : TransferType}
    (hget : (transferTypeTable cfg).get profile = some tt) : tt ∈ cfg.transferTypes := by
  rcases HashMap.get_extendBy_eq_some hget with ⟨-, hmem⟩ | ⟨-, hnone⟩
  · exact hmem
  · simp at hnone

theorem mem_values_of_get {mappings : HashMap String TransferType} {profile : String}
    {tt : TransferType} (hget : mappings.get profile = some tt) : tt ∈ mappings.values :=
  List.mem_map.mpr ⟨(profile, tt), (HashMap.get_eq_some_iff mappings).mp hget, rfl⟩

/-- A transfer type that a flow gets is stored for its participant context or configured. -/
theorem mem_of_getTransferType {h : SigletDataFlowHandler} {store : MemoryTransferTypeMappingStore}
    {cfg : SigletConfig} (hstore : h.findMappings = store.find)
    (htable : h.transferTypeMappings = transferTypeTable cfg) {flow : DataFlow} {tt : TransferType}
    (hget : h.getTransferType flow = .ok tt) :
    (∃ pc mappings, store.get pc = some mappings ∧ tt ∈ mappings.values) ∨
      tt ∈ cfg.transferTypes := by
  obtain ⟨found, hresolve, hfound⟩ := bind_eq_ok.mp hget
  obtain rfl : found = some tt := okOr_eq_ok.mp hfound
  unfold SigletDataFlowHandler.resolveTransferType at hresolve
  rw [hstore, htable, MemoryTransferTypeMappingStore.find] at hresolve
  cases hmappings : store.get flow.participantContextId with
  | none =>
    rw [hmappings] at hresolve
    exact Or.inr (mem_of_transferTypeTable (Except.ok.inj hresolve))
  | some mappings =>
    simp only [hmappings, okOr] at hresolve
    cases hentries : mappings.entries with
    | nil =>
      rw [hentries] at hresolve
      exact Or.inr (mem_of_transferTypeTable (Except.ok.inj hresolve))
    | cons entry entries =>
      rw [hentries] at hresolve
      exact Or.inl ⟨_, mappings, hmappings, mem_values_of_get (Except.ok.inj hresolve)⟩

/-- The mappings that a call submits. -/
def ManagementCall.submitted : ManagementCall → Option (HashMap String TransferType)
  | .create _ mappings | .update _ mappings => some mappings
  | .delete _ => none

/-- A claim mapping of the submitted ones is refused, or all names and endpoints are there. -/
def ManagementCall.Checked (checks : Checks) (call : ManagementCall) : Prop :=
  ∀ mappings, call.submitted = some mappings →
    ¬(∀ tt ∈ mappings.values, tt.ClaimsValid checks) ∨ ∀ tt ∈ mappings.values, tt.Complete

theorem ManagementCall.stored_cases {checks : Checks} {store : MemoryTransferTypeMappingStore}
    {call : ManagementCall} {pc : String} {mappings : HashMap String TransferType}
    (hget : (call.handle checks store).2.get pc = some mappings) : store.get pc = some mappings ∨
      call.submitted = some mappings ∧ validateTransferTypes checks mappings = .ok () := by
  cases call with
  | create pc' submitted =>
    unfold handle MemoryTransferTypeMappingStore.create at hget
    cases hvalid : validateTransferTypes checks submitted with
    | error e => exact Or.inl (by simpa [hvalid] using hget)
    | ok =>
      simp only [hvalid] at hget
      split_ifs at hget
      · exact Or.inl hget
      · rcases HashMap.get_insert_eq_some hget with ⟨-, rfl⟩ | ⟨-, hold⟩
        · exact Or.inr ⟨rfl, hvalid⟩
        · exact Or.inl hold
  | update pc' submitted =>
    unfold handle MemoryTransferTypeMappingStore.update at hget
    cases hvalid : validateTransferTypes checks submitted with
    | error e => exact Or.inl (by simpa [hvalid] using hget)
    | ok =>
      simp only [hvalid] at hget
      split_ifs at hget
      · rcases HashMap.get_insert_eq_some hget with ⟨-, rfl⟩ | ⟨-, hold⟩
        · exact Or.inr ⟨rfl, hvalid⟩
        · exact Or.inl hold
      · exact Or.inl hget
  | delete pc' => exact Or.inl (HashMap.get_remove_eq_some hget).2

/-- Everything stored has its names and endpoints. -/
def MemoryTransferTypeMappingStore.Complete (store : MemoryTransferTypeMappingStore) : Prop :=
  ∀ pc mappings, store.get pc = some mappings → ∀ tt ∈ mappings.values, tt.Complete

theorem stored_complete {checks : Checks} {calls : List ManagementCall}
    {store : MemoryTransferTypeMappingStore}
    (hpath : (managementApi checks).Path (fun _ call _ => call.Checked checks)
      HashMap.empty calls store) :
    MemoryTransferTypeMappingStore.Complete store := by
  have hempty : MemoryTransferTypeMappingStore.Complete HashMap.empty := by
    intro pc mappings hget
    simp at hget
  refine hpath.preserves hempty ?_
  intro before call after _ hnext hchecked hbefore pc mappings hget
  obtain rfl : (call.handle checks before).2 = after := Option.some.inj hnext
  rcases call.stored_cases hget with hold | ⟨hsubmitted, hvalid⟩
  · exact hbefore pc mappings hold
  · exact (hchecked mappings hsubmitted).resolve_left
      (not_not.mpr ((validateTransferTypes_eq_ok mappings).mp hvalid))

/-- The two entry points agree on a map, and every transfer type that passes either one has an
endpoint for every flow that is matched, exactly when a claim mapping of it is refused or all names
and endpoints are there. With a valid configuration and such maps only, the same holds of every
transfer type that a flow gets. -/
theorem entry_points_agree_iff (checks : Checks) :
    (∀ mappings : HashMap String TransferType,
      ((validateTransferTypes checks mappings = .ok () ↔
        transferTypesErrors checks mappings.values = []) ∧
        ((validateTransferTypes checks mappings = .ok () ∨
          transferTypesErrors checks mappings.values = []) →
          ∀ tt ∈ mappings.values, tt.Resolvable)) ↔
      ¬(∀ tt ∈ mappings.values, tt.ClaimsValid checks) ∨ ∀ tt ∈ mappings.values, tt.Complete) ∧
    ∀ (cfg : SigletConfig) (calls : List ManagementCall) (store : MemoryTransferTypeMappingStore)
      (h : SigletDataFlowHandler), cfg.validate checks = .ok () →
      (managementApi checks).Path (fun _ call _ => call.Checked checks) HashMap.empty calls store →
      h.findMappings = store.find → h.transferTypeMappings = transferTypeTable cfg →
      ∀ flow tt, h.getTransferType flow = .ok tt → tt.Resolvable := by
  constructor
  · intro mappings
    rw [validateTransferTypes_eq_ok, transferTypesErrors_eq_nil]
    constructor
    · intro hagree
      by_contra hneither
      rw [not_or, not_not] at hneither
      exact hneither.2 fun tt htt => (hagree.1.mp hneither.1 tt htt).2
    · intro hcondition
      rcases hcondition with hrefused | hcomplete
      · have hrefused' : ¬ ∀ tt ∈ mappings.values, tt.ClaimsValid checks ∧
            tt.Complete := fun hall =>
          hrefused fun tt htt => (hall tt htt).1
        exact ⟨iff_of_false hrefused hrefused', fun haccepted =>
          absurd haccepted (not_or.mpr ⟨hrefused, hrefused'⟩)⟩
      · refine ⟨⟨fun hclaims tt htt => ⟨hclaims tt htt, hcomplete tt htt⟩, fun hall tt htt =>
          (hall tt htt).1⟩, ?_⟩
        exact fun _ tt htt => TransferType.resolvable_of_complete (hcomplete tt htt)
  · intro cfg calls store h hvalid hpath hstore htable flow tt hget
    apply TransferType.resolvable_of_complete
    rcases mem_of_getTransferType hstore htable hget with ⟨pc, mappings, hstored, htt⟩ | htt
    · exact stored_complete hpath pc mappings hstored tt htt
    · exact (transferTypes_of_validate hvalid tt htt).2

def pullBlock (endpoint : String) : TransferType where
  transferType := "http-pull"
  endpointType := "HTTP"
  endpoint := some endpoint

def pullMappings (endpoint : String) : HashMap String TransferType :=
  HashMap.empty.insert "http-pull" (pullBlock endpoint)

def pullConfig : SigletConfig :=
  { demoConfig "signing-siglet" with transferTypes := [pullBlock "https://a/data"] }

/-- The handler over a store of mappings and a configuration. -/
def storedHandler (store : MemoryTransferTypeMappingStore) (cfg : SigletConfig) :
    SigletDataFlowHandler where
  findMappings := store.find
  transferTypeMappings := transferTypeTable cfg
  mapClaims := fun _ _ => .ok HashMap.empty
  fromStr := fun _ => none
  toJson := fun _ => ""
  getProperty := fun _ _ => none

def pullFlow : DataFlow :=
  ⟨"flow", "did:web:consumer", "did:web:provider", "pc", "dataset", "agreement", "http-pull",
    HashMap.empty, none⟩

theorem pullBlock_complete {endpoint : String} (hne : endpoint ≠ "") :
    (pullBlock endpoint).Complete where
  transferType := by simp [pullBlock]
  endpointType := by simp [pullBlock]
  static := fun _ => ⟨endpoint, rfl, hne⟩
  mapped := by simp [pullBlock]

theorem pullConfig_valid : pullConfig.validate demoChecks = .ok () := by decide

/-- A block stored for a participant context resolves for its flows. -/
theorem stored_pull_resolves : (pullBlock "https://b/data").Resolvable := by
  let store : MemoryTransferTypeMappingStore :=
    HashMap.empty.insert "pc" (pullMappings "https://b/data")
  have hchecked : (ManagementCall.create "pc" (pullMappings "https://b/data")).Checked
      demoChecks := by
    intro mappings hsubmitted
    obtain rfl := Option.some.inj hsubmitted
    refine Or.inr fun tt htt => ?_
    obtain rfl := List.mem_singleton.mp htt
    exact pullBlock_complete (by simp)
  exact (entry_points_agree_iff demoChecks).2 pullConfig
    [.create "pc" (pullMappings "https://b/data")] store
    (storedHandler store pullConfig) pullConfig_valid (Machine.Path.one rfl hchecked)
    rfl rfl pullFlow _ rfl

/-- A block with an empty endpoint is stored, though no configuration may have it, and a flow gets
that endpoint. -/
theorem empty_endpoint_stored :
    ¬ ∀ (checks : Checks) (mappings : HashMap String TransferType),
      (validateTransferTypes checks mappings = .ok () ↔
        transferTypesErrors checks mappings.values = []) ∧
        (validateTransferTypes checks mappings = .ok () →
          ∀ tt ∈ mappings.values, tt.Resolvable) := by
  intro hall
  have haccepted : validateTransferTypes demoChecks (pullMappings "") = .ok () := rfl
  have hresolvable :=
    (hall demoChecks (pullMappings "")).2 haccepted (pullBlock "") List.mem_cons_self
  exact (hresolvable (storedHandler HashMap.empty pullConfig) pullFlow).2 none rfl

/-- A validated configuration starts with its own secret and its own blocks exactly when the secret
has as many bytes as the token manager wants and no two different blocks have one name. -/
theorem assembled_without_loss_iff {σ : Type} {checks : Checks} {cfg : SigletConfig}
    (hvalid : cfg.validate checks = .ok ()) {p : Platform σ}
    (hrandom : p.randomSecret.length = 32) : ((∃ secret, p.generateServerSecret cfg = .ok secret) ∧
      ∀ tt ∈ cfg.transferTypes, (transferTypeTable cfg).get tt.transferType = some tt) ↔
    (∀ secretHex bytes, cfg.token.serverSecret = some secretHex →
      hexDecode secretHex.toList = some bytes → minSecretLength ≤ bytes.length) ∧
    ∀ tt ∈ cfg.transferTypes, ∀ other ∈ cfg.transferTypes, tt.transferType = other.transferType →
      tt = other := by
  refine and_congr ?_ (HashMap.get_extendBy_self_iff TransferType.transferType cfg.transferTypes)
  have htry : ∀ bytes : List UInt8, (∃ secret, (ValidatedServerSecret.tryFrom bytes).mapError
      (fun e => SigletError.invalidConfiguration e.message) = .ok secret) ↔
        minSecretLength ≤ bytes.length := by
    intro bytes
    unfold ValidatedServerSecret.tryFrom
    split_ifs with hlength <;> simp [Except.mapError, hlength]
  unfold Platform.generateServerSecret
  cases hsecret : cfg.token.serverSecret with
  | none =>
    refine iff_of_true ((htry p.randomSecret).mpr ?_) (by simp)
    rw [hrandom]
    exact le_rfl
  | some secretHex =>
    obtain ⟨bytes, hdecode, -⟩ := serverSecret_of_validate hvalid hsecret
    have hbytes : p.serverSecretBytes (some secretHex) = .ok bytes := by
      rw [Platform.serverSecretBytes, hdecode]
      rfl
    rw [hbytes]
    refine (htry bytes).trans ⟨?_, fun h => h secretHex bytes rfl hdecode⟩
    intro hlength secretHex' bytes' hsame hdecode'
    obtain rfl := Option.some.inj hsame
    obtain rfl := Option.some.inj (hdecode.symm.trans hdecode')
    exact hlength

/-- Sixteen bytes. -/
def shortSecretConfig : SigletConfig :=
  { demoConfig "signing-siglet" with
    token := { serverSecret := some "00112233445566778899aabbccddeeff" } }

def repeatedBlockConfig : SigletConfig :=
  { demoConfig "signing-siglet" with transferTypes := [pullBlock "https://a/data",
    pullBlock "https://b/data"] }

/-- One block and no secret of its own. -/
theorem pull_config_assembled :
    (∃ secret, demoPlatform.generateServerSecret pullConfig = .ok secret) ∧
      ∀ tt ∈ pullConfig.transferTypes,
        (transferTypeTable pullConfig).get tt.transferType = some tt := by
  refine (assembled_without_loss_iff pullConfig_valid (p := demoPlatform) rfl).mpr ⟨?_, ?_⟩
  · intro secretHex bytes hsecret
    exact absurd hsecret (by simp [pullConfig, demoConfig])
  · intro tt htt other hother _
    obtain rfl := List.mem_singleton.mp htt
    exact (List.mem_singleton.mp hother).symm

/-- The validator is content with sixteen bytes and with two blocks of one name. The token manager
wants more, and the table keeps the second block. -/
theorem valid_config_loses :
    (shortSecretConfig.validate demoChecks = .ok () ∧
      ¬∃ secret, demoPlatform.generateServerSecret shortSecretConfig = .ok secret) ∧
    repeatedBlockConfig.validate demoChecks = .ok () ∧
      ¬∀ tt ∈ repeatedBlockConfig.transferTypes,
        (transferTypeTable repeatedBlockConfig).get tt.transferType = some tt := by
  refine ⟨⟨by decide, ?_⟩, by decide, ?_⟩
  · intro hgenerated
    obtain ⟨secret, hsecret⟩ := hgenerated
    have herror : demoPlatform.generateServerSecret shortSecretConfig =
      .error
        (.invalidConfiguration
          "General token error: Server secret must be at least 32 bytes, got 16") := rfl
    exact absurd (hsecret.symm.trans herror) (by simp)
  · intro hkept
    have hfirst := hkept (pullBlock "https://a/data") List.mem_cons_self
    have hlast : (transferTypeTable repeatedBlockConfig).get "http-pull" =
        some (pullBlock "https://b/data") := rfl
    exact absurd (hlast.symm.trans hfirst) (by decide)

end Facet.Siglet
