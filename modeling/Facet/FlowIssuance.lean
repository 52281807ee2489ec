import Facet.FlowCleanup
import Facet.RenewableTable

/-!
# Issuing a pair for a flow

`on_start` and `on_prepare` over any renewable-token store. Everything that can fail comes
before the one write, so a failed event leaves the store alone, and an event that answers
with a data address has added the one entry that the address describes.
-/
namespace Facet.Renewable

/-- The lookup by a key column. -/
def RenewableTokenStore.find {σ : Type} (S : RenewableTokenStore σ) (s : σ) :
    EntryIndex → String → Except TokenError RenewableTokenEntry
  | .hash => S.findByRenewal s
  | .id => S.findById s
  | .flow => S.findByFlowId s

/-- What a store holds, as each of its indices has it: a failed save changes nothing, and a save
under keys that are not in use adds the entry. -/
structure RenewableTokenStore.Contents {σ : Type} (S : RenewableTokenStore σ) where
  entries : σ → EntryIndex → Multiset RenewableTokenEntry
  save_failed : ∀ s entry e, (S.save s entry).1 = .error e → (S.save s entry).2 = s
  save_new : ∀ s entry, (S.save s entry).1 = .ok () → (∀ k x, S.find s k (k.key entry) ≠ .ok x) →
    ∀ k, entries (S.save s entry).2 k = entry ::ₘ entries s k

/-- A store whose saves can fail, as those of a database do, without effect. -/
def RenewableTokenStore.interrupted {σ : Type} (S : RenewableTokenStore σ)
    (failure : σ → RenewableTokenEntry → Option TokenError) : RenewableTokenStore σ :=
  { S with
    save := fun s entry =>
      match failure s entry with
      | some e => (.error e, s)
      | none => S.save s entry }

namespace RenewableTokenStore.Contents

/-- Each of the three maps gets the entry. -/
def memory : MemoryRenewableTokenStore.Contents where
  entries s k := (s.index k).values
  save_failed s entry e h := by
    change Except.ok () = Except.error e at h
    exact absurd h (by simp)
  save_new s entry _ hunused k := by
    have hnone : (s.index k).get (k.key entry) = none := by
      rw [Option.eq_none_iff_forall_ne_some]
      intro x hx
      refine hunused k x ?_
      have hfind : s.find k (k.key entry) = .ok x := InnerStore.find_eq_ok.mpr hx
      cases k <;> exact hfind
    change (((s.save entry).index k).values : Multiset RenewableTokenEntry) = _
    rw [InnerStore.index_save]
    change ((entry :: ((s.index k).remove (k.key entry)).values : List RenewableTokenEntry) :
      Multiset RenewableTokenEntry) = _
    rw [HashMap.remove_of_get_none hnone, Multiset.cons_coe]

/-- Every index of the table is over the same rows. -/
def postgres : PostgresRenewableTokenStore.Contents where
  entries t _ := t.rows
  save_failed t entry e h := by
    change Except.ok () = Except.error e at h
    exact absurd h (by simp)
  save_new t entry _ hunused k := by
    have hother : (t.delete (·.id = entry.id)).rows = t.rows := by
      refine List.filter_eq_self.mpr ?_
      intro row hrow
      rw [decide_eq_true_eq, decide_eq_false_iff_not]
      intro hid
      cases hf : t.rows.find? (fun row => row.id = entry.id) with
      | none => exact absurd (decide_eq_true hid) (List.find?_eq_none.mp hf row hrow)
      | some found =>
        refine hunused .id found ?_
        change okOr (t.rows.find? fun row => row.id = entry.id) _ = .ok found
        rw [hf]
        rfl
    change ((entry :: (t.delete (·.id = entry.id)).rows : List RenewableTokenEntry) : Multiset
      RenewableTokenEntry) = _
    rw [hother]
    rfl

def interrupted {σ : Type} {S : RenewableTokenStore σ} (contents : S.Contents)
    (failure : σ → RenewableTokenEntry → Option TokenError) : (S.interrupted failure).Contents where
  entries := contents.entries
  save_failed s entry e h := by
    cases hf : failure s entry with
    | some e' => simp [RenewableTokenStore.interrupted, hf]
    | none =>
      simp only [RenewableTokenStore.interrupted, hf] at h ⊢
      exact contents.save_failed s entry e h
  save_new s entry h hunused := by
    cases hf : failure s entry with
    | some e => simp [RenewableTokenStore.interrupted, hf] at h
    | none =>
      simp only [RenewableTokenStore.interrupted, hf] at h ⊢
      refine contents.save_new s entry h ?_
      intro k x hx
      exact hunused k x (by cases k <;> exact hx)

end RenewableTokenStore.Contents
end Facet.Renewable

namespace Facet.Siglet
open Renewable

namespace SigletDataFlowHandler

section Handler
variable {σ : Type} (h : SigletDataFlowHandler) (S : RenewableTokenStore σ) (m : JwtTokenManager)
  (env : CallEnv)

def generateTokenIn (s : σ) (pc : ParticipantContext) (config : TransferType)
    (endpointMapping : Option EndpointMapping) (flow : DataFlow) (requiredSource : TokenSource) :
    Except HandlerError RenewableTokenPair × σ :=
  match h.tokenClaims config endpointMapping flow requiredSource with
  | .error e => (.error e, s)
  | .ok claims =>
    let (pair, s') := S.generatePair m env s pc flow.counterPartyId claims flow.id
    (pair.mapError fun e => .generic ("Failed to generate token pair: " ++ e.message), s')

def handleFlowIn (now : ℤ) (flow : DataFlow) (requiredSource : TokenSource) (state : DataFlowState)
    (s : σ) : Except HandlerError DataFlowStatusMessage × σ :=
  match h.getTransferType flow with
  | .error e => (.error e, s)
  | .ok transferType =>
    if transferType.tokenSource ≠ requiredSource then (.ok ⟨flow.id, state, none⟩, s)
    else
      match h.resolveEndpoint transferType flow with
      | .error e => (.error e, s)
      | .ok (endpoint, endpointMapping) =>
        let (pair, s') :=
          h.generateTokenIn S m env s (buildParticipantContext flow) transferType
            endpointMapping flow
            requiredSource
        (pair.map fun pair =>
          ⟨flow.id, state, some (pairAddress now transferType endpoint flow pair)⟩, s')

theorem generateTokenIn_memory (s : InnerStore) (pc : ParticipantContext) (config : TransferType)
    (endpointMapping : Option EndpointMapping) (flow : DataFlow) (requiredSource : TokenSource) :
    h.generateTokenIn MemoryRenewableTokenStore m env s pc config endpointMapping
      flow requiredSource =
      h.generateToken m env s pc config endpointMapping flow requiredSource := by
  unfold generateTokenIn generateToken
  cases h.tokenClaims config endpointMapping flow requiredSource with
  | error e => rfl
  | ok claims =>
    dsimp only
    rw [generatePair_memory]

theorem handleFlowIn_memory (now : ℤ) (flow : DataFlow) (requiredSource : TokenSource)
    (state : DataFlowState) (s : InnerStore) :
    h.handleFlowIn MemoryRenewableTokenStore m env now flow requiredSource state s =
      h.handleFlow m env now flow requiredSource state s := by
  unfold handleFlowIn handleFlow
  cases h.getTransferType flow with
  | error e => rfl
  | ok transferType =>
    dsimp only
    split_ifs
    · rfl
    · cases h.resolveEndpoint transferType flow with
      | error e => rfl
      | ok resolved =>
        dsimp only
        rw [generateTokenIn_memory]

def onStartIn (now : ℤ) (flow : DataFlow) (s : σ) : Except HandlerError DataFlowStatusMessage × σ :=
  h.handleFlowIn S m env now flow .provider .started s

def onPrepareIn (now : ℤ) (flow : DataFlow) (s : σ) :
    Except HandlerError DataFlowStatusMessage × σ :=
  h.handleFlowIn S m env now flow .client .prepared s

end Handler

/-! ## The claims -/

/-- What a token says about its flow by itself. -/
def builtIn (flow : DataFlow) : TokenSource → String → Option Value
  | .client, _ => none
  | .provider, k => ([("agreementId", flow.agreementId), ("participantId", flow.participantId),
      ("counterPartyId", flow.counterPartyId), ("datasetId", flow.datasetId)].lookup k).map
        Value.string

/-- The claims of the mappings that apply to the flow. -/
def MapsTo (h : SigletDataFlowHandler) (config : TransferType)
    (endpointMapping : Option EndpointMapping) (flow : DataFlow)
    (mapped : HashMap String Value) : Prop :=
  let mappings :=
    mergeClaimMappings config.claimMappings (endpointMapping.map EndpointMapping.claimMappings)
  (mappings = [] ∧ mapped = HashMap.empty) ∨
    (mappings ≠ [] ∧ h.mapClaims mappings flow = .ok mapped)

theorem get_flowClaims (flow : DataFlow) (source : TokenSource) (k : String) :
    (flowClaims flow source).get k = builtIn flow source k := by
  cases source with
  | client => rfl
  | provider =>
    simp only [flowClaims, builtIn, HashMap.get_insert, HashMap.get_empty]
    by_cases hdataset : k = "datasetId"
    · simp [hdataset, List.lookup]
    · by_cases hcounterParty : k = "counterPartyId"
      · simp [hcounterParty, List.lookup]
      · by_cases hparticipant : k = "participantId"
        · simp [hparticipant, List.lookup]
        · by_cases hagreement : k = "agreementId"
          · simp [hagreement, List.lookup]
          · have hnone : ∀ name value, k ≠ name → ∀ rest : List (String × String),
                ((name, value) :: rest).lookup k = rest.lookup k := by
              intro name value hne rest
              rw [List.lookup_cons, beq_false_of_ne hne]
            rw [hnone _ _ hagreement, hnone _ _ hparticipant, hnone _ _ hcounterParty,
              hnone _ _ hdataset, if_neg hdataset, if_neg hcounterParty, if_neg hparticipant,
              if_neg hagreement]
            rfl

theorem get_foldl_insert {es : List (String × Value)} (hn : (es.map Prod.fst).Nodup)
    (claims : HashMap String Value) (k : String) :
    (es.foldl (fun claims entry => claims.insert entry.1 entry.2) claims).get k =
      ((es.find? fun e => e.1 = k).map Prod.snd).or (claims.get k) :=
  HashMap.get_foldl_insert hn claims k

theorem tokenClaims_ok {h : SigletDataFlowHandler} {config : TransferType}
    {endpointMapping : Option EndpointMapping} {flow : DataFlow} {source : TokenSource}
    {claims : HashMap String Value}
    (hclaims : h.tokenClaims config endpointMapping flow source = .ok claims) :
    ∃ mapped, MapsTo h config endpointMapping flow mapped ∧
      ∀ k, claims.get k = (mapped.get k).or (builtIn flow source k) := by
  unfold tokenClaims at hclaims
  unfold MapsTo
  generalize mergeClaimMappings config.claimMappings
    (endpointMapping.map EndpointMapping.claimMappings) = mappings
    at hclaims ⊢
  cases mappings with
  | nil =>
    obtain rfl := Except.ok.inj hclaims
    refine ⟨HashMap.empty, Or.inl ⟨rfl, rfl⟩, ?_⟩
    intro k
    rw [get_flowClaims, HashMap.get_empty, Option.none_or]
  | cons mapping mappings =>
    dsimp only at hclaims
    cases hmapped : h.mapClaims (mapping :: mappings) flow with
    | error e =>
      rw [hmapped] at hclaims
      exact absurd hclaims (by simp)
    | ok mapped =>
      rw [hmapped] at hclaims
      obtain rfl := Except.ok.inj hclaims
      refine ⟨mapped, Or.inr ⟨by simp, hmapped⟩, ?_⟩
      intro k
      rw [get_foldl_insert mapped.nodup, get_flowClaims]
      rfl

/-! ## The outcomes -/

section Outcomes
variable {σ : Type} {h : SigletDataFlowHandler} {S : RenewableTokenStore σ} {m : JwtTokenManager}
  {env : CallEnv} {now : ℤ} {flow : DataFlow} {source : TokenSource} {state : DataFlowState} {s : σ}

variable (h S m env now flow source state s) in
theorem handleFlowIn_cases :
    (∃ e, h.handleFlowIn S m env now flow source state s = (.error e, s)) ∨
    h.handleFlowIn S m env now flow source state s = (.ok ⟨flow.id, state, none⟩, s) ∨
    ∃ transferType endpoint endpointMapping claims entry pair,
      h.getTransferType flow = .ok transferType ∧ transferType.tokenSource = source ∧
        h.resolveEndpoint transferType flow = .ok (endpoint, endpointMapping) ∧
      h.tokenClaims transferType endpointMapping flow source = .ok claims ∧
      m.preparePair env (buildParticipantContext flow) flow.counterPartyId claims flow.id =
        .ok (entry, pair) ∧ ((∃ e e', (S.save s entry).1 = .error e ∧
          h.handleFlowIn S m env now flow source state s = (.error e', (S.save s entry).2)) ∨
        ((S.save s entry).1 = .ok () ∧ h.handleFlowIn S m env now flow source state s =
          (.ok ⟨flow.id, state, some (pairAddress now transferType endpoint flow pair)⟩,
            (S.save s entry).2))) := by
  unfold handleFlowIn
  cases htype : h.getTransferType flow with
  | error e => exact Or.inl ⟨e, rfl⟩
  | ok transferType =>
    dsimp only
    split_ifs with hsource
    · exact Or.inr (Or.inl rfl)
    · cases hendpoint : h.resolveEndpoint transferType flow with
      | error e => exact Or.inl ⟨e, rfl⟩
      | ok resolved =>
        obtain ⟨endpoint, endpointMapping⟩ := resolved
        simp only [generateTokenIn]
        cases hclaims : h.tokenClaims transferType endpointMapping flow source with
        | error e => exact Or.inl ⟨e, rfl⟩
        | ok claims =>
          simp only [RenewableTokenStore.generatePair]
          cases hp : m.preparePair env (buildParticipantContext flow) flow.counterPartyId
            claims flow.id with
          | error e => exact Or.inl ⟨_, rfl⟩
          | ok prepared =>
            obtain ⟨entry, pair⟩ := prepared
            refine Or.inr
              (Or.inr ⟨transferType, endpoint, endpointMapping, claims, entry, pair,
                rfl, not_not.mp hsource, hendpoint, hclaims, hp, ?_⟩)
            cases hsave : (S.save s entry).1 with
            | error e =>
              refine Or.inl ⟨e, .generic ("Failed to generate token pair: " ++ e.message), rfl, ?_⟩
              simp [hsave, Except.map, Except.mapError]
            | ok u => exact Or.inr ⟨rfl, by simp [hsave, Except.map, Except.mapError]⟩

end Outcomes

/-- The names under which an address of the transfer type carries a pair. -/
def propertyNames (transferType : TransferType) : PropertyNames :=
  if transferType.txRenewalSupport then txRenewalNames else authNames

/-- What the event may do: fail or answer without an address and leave the store, or answer with the
address of the one entry that it adds. -/
structure Issues {σ : Type} {S : RenewableTokenStore σ} (contents : S.Contents)
    (h : SigletDataFlowHandler) (m : JwtTokenManager) (flow : DataFlow) (source : TokenSource)
    (s : σ) (outcome : Except HandlerError DataFlowStatusMessage × σ) :
    Prop where
  failed : ∀ e, outcome.1 = .error e → outcome.2 = s
  silent : ∀ message, outcome.1 = .ok message → message.dataAddress = none → outcome.2 = s
  issued : ∀ message address, outcome.1 = .ok message → message.dataAddress = some address →
    ∃ transferType endpoint endpointMapping mapped entry refreshToken,
      h.getTransferType flow = .ok transferType ∧ transferType.tokenSource = source ∧
      h.resolveEndpoint transferType flow = .ok (endpoint, endpointMapping) ∧
      (∀ k, contents.entries outcome.2 k = entry ::ₘ contents.entries s k) ∧
      entry.flowId = flow.id ∧ entry.subject = flow.counterPartyId ∧
      entry.audience = flow.participantId ∧
      entry.participantContextId = flow.participantContextId ∧
      MapsTo h transferType endpointMapping flow mapped ∧
      (∀ k, entry.claims.get k = (mapped.get k).or (builtIn flow source k)) ∧
      address.endpoint = endpoint ∧
      ⟨(propertyNames transferType).authorization, entry.token⟩ ∈ address.endpointProperties ∧
      ⟨(propertyNames transferType).refreshToken, refreshToken⟩ ∈ address.endpointProperties ∧
      m.hash refreshToken = entry.hashedRefreshToken

theorem properties_of_pairAddress (now : ℤ) (transferType : TransferType) (endpoint : String)
    (flow : DataFlow) (pair : RenewableTokenPair) :
    ⟨(propertyNames transferType).authorization, pair.token⟩ ∈
        (pairAddress now transferType endpoint flow pair).endpointProperties ∧
      ⟨(propertyNames transferType).refreshToken, pair.refreshToken⟩ ∈
        (pairAddress now transferType endpoint flow pair).endpointProperties := by
  cases htx : transferType.txRenewalSupport with
  | false => simp [pairAddress, propertyNames, htx, createAuthProperties, pairProperties]
  | true => simp [pairAddress, propertyNames, htx, createTxRenewalProperties, pairProperties]

/-- What the manager relies on in its random source and its keyed hash: the drawn jti and the hash
of the drawn refresh token are not in use. -/
def FreshDraw {σ : Type} (S : RenewableTokenStore σ) (m : JwtTokenManager) (env : CallEnv)
    (s : σ) : Prop :=
  (∀ x, S.findById s env.jti ≠ .ok x) ∧ ∀ x, S.findByRenewal s (m.hash env.refreshToken) ≠ .ok x

theorem handleFlowIn_issues {σ : Type} {S : RenewableTokenStore σ} (contents : S.Contents)
    (h : SigletDataFlowHandler) (m : JwtTokenManager) (env : CallEnv) (now : ℤ) (flow : DataFlow)
    (source : TokenSource) (state : DataFlowState) (s : σ)
    (hflow : ∀ x, S.findByFlowId s flow.id ≠ .ok x) (hdraw : FreshDraw S m env s) :
    Issues contents h m flow source s (h.handleFlowIn S m env now flow source state s) := by
  rcases handleFlowIn_cases h S m env now flow source state s with ⟨e, he⟩ | he |
    ⟨transferType, endpoint, endpointMapping, claims, entry, pair, htype, hsource, hendpoint,
      hclaims, hp, hsave⟩
  · rw [he]
    exact ⟨fun _ _ => rfl, fun _ hok => absurd hok (by simp), fun _ _ hok => absurd hok (by simp)⟩
  · rw [he]
    refine ⟨fun _ herr => absurd herr (by simp), fun _ _ _ => rfl, ?_⟩
    intro message address hok haddress
    obtain rfl := Except.ok.inj hok
    exact absurd haddress (by simp)
  · rcases hsave with ⟨e, e', hfailed, he⟩ | ⟨hsaved, he⟩
    · rw [he, contents.save_failed s entry e hfailed]
      exact ⟨fun _ _ => rfl, fun _ hok => absurd hok (by simp), fun _ _ hok => absurd hok (by simp)⟩
    · obtain ⟨-, token, expiresAt, -, -, rfl, rfl⟩ := JwtTokenManager.preparePair_eq_ok.mp hp
      obtain ⟨mapped, hmapped, hget⟩ := tokenClaims_ok hclaims
      have hunused : ∀ (k : EntryIndex) x,
          S.find s k (k.key ⟨env.jti, token, m.hash env.refreshToken, expiresAt,
            flow.counterPartyId, claims, (buildParticipantContext flow).id,
            (buildParticipantContext flow).audience,
          flow.id⟩) ≠ .ok x := by
        intro k
        cases k with
        | hash => exact hdraw.2
        | id => exact hdraw.1
        | flow => exact hflow
      rw [he]
      refine ⟨fun _ herr => absurd herr (by simp), ?_, ?_⟩
      · intro message hok hnone
        obtain rfl := Except.ok.inj hok
        exact absurd hnone (by simp)
      · intro message address hok haddress
        obtain rfl := Except.ok.inj hok
        obtain rfl := Option.some.inj haddress
        obtain ⟨htoken, hrefresh⟩ := properties_of_pairAddress now transferType endpoint flow
          ⟨token, env.refreshToken, expiresAt, m.refreshEndpoint⟩
        exact ⟨transferType, endpoint, endpointMapping, mapped, _, env.refreshToken,
          htype, hsource, hendpoint, contents.save_new s _ hsaved hunused, rfl, rfl, rfl, rfl,
          hmapped, hget, rfl, htoken, hrefresh, rfl⟩

/-- For a flow without an entry: `on_start` and `on_prepare` leave the store alone unless they
answer with a data address, and then have added exactly the entry that the address describes. -/
theorem issuance_atomic {σ : Type} {S : RenewableTokenStore σ} (contents : S.Contents)
    (h : SigletDataFlowHandler) (m : JwtTokenManager) (env : CallEnv) (now : ℤ) (flow : DataFlow)
    (s : σ) (hflow : ∀ x, S.findByFlowId s flow.id ≠ .ok x) (hdraw : FreshDraw S m env s) :
    Issues contents h m flow .provider s (h.onStartIn S m env now flow s) ∧
      Issues contents h m flow .client s (h.onPrepareIn S m env now flow s) :=
  ⟨handleFlowIn_issues contents h m env now flow .provider .started s hflow hdraw,
    handleFlowIn_issues contents h m env now flow .client .prepared s hflow hdraw⟩

/-! A pull whose token also names the region of the flow. -/

def regionHandler : SigletDataFlowHandler :=
  { demoHandler with
    transferTypeMappings := HashMap.empty.insert "http-pull"
      { pushType with
        tokenSource := .provider, claimMappings := [⟨"flow.metadata.region", "region", false⟩] }
    mapClaims := fun mappings flow =>
      match mappings, flow.metadata.get "region" with
      | [⟨"flow.metadata.region", «to», _⟩], some region => .ok (HashMap.empty.insert «to» region)
      | _, _ => .error "no such key" }

def regionFlow : DataFlow :=
  { demoFlow with
    profile := "http-pull", metadata :=
      HashMap.empty.insert "region" (.string "eu"), dataAddress := none }

theorem issuance_of_region :
    (regionHandler.onStartIn MemoryRenewableTokenStore demoManager (demoEnv "j1" "r1") 0 regionFlow
      InnerStore.empty).1.toOption.map (fun message => message.dataAddress.isSome) = some true ∧
    Issues .memory regionHandler demoManager regionFlow .provider InnerStore.empty
      (regionHandler.onStartIn MemoryRenewableTokenStore demoManager (demoEnv "j1" "r1") 0
        regionFlow InnerStore.empty) := by
  have hnone : ∀ (k : EntryIndex) key x, InnerStore.empty.find k key ≠ .ok x := by
    intro k key x hx
    rw [InnerStore.find_eq_ok] at hx
    cases k <;> simp [InnerStore.index, InnerStore.empty] at hx
  exact ⟨rfl, (issuance_atomic .memory regionHandler demoManager (demoEnv "j1" "r1") 0 regionFlow
    InnerStore.empty (hnone .flow _) ⟨hnone .id _, hnone .hash _⟩).1⟩

end SigletDataFlowHandler
end Facet.Siglet
