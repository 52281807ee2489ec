import Facet.Signaling
import Facet.TokenIssuance

/-!
# Cleaning up after a flow

What `on_terminate` and `on_suspend` leave behind, and when they succeed. `cleanup_tokens`
revokes the pair that the flow index names; only when there is none does it remove the
received token, and a missing token is then an error.
-/
namespace Facet.Renewable

/-- The three maps of the store. -/
inductive Index
  | hash
  | id
  | flow

/-- The map of an index. -/
def InnerStore.files (s : InnerStore) : Index → HashMap String RenewableTokenEntry
  | .hash => s.entriesByHash
  | .id => s.entriesById
  | .flow => s.entriesByFlowId

/-- The key of an entry in each map. -/
def RenewableTokenEntry.key (e : RenewableTokenEntry) : Index → String
  | .hash => e.hashedRefreshToken
  | .id => e.id
  | .flow => e.flowId

namespace InnerStore

theorem Synced.files_iff {s : InnerStore} (h : Synced s) (i : Index) {k : String}
    {e : RenewableTokenEntry} (hget : (s.files i).get k = some e) : s.Live e ∧ k = e.key i := by
  cases i with
  | hash =>
    obtain ⟨hk, -⟩ := h.byHash k e hget
    exact ⟨by rw [Live, hk]; exact hget, hk.symm⟩
  | id =>
    obtain ⟨hk, hlive⟩ := h.byId k e hget
    exact ⟨hlive, hk.symm⟩
  | flow =>
    obtain ⟨hk, hlive⟩ := h.byFlow k e hget
    exact ⟨hlive, hk.symm⟩

end InnerStore
end Facet.Renewable

namespace Facet.Siglet
open Renewable Client

def DataFlow.tokenKey (flow : DataFlow) : String × String := (flow.participantContextId, flow.id)

/-- The entry was issued for the flow, under its participant context. -/
def DataFlow.Issued (flow : DataFlow) (e : RenewableTokenEntry) : Prop :=
  e.flowId = flow.id ∧ e.participantContextId = flow.participantContextId

theorem cleanupTokens_cases (m : JwtTokenManager) (flow : DataFlow) (stores : Stores) :
    (∃ e, stores.renewable.entriesByFlowId.get flow.id = some e ∧
      cleanupTokens m flow (buildParticipantContext flow) stores =
        (.ok (), { stores with renewable := (stores.renewable.removeByFlowId flow.id).2 })) ∨
    (stores.renewable.entriesByFlowId.get flow.id = none ∧
      ∃ record, stores.tokens.get flow.tokenKey = some record ∧
      cleanupTokens m flow (buildParticipantContext flow) stores =
        (.ok (), { stores with tokens := stores.tokens.remove flow.tokenKey })) ∨
    (stores.renewable.entriesByFlowId.get flow.id = none ∧ stores.tokens.get flow.tokenKey = none ∧
      cleanupTokens m flow (buildParticipantContext flow) stores =
        (.error
          (.generic ("Failed to remove token: " ++ (TokenError.tokenNotFound flow.id).message)),
            stores)) := by
  rcases InnerStore.removeByFlowId_cases stores.renewable flow.id with
    ⟨hnone, hremove⟩ | ⟨e, hget, hremove⟩
  · right
    unfold DataFlow.tokenKey
    cases hrecord : stores.tokens.get (flow.participantContextId, flow.id) with
    | some record =>
      refine Or.inl ⟨hnone, record, rfl, ?_⟩
      simp only [cleanupTokens, JwtTokenManager.revokeToken, hremove, buildParticipantContext,
        MemoryTokenStore.removeToken, hrecord]
      rfl
    | none =>
      refine Or.inr ⟨hnone, rfl, ?_⟩
      simp only [cleanupTokens, JwtTokenManager.revokeToken, hremove, buildParticipantContext,
        MemoryTokenStore.removeToken, hrecord]
      rfl
  · left
    refine ⟨e, hget, ?_⟩
    simp only [cleanupTokens, JwtTokenManager.revokeToken, hremove]

/-! ## What a cleanup leaves -/

/-- Nothing of the flow is left, and nothing else is touched. -/
structure Clean (flow : DataFlow) (before after : Stores) : Prop where
  revoked : ∀ i k e, (after.renewable.files i).get k = some e → ¬ flow.Issued e
  removed : after.tokens.get flow.tokenKey = none
  keeps : ∀ i k e, ¬ flow.Issued e →
    ((after.renewable.files i).get k = some e ↔ (before.renewable.files i).get k = some e)
  spares : ∀ key ≠ flow.tokenKey, after.tokens.get key = before.tokens.get key

/-- The key under which an index drops an entry that was found under the flow id. -/
def droppedKey (flow : DataFlow) (e : RenewableTokenEntry) : Index → String
  | .hash => e.hashedRefreshToken
  | .id => e.id
  | .flow => flow.id

/-- Either the flow index has no entry and the flow none at all, or there is no received token and
the entries of the flow are those filed under the keys of the one in the index. -/
def Cleanable (flow : DataFlow) (stores : Stores) : Prop :=
  match stores.renewable.entriesByFlowId.get flow.id with
  | none => ∀ i k e, (stores.renewable.files i).get k = some e → ¬ flow.Issued e
  | some e => stores.tokens.get flow.tokenKey = none ∧
      ∀ i k x, (stores.renewable.files i).get k = some x → (flow.Issued x ↔ k = droppedKey flow e i)

theorem get_files_remove {s : InnerStore} {flow : DataFlow} {e : RenewableTokenEntry}
    (hget : s.entriesByFlowId.get flow.id = some e) (i : Index) (k : String) :
    ((s.removeByFlowId flow.id).2.files i).get k =
      if k = droppedKey flow e i then none else (s.files i).get k := by
  have hfiles : (s.removeByFlowId flow.id).2.files i =
      (s.files i).remove (droppedKey flow e i) := by
    cases i with
    | hash => simp [InnerStore.removeByFlowId, hget, InnerStore.files, droppedKey]
    | id => simp [InnerStore.removeByFlowId, hget, InnerStore.files, droppedKey]
    | flow => simp [InnerStore.removeByFlowId, hget, InnerStore.files, droppedKey]
  rw [hfiles, HashMap.get_remove]

theorem clean_iff_of_revoked {flow : DataFlow} {stores : Stores} {e : RenewableTokenEntry}
    (hget : stores.renewable.entriesByFlowId.get flow.id = some e) :
    Clean flow stores { stores with renewable := (stores.renewable.removeByFlowId flow.id).2 } ↔
      Cleanable flow stores := by
  simp only [Cleanable, hget]
  constructor
  · intro hclean
    refine ⟨hclean.removed, fun i k x hx => ?_⟩
    have hkeeps := hclean.keeps i k x
    have hrevoked := hclean.revoked i k x
    simp only [get_files_remove hget] at hkeeps hrevoked
    constructor
    · intro hissued
      by_contra hk
      rw [if_neg hk] at hrevoked
      exact hrevoked hx hissued
    · intro hk
      by_contra hissued
      have hkept := (hkeeps hissued).mpr hx
      rw [if_pos hk] at hkept
      exact absurd hkept (by simp)
  · intro hcond
    obtain ⟨hnone, hissued⟩ := hcond
    refine ⟨fun i k x hx => ?_, hnone, fun i k x hx => ?_, fun _ _ => rfl⟩
    · rw [get_files_remove hget] at hx
      split_ifs at hx with hk
      exact fun h => hk ((hissued i k x hx).mp h)
    · rw [get_files_remove hget]
      split_ifs with hk
      · constructor
        · intro h
          exact absurd h (by simp)
        · intro h
          exact absurd ((hissued i k x h).mpr hk) hx
      · exact Iff.rfl

theorem clean_iff_of_removed {flow : DataFlow} {stores : Stores}
    (hnone : stores.renewable.entriesByFlowId.get flow.id = none) :
    Clean flow stores { stores with tokens := stores.tokens.remove flow.tokenKey } ↔
      Cleanable flow stores := by
  simp only [Cleanable, hnone]
  constructor
  · intro hclean
    exact hclean.revoked
  · intro hcond
    refine ⟨hcond, by simp, fun _ _ _ _ => Iff.rfl, fun key hkey => ?_⟩
    rw [HashMap.get_remove, if_neg hkey]

theorem cleanable_iff_of_synced {flow : DataFlow} {stores : Stores}
    (hsynced : stores.renewable.Synced) : Cleanable flow stores ↔
      (∀ e, stores.renewable.Live e → flow.Issued e →
        stores.renewable.entriesByFlowId.get flow.id = some e) ∧
      ∀ e, stores.renewable.entriesByFlowId.get flow.id = some e →
        flow.Issued e ∧ stores.tokens.get flow.tokenKey = none := by
  unfold Cleanable
  cases hget : stores.renewable.entriesByFlowId.get flow.id with
  | none =>
    constructor
    · intro hnone
      exact ⟨fun e hlive hissued => absurd hissued (hnone .hash _ e hlive), by simp⟩
    · intro hcond i k e he hissued
      obtain ⟨hlive, -⟩ := hsynced.files_iff i he
      exact absurd (hcond.1 e hlive hissued) (by simp)
  | some e =>
    obtain ⟨hflow, hlive⟩ := hsynced.byFlow _ e hget
    constructor
    · intro hcond
      obtain ⟨hnone, hissued⟩ := hcond
      have he : flow.Issued e := (hissued .flow _ e hget).mpr rfl
      refine ⟨fun x hx hxi => ?_, fun x hx => ?_⟩
      · have hhash := (hissued .hash _ x hx).mp hxi
        rw [InnerStore.Live, hhash] at hx
        exact congrArg some (Option.some.inj (hlive.symm.trans hx))
      · obtain rfl := Option.some.inj hx
        exact ⟨he, hnone⟩
    · intro hcond
      obtain ⟨hsole, hindex⟩ := hcond
      obtain ⟨he, hnone⟩ := hindex e rfl
      refine ⟨hnone, fun i k x hx => ?_⟩
      obtain ⟨hxlive, hk⟩ := hsynced.files_iff i hx
      constructor
      · intro hxi
        obtain rfl := Option.some.inj (hsole x hxlive hxi)
        rw [hk]
        cases i with
        | hash => rfl
        | id => rfl
        | flow => exact hflow
      · intro hdropped
        have hsame : (stores.renewable.files i).get (droppedKey flow e i) = some e := by
          cases i with
          | hash => exact hlive
          | id => exact (hsynced.byHash _ e hlive).2
          | flow => exact hget
        rw [← hdropped, hx] at hsame
        obtain rfl := Option.some.inj hsame
        exact he

/-- A cleanup that succeeds is complete exactly when the state before it is `Cleanable`; in a store
whose maps agree this says that the flow has no live entry but the one in the flow index, and that,
if there is one, it was issued under the context of the flow and no token was received. -/
theorem cleanup_complete_iff (m : JwtTokenManager) (flow : DataFlow) (stores : Stores) :
    ((onTerminate m flow stores).1 = .ok () →
      (Clean flow stores (onTerminate m flow stores).2 ↔ Cleanable flow stores)) ∧
    ((onSuspend m flow stores).1 = .ok () →
      (Clean flow stores (onSuspend m flow stores).2 ↔ Cleanable flow stores)) ∧
    (stores.renewable.Synced → (Cleanable flow stores ↔
      (∀ e, stores.renewable.Live e → flow.Issued e →
        stores.renewable.entriesByFlowId.get flow.id = some e) ∧
      ∀ e, stores.renewable.entriesByFlowId.get flow.id = some e →
        flow.Issued e ∧ stores.tokens.get flow.tokenKey = none)) := by
  have hcleanup : (cleanupTokens m flow (buildParticipantContext flow) stores).1 = .ok () →
      (Clean flow stores (cleanupTokens m flow (buildParticipantContext flow) stores).2 ↔
        Cleanable flow stores) := by
    intro hok
    rcases cleanupTokens_cases m flow stores with
      ⟨e, hget, heq⟩ | ⟨hnone, record, -, heq⟩ | ⟨-, -, heq⟩
    · rw [heq]
      exact clean_iff_of_revoked hget
    · rw [heq]
      exact clean_iff_of_removed hnone
    · rw [heq] at hok
      exact absurd hok (by simp)
  exact ⟨hcleanup, hcleanup, cleanable_iff_of_synced⟩

/-! A handler for the concrete runs: pushes use tokens of the client. -/

def pushType : TransferType where
  transferType := "http-push"
  endpointType := "HTTP"
  endpoint := some "https://consumer/data"
  tokenSource := .client

def demoHandler : SigletDataFlowHandler where
  findMappings pc := .error (.notFound pc)
  transferTypeMappings := HashMap.empty.insert "http-push" pushType
  mapClaims _ _ := .ok HashMap.empty
  fromStr _ := none
  toJson _ := ""
  getProperty address name :=
    (address.endpointProperties.find? fun p => p.name == name).map EndpointProperty.value

def demoPair : RenewableTokenPair where
  token := "access"
  refreshToken := "refresh"
  expiresAt := 3600
  refreshEndpoint := "https://provider/token"

def demoAddress : DataAddress where
  endpointType := "HTTP"
  endpoint := "https://provider/data"
  endpointProperties := createAuthProperties 0 demoPair

def demoFlow : DataFlow where
  id := "flow"
  participantId := "did:web:consumer"
  counterPartyId := "did:web:provider"
  participantContextId := "pc"
  datasetId := "dataset"
  agreementId := "agreement"
  profile := "http-push"
  dataAddress := some demoAddress

/-- A pair was minted for the flow. -/
def preparedStores : Stores where
  renewable :=
    (demoHandler.onPrepare demoManager (demoEnv "jti" "minted") 0 demoFlow InnerStore.empty).2
  tokens := HashMap.empty

/-- A token was received as well. -/
def startedStores : Stores where
  renewable := preparedStores.renewable
  tokens := (demoHandler.onStarted 0 0 demoFlow HashMap.empty).2

def mintedEntry : RenewableTokenEntry where
  id := "jti"
  token := "jti"
  hashedRefreshToken := "minted"
  expiresAt := 172800
  subject := "did:web:provider"
  claims := HashMap.empty
  participantContextId := "pc"
  audience := "did:web:consumer"
  flowId := "flow"

theorem preparedStores_renewable :
    preparedStores.renewable = InnerStore.empty.save mintedEntry := rfl

/-- A pair and no received token: one call cleans up. -/
theorem cleanup_complete_of_prepared :
    Clean demoFlow preparedStores (onTerminate demoManager demoFlow preparedStores).2 := by
  obtain ⟨hterminate, -, hsimple⟩ := cleanup_complete_iff demoManager demoFlow preparedStores
  have hfresh := InnerStore.fresh_empty mintedEntry
  have hget : preparedStores.renewable.entriesByFlowId.get "flow" = some mintedEntry := rfl
  refine (hterminate rfl).mpr ((hsimple ?_).mpr ⟨fun e hlive _ => ?_, fun e he => ?_⟩)
  · rw [preparedStores_renewable]
    exact InnerStore.synced_empty.save hfresh
  · rw [preparedStores_renewable, InnerStore.live_save hfresh] at hlive
    rcases hlive with rfl | hlive
    · exact hget
    · exact absurd hlive (InnerStore.not_live_empty e)
  · obtain rfl := Option.some.inj (hget.symm.trans he)
    exact ⟨⟨rfl, rfl⟩, rfl⟩

/-- A pair and a received token: the call succeeds and leaves the token. -/
theorem cleanup_leaves_received_token :
    (¬ ∀ (m : JwtTokenManager) (flow : DataFlow) (stores : Stores),
      (onTerminate m flow stores).1 = .ok () → Clean flow stores (onTerminate m flow stores).2) ∧
    (onTerminate demoManager demoFlow startedStores).1 = .ok () ∧
    (((onTerminate demoManager demoFlow startedStores).2.tokens.get ("pc", "flow")).map fun r =>
      r.token) = some "access" := by
  have hleft :
      (((onTerminate demoManager demoFlow startedStores).2.tokens.get ("pc", "flow")).map fun r =>
        r.token) =
      some "access" := by rfl
  refine ⟨fun h => ?_, rfl, hleft⟩
  have hnone : (onTerminate demoManager demoFlow startedStores).2.tokens.get
      ("pc", "flow") = none :=
    (h demoManager demoFlow startedStores rfl).removed
  rw [hnone] at hleft
  exact absurd hleft (by simp)

end Facet.Siglet
