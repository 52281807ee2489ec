import Facet.ClaimMapper
import Facet.KeyedList

/-!
# Merged claim mappings

The mappings of the endpoint that matched laid over those of its transfer type: in place, so
that the order of evaluation is that of the configuration. A claim that the endpoint maps is
computed from the mapping of the endpoint.
-/
namespace Facet.Siglet
open KeyedList

theorem placeMapping_eq_upsert (mapping : ClaimMapping) (merged : List ClaimMapping) :
    placeMapping mapping merged = upsert ClaimMapping.to mapping merged := by
  induction merged with
  | nil => rfl
  | cons existing rest ih => rw [placeMapping, upsert, ih]

theorem mergeClaimMappings_eq_overlay (root : List ClaimMapping)
    (endpoint : Option (List ClaimMapping)) :
    mergeClaimMappings root endpoint = overlay ClaimMapping.to root (endpoint.getD []) := by
  unfold mergeClaimMappings overlay
  simp only [placeMapping_eq_upsert]

namespace CelClaimMapper
variable {cel : Cel} {context : cel.Context}

/-- What has been cached does not change what a mapping binds. -/
theorem mapClaim_fst_eq (m m' : CelClaimMapper cel) (context : cel.Context)
    (mapping : ClaimMapping) :
    (m.mapClaim context mapping).1 = (m'.mapClaim context mapping).1 := by
  simp only [mapClaim, programFor_fst]

theorem get_mapFrom_of_not_mem (mappings : List ClaimMapping) (claims : HashMap String Value)
    (m : CelClaimMapper cel) {result : HashMap String Value}
    (hok : (mapFrom context mappings claims m).1 = .ok result) {claim : String}
    (hclaim : claim ∉ mappings.map ClaimMapping.to) : result.get claim = claims.get claim := by
  induction mappings generalizing claims m with
  | nil =>
    obtain rfl : claims = result := Except.ok.inj hok
    rfl
  | cons mapping mappings ih =>
    rw [List.map_cons, List.mem_cons, not_or] at hclaim
    rw [mapFrom_cons] at hok
    cases hmap : m.mapClaim context mapping with
    | mk bound m' =>
      rw [hmap] at hok
      cases bound with
      | error e => exact absurd hok (by simp)
      | ok bound =>
        rw [ih _ m' hok hclaim.2]
        cases bound with
        | none => rfl
        | some json => rw [bindClaim, HashMap.get_insert, if_neg hclaim.1]

/-- With distinct targets, a key has the value that its own mapping binds. -/
theorem get_mapFrom_of_mem (mappings : List ClaimMapping) (claims : HashMap String Value)
    (m : CelClaimMapper cel) {result : HashMap String Value}
    (hok : (mapFrom context mappings claims m).1 = .ok result)
    (hnodup : (mappings.map ClaimMapping.to).Nodup) {mapping : ClaimMapping}
    (hmapping : mapping ∈ mappings) : ∃ bound, (m.mapClaim context mapping).1 = .ok bound ∧
      result.get mapping.to = bound.or (claims.get mapping.to) := by
  induction mappings generalizing claims m with
  | nil => simp at hmapping
  | cons first mappings ih =>
    rw [List.map_cons, List.nodup_cons] at hnodup
    rw [mapFrom_cons] at hok
    cases hmap : m.mapClaim context first with
    | mk bound m' =>
      rw [hmap] at hok
      cases bound with
      | error e => exact absurd hok (by simp)
      | ok bound =>
        rcases List.mem_cons.mp hmapping with rfl | hrest
        · refine ⟨bound, by rw [hmap], ?_⟩
          rw [get_mapFrom_of_not_mem mappings _ m' hok hnodup.1]
          cases bound with
          | none => rfl
          | some json => rw [bindClaim, HashMap.get_insert, if_pos rfl, Option.some_or]
        · have hne : mapping.to ≠ first.to := fun heq => hnodup.1 (heq ▸ List.mem_map_of_mem hrest)
          obtain ⟨bound', hbound', hget⟩ := ih _ m' hok hnodup.2 hrest
          refine ⟨bound', (mapClaim_fst_eq m m' context mapping).trans hbound', ?_⟩
          rw [hget]
          cases bound with
          | none => rfl
          | some json => rw [bindClaim, HashMap.get_insert, if_neg hne]

theorem get_mapClaims_of_mem {m : CelClaimMapper cel} {h : SigletDataFlowHandler}
    {mappings : List ClaimMapping} {flow : DataFlow} {details : FlowDetails}
    {result : HashMap String Value} (hok : (m.mapClaims h mappings flow details).1 = .ok result)
    (hnodup : (mappings.map ClaimMapping.to).Nodup) {mapping : ClaimMapping}
    (hmapping : mapping ∈ mappings) : ∃ context, cel.flowContext h flow details = .ok context ∧
      (m.mapClaim context mapping).1 = .ok (result.get mapping.to) := by
  cases hcontext : cel.flowContext h flow details with
  | error e =>
    cases mappings with
    | nil => simp at hmapping
    | cons first mappings => simp [mapClaims, hcontext] at hok
  | ok context =>
    rw [m.mapClaims_eq_mapFrom mappings hcontext] at hok
    obtain ⟨bound, hbound, hget⟩ := get_mapFrom_of_mem mappings HashMap.empty m hok hnodup hmapping
    rw [HashMap.get_empty, Option.or_none] at hget
    exact ⟨context, rfl, hget ▸ hbound⟩

end CelClaimMapper

/-- The merge: targets stay distinct, those of the root keep their places and the new ones of the
endpoint follow in their order; the mapping of a target is that of the endpoint if it has one; the
endpoint's mappings merged again change nothing; and a claim that the endpoint maps has the value
that the endpoint's own mapping comes to. -/
theorem mergeClaimMappings_right_biased (root : List ClaimMapping)
    (endpoint : Option (List ClaimMapping)) (hroot : (root.map ClaimMapping.to).Nodup)
    (hendpoint : ((endpoint.getD []).map ClaimMapping.to).Nodup) :
    ((mergeClaimMappings root endpoint).map ClaimMapping.to).Nodup ∧
    ((mergeClaimMappings root endpoint).take root.length).map ClaimMapping.to =
      root.map ClaimMapping.to ∧
    ((mergeClaimMappings root endpoint).drop root.length).map ClaimMapping.to =
      ((endpoint.getD []).map ClaimMapping.to).filter (fun target =>
        decide (target ∉ root.map ClaimMapping.to)) ∧
    (∀ target, lookup ClaimMapping.to target (mergeClaimMappings root endpoint) =
      (lookup ClaimMapping.to target (endpoint.getD [])).or (lookup ClaimMapping.to target root)) ∧
    (∀ mapping, mapping ∈ mergeClaimMappings root endpoint ↔ mapping ∈ endpoint.getD [] ∨
      mapping ∈ root ∧ mapping.to ∉ (endpoint.getD []).map ClaimMapping.to) ∧
    mergeClaimMappings (mergeClaimMappings root endpoint) endpoint =
      mergeClaimMappings root endpoint ∧
    ∀ {cel : Cel} (m : CelClaimMapper cel) (h : SigletDataFlowHandler) (flow : DataFlow)
      (details : FlowDetails) (result : HashMap String Value),
      (m.mapClaims h (mergeClaimMappings root endpoint) flow details).1 = .ok result →
        ∀ mapping ∈ endpoint.getD [], ∃ context, cel.flowContext h flow details = .ok context ∧
          (m.mapClaim context mapping).1 = .ok (result.get mapping.to) := by
  rw [mergeClaimMappings_eq_overlay root endpoint, mergeClaimMappings_eq_overlay _ endpoint]
  have hkeys := map_overlay root hendpoint
  have hlength : (root.map ClaimMapping.to).length = root.length := List.length_map ..
  have hnodup := nodup_overlay (endpoint.getD []) hroot
  refine ⟨hnodup, ?_, ?_, ?_, mem_overlay hroot hendpoint, overlay_overlay root hendpoint, ?_⟩
  · rw [List.map_take, hkeys, ← hlength]
    exact List.take_left
  · rw [List.map_drop, hkeys, ← hlength]
    exact List.drop_left
  · exact fun target => lookup_overlay target root hendpoint
  · intro cel m h flow details result hok mapping hmapping
    have hmerged := (mem_overlay hroot hendpoint mapping).mpr (Or.inl hmapping)
    exact CelClaimMapper.get_mapClaims_of_mem hok hnodup hmerged

/-- An engine whose expressions are texts. -/
def textCel : Cel where
  Program := String
  Context := Unit
  Result := String
  compileText := fun expression => .ok expression
  bindFlow := fun _ => .ok ()
  execute := fun program _ => .ok program
  isNull := fun _ => false
  json := fun result => .ok (.string result)

def rootMappings : List ClaimMapping := [⟨"gold", "tier", false⟩, ⟨"eu", "region", false⟩]

def endpointMappings : List ClaimMapping := [⟨"a", "zone", false⟩, ⟨"silver", "tier", false⟩]

def mergedClaims : HashMap String Value :=
  ((HashMap.empty.insert "tier" (.string "silver")).insert "region" (.string "eu")).insert
    "zone" (.string "a")

theorem merged_tier :
    ((mergeClaimMappings rootMappings (some endpointMappings)).take 2).map ClaimMapping.to =
      ["tier", "region"] ∧
    ∃ context, textCel.flowContext demoHandler demoFlow demoDetails = .ok context ∧
      ((CelClaimMapper.new : CelClaimMapper textCel).mapClaim context ⟨"silver", "tier", false⟩).1 =
        .ok (mergedClaims.get "tier") := by
  obtain ⟨-, hkept, -, -, -, -, hclaims⟩ :=
    mergeClaimMappings_right_biased rootMappings (some endpointMappings) (by decide) (by decide)
  exact ⟨hkept, hclaims CelClaimMapper.new demoHandler demoFlow demoDetails mergedClaims rfl
    ⟨"silver", "tier", false⟩ (by decide)⟩

end Facet.Siglet
