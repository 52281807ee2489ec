import Facet.ClaimMapper
import Facet.TransferTypes
import Facet.JsonText

/-!
# JSON in metadata

A metadata value that is a string of JSON stands for what the string says, however often it has
been quoted. Endpoint mappings are compared with the text of that value, so a plain string
matches itself unless it is JSON that is printed in another way.
-/
namespace Facet.Siglet
open Renewable JsonText

namespace SigletDataFlowHandler
variable (h : SigletDataFlowHandler)

/-- The reader inverts the printer, and what it reads as a string is the text of one. -/
structure LawfulJson : Prop where
  inverse : ∀ v, h.fromStr (h.toJson v) = some v
  strings : ∀ text s, h.fromStr text = some (.string s) → StringText text.toList s.toList

/-- The recursion of `unwrap_json_value`, call by call. -/
inductive Unwraps : Value → Value → Prop
  | parsed {s : String} {parsed v : Value} : h.fromStr s = some parsed → Unwraps parsed v →
      Unwraps (.string s) v
  | text {s : String} : h.fromStr s = none → Unwraps (.string s) (.string s)
  | other {v : Value} : v.asStr = none → Unwraps v v

/-- The rounds that every caller gives. -/
def unwrapped (v : Value) : Value := h.unwrapJsonValue ((v.asStr.getD "").length + 1) v

/-- A value as JSON text in a string, so many times over. -/
def encoded (v : Value) : ℕ → Value
  | 0 => v
  | n + 1 => .string (h.toJson (encoded v n))

/-- Each value of a map encoded as often as its key says. -/
def encodedMap (source : HashMap String Value) (depth : String → ℕ) : HashMap String Value :=
  source.mapValues fun key v => h.encoded v (depth key)

/-- What a value is compared by. -/
def flattened : Value → String
  | .null => ""
  | .bool b => toString b
  | .string s => s
  | other => h.toJson other

variable {h}

theorem LawfulJson.length_lt (hlawful : h.LawfulJson) {text s : String}
    (hread : h.fromStr text = some (.string s)) : s.length < text.length := by
  have hlt := (hlawful.strings text s hread).length_lt
  rwa [String.length_toList, String.length_toList] at hlt

theorem unwrapJsonValue_of_asStr {v : Value} (hv : v.asStr = none) (n : ℕ) :
    h.unwrapJsonValue n v = v := by
  cases n <;> cases v <;> first | rfl | exact absurd hv (by simp [Value.asStr])

/-! ## The recursion ends -/

theorem unwraps_unwrapJsonValue (hlawful : h.LawfulJson) {n : ℕ} {v : Value}
    (hn : (v.asStr.getD "").length < n) : h.Unwraps v (h.unwrapJsonValue n v) := by
  induction n generalizing v with
  | zero => exact absurd hn (Nat.not_lt_zero _)
  | succ n ih =>
    cases hv : v.asStr with
    | none =>
      rw [unwrapJsonValue_of_asStr hv]
      exact .other hv
    | some s =>
      obtain rfl : v = .string s := Value.eqStr_iff.mp (by simp [Value.eqStr, hv])
      rw [unwrapJsonValue]
      cases hread : h.fromStr s with
      | none => exact .text hread
      | some parsed =>
        refine .parsed hread ?_
        dsimp only
        cases hparsed : parsed.asStr with
        | none =>
          rw [unwrapJsonValue_of_asStr hparsed]
          exact .other hparsed
        | some t =>
          obtain rfl : parsed = .string t := Value.eqStr_iff.mp (by simp [Value.eqStr, hparsed])
          have hlt := hlawful.length_lt hread
          simp only [Value.asStr, Option.getD_some] at hn ⊢
          exact ih (by simp only [Value.asStr, Option.getD_some]; omega)

theorem Unwraps.eq_of_asStr {v w : Value} (hw : h.Unwraps v w) (hv : v.asStr = none) : w = v := by
  cases hw with
  | parsed _ _ => exact absurd hv (by simp [Value.asStr])
  | text _ => rfl
  | other _ => rfl

theorem Unwraps.unique {v w w' : Value} (hw : h.Unwraps v w) (hw' : h.Unwraps v w') : w = w' := by
  induction hw with
  | parsed hread _ ih =>
    cases hw' with
    | parsed hread' hrest =>
      rw [hread] at hread'
      exact ih (Option.some.inj hread' ▸ hrest)
    | text hread' => exact absurd (hread.symm.trans hread') (by simp)
    | other hv => exact absurd hv (by simp [Value.asStr])
  | text hread =>
    cases hw' with
    | parsed hread' _ => exact absurd (hread.symm.trans hread') (by simp)
    | text _ => rfl
    | other _ => rfl
  | other hv => exact (hw'.eq_of_asStr hv).symm

theorem Unwraps.fromStr_eq_none {v : Value} {s : String} (hw : h.Unwraps v (.string s)) :
    h.fromStr s = none := by
  generalize hresult : Value.string s = w at hw
  induction hw with
  | parsed _ _ ih => exact ih hresult
  | text hread =>
    obtain rfl := Value.string.inj hresult
    exact hread
  | other hv =>
    subst hresult
    exact absurd hv (by simp [Value.asStr])

theorem Unwraps.length_le (hlawful : h.LawfulJson) {v w : Value} (hw : h.Unwraps v w) :
    (w.asStr.getD "").length ≤ (v.asStr.getD "").length := by
  induction hw with
  | @parsed s parsed v hread _ ih =>
    refine ih.trans ?_
    cases parsed with
    | string t => exact (hlawful.length_lt hread).le
    | _ => exact Nat.zero_le _
  | text _ => exact le_rfl
  | other _ => exact le_rfl

theorem unwraps_unwrapped (hlawful : h.LawfulJson) (v : Value) : h.Unwraps v (h.unwrapped v) :=
  unwraps_unwrapJsonValue hlawful (Nat.lt_succ_self _)

theorem unwrapped_of_fromStr (hlawful : h.LawfulJson) {s : String} {parsed : Value}
    (hread : h.fromStr s = some parsed) : h.unwrapped (.string s) = h.unwrapped parsed :=
  (unwraps_unwrapped hlawful _).unique (.parsed hread (unwraps_unwrapped hlawful parsed))

theorem unwrapped_of_fromStr_none {s : String} (hread : h.fromStr s = none) :
    h.unwrapped (.string s) = .string s := by
  rw [unwrapped, unwrapJsonValue, hread]

theorem unwrapped_of_asStr {v : Value} (hv : v.asStr = none) : h.unwrapped v = v :=
  unwrapJsonValue_of_asStr hv _

theorem unwrapped_unwrapped (hlawful : h.LawfulJson) (v : Value) :
    h.unwrapped (h.unwrapped v) = h.unwrapped v := by
  have hw := unwraps_unwrapped hlawful v
  cases hv : h.unwrapped v with
  | string s =>
    rw [hv] at hw
    exact unwrapped_of_fromStr_none hw.fromStr_eq_none
  | null => exact unwrapped_of_asStr rfl
  | bool b => exact unwrapped_of_asStr rfl
  | number mantissa exponent => exact unwrapped_of_asStr rfl
  | array items => exact unwrapped_of_asStr rfl
  | object fields => exact unwrapped_of_asStr rfl

/-! ## Encodings do not show -/

theorem unwrapped_encoded (hlawful : h.LawfulJson) (v : Value) (n : ℕ) :
    h.unwrapped (h.encoded v n) = h.unwrapped v := by
  induction n with
  | zero => rfl
  | succ n ih =>
    rw [encoded, unwrapped_of_fromStr hlawful (hlawful.inverse _)]
    exact ih

theorem unwrapMap_encodedMap (hlawful : h.LawfulJson) (source : HashMap String Value)
    (depth : String → ℕ) : h.unwrapMap (h.encodedMap source depth) = h.unwrapMap source := by
  have hentry : ∀ entry : String × Value,
      (entry.1, h.unwrapped (h.encoded entry.2 (depth entry.1))) =
        (entry.1, h.unwrapped entry.2) := by
    intro entry
    rw [unwrapped_encoded hlawful]
  rw [unwrapMap, unwrapMap, encodedMap, HashMap.mapValues]
  simp only [List.map_map]
  exact congrArg Value.object (List.map_congr_left fun entry _ => hentry entry)

theorem valueToClaimString_eq (v : Value) :
    h.valueToClaimString v = h.flattened (h.unwrapped v) := rfl

theorem matchesFlow_encodedMap (hlawful : h.LawfulJson) (flow : DataFlow) (depth : String → ℕ)
    (mapping : EndpointMapping) :
    h.matchesFlow { flow with metadata := h.encodedMap flow.metadata depth } mapping =
      h.matchesFlow flow mapping := by
  rw [matchesFlow, matchesFlow, encodedMap, HashMap.get_mapValues]
  cases flow.metadata.get mapping.key with
  | none => rfl
  | some v =>
    rw [Option.map_some, Option.any_some, Option.any_some, valueToClaimString_eq,
      valueToClaimString_eq, unwrapped_encoded hlawful]

/-- The recursion ends on every value with one result, never a text of JSON; unwrapping what is
unwrapped changes nothing, nor do layers of encoding. So an expression sees the same document and a
flow matches the same endpoint however often each value was encoded. -/
theorem unwrap_json_value_encoded (hlawful : h.LawfulJson) :
    (∀ v, h.Unwraps v (h.unwrapped v) ∧ ∀ w, h.Unwraps v w → w = h.unwrapped v) ∧
    (∀ v s, h.unwrapped v = .string s → h.fromStr s = none) ∧
    (∀ v, h.unwrapped (h.unwrapped v) = h.unwrapped v) ∧
    (∀ v n, h.unwrapped (h.encoded v n) = h.unwrapped v) ∧
    ∀ (flow : DataFlow) (details : FlowDetails) (metadataDepth claimsDepth : String → ℕ),
      h.flowToValue { flow with metadata := h.encodedMap flow.metadata metadataDepth }
          { details with claims := h.encodedMap details.claims claimsDepth } =
            h.flowToValue flow details ∧
        ∀ transferType, h.resolveEndpoint transferType
          { flow with metadata := h.encodedMap flow.metadata metadataDepth } =
            h.resolveEndpoint transferType flow := by
  refine ⟨?_, ?_, unwrapped_unwrapped hlawful, unwrapped_encoded hlawful, ?_⟩
  · intro v
    exact ⟨unwraps_unwrapped hlawful v, fun w hw => hw.unique (unwraps_unwrapped hlawful v)⟩
  · intro v s hv
    have hw := unwraps_unwrapped hlawful v
    rw [hv] at hw
    exact hw.fromStr_eq_none
  · intro flow details metadataDepth claimsDepth
    constructor
    · simp only [flowToValue, unwrapMap_encodedMap hlawful]
    · intro transferType
      have hmatches := funext (matchesFlow_encodedMap hlawful flow metadataDepth)
      simp only [resolveEndpoint, hmatches]

end SigletDataFlowHandler

namespace SigletDataFlowHandler
variable {h : SigletDataFlowHandler}

/-! ## Plain strings -/

variable (h) in
/-- The string is no JSON, or it is JSON of a value that is neither null nor a string and is
compared by just this text. -/
def MatchesItself (s : String) : Prop :=
  ∀ v, h.fromStr s = some v → v ≠ .null ∧ v.asStr = none ∧ h.flattened v = s

theorem LawfulJson.fromStr_toString_bool (hlawful : h.LawfulJson) (b : Bool) (t : String) :
    h.fromStr (toString b) ≠ some (.string t) := by
  intro hread
  obtain ⟨before, body, after, htext, -⟩ := hlawful.strings _ t hread
  have hquote : '"' ∈ (toString b).toList := by simp [htext]
  cases b <;> exact absurd hquote (by decide)

theorem flattened_ne_of_fromStr_string (hlawful : h.LawfulJson) {s t : String} (hs : s ≠ "")
    (hread : h.fromStr s = some (.string t)) : h.flattened (h.unwrapped (.string t)) ≠ s := by
  have hlength := (unwraps_unwrapped hlawful (.string t)).length_le hlawful
  have hprinted : ∀ w, w.asStr = none → h.toJson w ≠ s := by
    intro w hw heq
    have hinverse := hlawful.inverse w
    rw [heq, hread] at hinverse
    rw [← Option.some.inj hinverse] at hw
    exact absurd hw (by simp [Value.asStr])
  intro hflat
  cases hw : h.unwrapped (.string t) with
  | null =>
    rw [hw] at hflat
    exact hs hflat.symm
  | bool b =>
    rw [hw] at hflat
    obtain rfl : toString b = s := hflat
    exact hlawful.fromStr_toString_bool b t hread
  | string u =>
    rw [hw] at hflat hlength
    obtain rfl : u = s := hflat
    have hlt := hlawful.length_lt hread
    simp only [Value.asStr, Option.getD_some] at hlength
    omega
  | number mantissa exponent => exact hprinted _ rfl (hw ▸ hflat)
  | array items => exact hprinted _ rfl (hw ▸ hflat)
  | object fields => exact hprinted _ rfl (hw ▸ hflat)

theorem flattened_unwrapped_string {s : String} (hlawful : h.LawfulJson) (hs : s ≠ "") :
    h.flattened (h.unwrapped (.string s)) = s ↔ h.MatchesItself s := by
  constructor
  · intro hflat v hread
    rw [unwrapped_of_fromStr hlawful hread] at hflat
    cases hv : v.asStr with
    | none =>
      rw [unwrapped_of_asStr hv] at hflat
      refine ⟨?_, rfl, hflat⟩
      rintro rfl
      exact hs hflat.symm
    | some t =>
      obtain rfl : v = .string t := Value.eqStr_iff.mp (by simp [Value.eqStr, hv])
      exact absurd hflat (flattened_ne_of_fromStr_string hlawful hs hread)
  · intro hself
    cases hread : h.fromStr s with
    | none => rw [unwrapped_of_fromStr_none hread, flattened]
    | some v =>
      obtain ⟨-, hv, hflat⟩ := hself v hread
      rw [unwrapped_of_fromStr hlawful hread, unwrapped_of_asStr hv, hflat]

/-- The first of the mappings of which `P` holds. -/
def FirstSuch (P : EndpointMapping → Prop) (mappings : List EndpointMapping)
    (mapping : EndpointMapping) : Prop :=
  ∃ before after, mappings = before ++ mapping :: after ∧ P mapping ∧ ∀ other ∈ before, ¬ P other

theorem firstSuch_iff {p : EndpointMapping → Bool} {mappings : List EndpointMapping}
    {mapping : EndpointMapping} :
    mappings.find? p = some mapping ↔ FirstSuch (fun m => p m = true) mappings mapping := by
  rw [List.find?_eq_some_iff_append]
  constructor
  · intro hfind
    obtain ⟨hmapping, before, after, happend, hbefore⟩ := hfind
    exact ⟨before, after, happend, hmapping,
      fun other hother => by simpa using hbefore other hother⟩
  · intro hfirst
    obtain ⟨before, after, happend, hmapping, hbefore⟩ := hfirst
    exact ⟨hmapping, before, after, happend,
      fun other hother => by simpa using hbefore other hother⟩

theorem FirstSuch.congr {P Q : EndpointMapping → Prop} {mappings : List EndpointMapping}
    {mapping : EndpointMapping} (hPQ : ∀ m ∈ mappings, P m ↔ Q m) : FirstSuch P mappings mapping ↔
      FirstSuch Q mappings mapping := by
  refine exists_congr fun before => exists_congr fun after => and_congr_right fun happend => ?_
  subst happend
  refine and_congr (hPQ mapping (by simp)) (forall₂_congr fun other hother => not_congr ?_)
  exact hPQ other (List.mem_append_left _ hother)

theorem resolveEndpoint_eq_ok {transferType : TransferType}
    (hmappings : transferType.endpointMappings ≠ []) (flow : DataFlow) {endpoint : String}
    {mapping : EndpointMapping} :
    h.resolveEndpoint transferType flow = .ok (endpoint, some mapping) ↔
      endpoint = mapping.endpoint ∧
      transferType.endpointMappings.find? (h.matchesFlow flow) = some mapping := by
  unfold resolveEndpoint
  split
  · rename_i heq
    exact absurd heq hmappings
  · cases transferType.endpointMappings.find? (h.matchesFlow flow) with
    | none => simp
    | some found =>
      simp only [Except.ok.injEq, Prod.mk.injEq, Option.some.injEq]
      constructor
      · rintro ⟨rfl, rfl⟩
        exact ⟨rfl, rfl⟩
      · rintro ⟨rfl, rfl⟩
        exact ⟨rfl, rfl⟩

theorem matchesFlow_iff (flow : DataFlow) (mapping : EndpointMapping) :
    h.matchesFlow flow mapping = true ↔
    ∃ v, flow.metadata.get mapping.key = some v ∧ h.flattened (h.unwrapped v) = mapping.value := by
  rw [matchesFlow]
  cases flow.metadata.get mapping.key with
  | none => simp
  | some v => simp [valueToClaimString_eq]

/-- A plain string matches itself exactly when it is no JSON or JSON printed as it is written. The
endpoint is that of the first mapping whose value is the text of what its metadata value unwraps to;
where all of these are strings that match themselves, that of the first mapping whose value is the
string itself. -/
theorem resolve_endpoint_plain_strings (hlawful : h.LawfulJson) {transferType : TransferType}
    (hmappings : transferType.endpointMappings ≠ []) (flow : DataFlow) :
    (∀ mapping ∈ transferType.endpointMappings, mapping.value ≠ "" →
      flow.metadata.get mapping.key = some (.string mapping.value) →
        (h.matchesFlow flow mapping = true ↔ h.MatchesItself mapping.value)) ∧
    (∀ endpoint mapping, h.resolveEndpoint transferType flow = .ok (endpoint, some mapping) ↔
      endpoint = mapping.endpoint ∧ FirstSuch (fun m => ∃ v, flow.metadata.get m.key = some v ∧
        h.flattened (h.unwrapped v) = m.value) transferType.endpointMappings mapping) ∧
    ((∀ mapping ∈ transferType.endpointMappings, ∀ v, flow.metadata.get mapping.key = some v →
        ∃ s, s ≠ "" ∧ v = .string s ∧ h.MatchesItself s) →
      ∀ endpoint mapping, h.resolveEndpoint transferType flow = .ok (endpoint, some mapping) ↔
        endpoint = mapping.endpoint ∧
          FirstSuch (fun m => flow.metadata.get m.key = some (.string m.value))
          transferType.endpointMappings mapping) := by
  refine ⟨?_, ?_, ?_⟩
  · intro mapping _ hvalue hget
    rw [matchesFlow, hget, Option.any_some, beq_iff_eq, valueToClaimString_eq]
    exact flattened_unwrapped_string hlawful hvalue
  · intro endpoint mapping
    rw [resolveEndpoint_eq_ok hmappings, firstSuch_iff]
    exact and_congr_right fun _ => FirstSuch.congr fun m _ => matchesFlow_iff flow m
  · intro hplain endpoint mapping
    rw [resolveEndpoint_eq_ok hmappings, firstSuch_iff]
    refine and_congr_right fun _ => FirstSuch.congr fun m hm => ?_
    rw [matchesFlow_iff]
    constructor
    · intro hmatch
      obtain ⟨v, hget, hflat⟩ := hmatch
      obtain ⟨s, hs, rfl, hself⟩ := hplain m hm v hget
      rw [(flattened_unwrapped_string hlawful hs).mpr hself] at hflat
      rw [hget, hflat]
    · intro hget
      obtain ⟨s, hs, heq, hself⟩ := hplain m hm _ hget
      obtain rfl : m.value = s := Value.string.inj heq
      exact ⟨_, hget, (flattened_unwrapped_string hlawful hs).mpr hself⟩

end SigletDataFlowHandler

/-- The handler whose JSON library is the reader and the writer of texts. -/
def jsonHandler : SigletDataFlowHandler where
  findMappings := demoHandler.findMappings
  transferTypeMappings := demoHandler.transferTypeMappings
  mapClaims := demoHandler.mapClaims
  fromStr text := read text.toList
  toJson v := String.ofList (write v)
  getProperty := demoHandler.getProperty

theorem jsonHandler_lawful : jsonHandler.LawfulJson where
  inverse v := by
    change read (String.ofList (write v)).toList = some v
    rw [String.toList_ofList]
    exact read_write v
  strings text s hread := stringText_of_read hread

/-- The region sent as quoted JSON, twice over. -/
theorem unwrap_json_value_eu : jsonHandler.unwrapped (jsonHandler.encoded (.string "eu") 2) =
    jsonHandler.unwrapped (.string "eu") :=
  (SigletDataFlowHandler.unwrap_json_value_encoded jsonHandler_lawful).2.2.2.1 (.string "eu") 2

/-- Endpoints by region. -/
def regionType (regions : List String) : TransferType where
  transferType := "http-pull"
  endpointType := "HTTP"
  endpoint := none
  endpointMappings :=
    regions.map fun region => { key := "region", value := region, endpoint := "https://data" }

def regionFlow (region : String) : DataFlow :=
  { demoFlow with metadata := HashMap.empty.insert "region" (.string region) }

theorem resolve_endpoint_eu :
    jsonHandler.resolveEndpoint (regionType ["us", "eu"]) (regionFlow "eu") =
      .ok ("https://data",
        some { key := "region", value := "eu", endpoint := "https://data" }) := by
  have hread : jsonHandler.fromStr "eu" = none := by decide
  refine ((SigletDataFlowHandler.resolve_endpoint_plain_strings jsonHandler_lawful (by decide)
    (regionFlow "eu")).2.2 ?_ _ _).mpr ⟨rfl, [_], [], rfl, rfl, ?_⟩
  · intro mapping hmapping v hget
    have hkey : mapping.key = "region" := by
      obtain ⟨region, -, rfl⟩ := List.mem_map.mp hmapping
      rfl
    rw [hkey] at hget
    obtain rfl : Value.string "eu" = v := Option.some.inj hget
    refine ⟨"eu", by decide, rfl, ?_⟩
    intro w hw
    exact absurd (hread.symm.trans hw) (by simp)
  · intro other hother hget
    obtain rfl := List.mem_singleton.mp hother
    exact absurd (Value.string.inj (Option.some.inj hget)) (by decide)

/-- The word null is read as the null of JSON, whose text is empty. -/
theorem null_region_unmatched :
    ¬ ∀ (h : SigletDataFlowHandler), h.LawfulJson →
      ∀ (checks : Checks) (transferType : TransferType),
        (∀ path, checks.transferTypeErrors path transferType = []) →
          ∀ (flow : DataFlow) (k s : String), s ≠ "" →
        flow.metadata.get k = some (.string s) → ∀ mapping ∈ transferType.endpointMappings,
          mapping.key = k → mapping.value = s → h.matchesFlow flow mapping = true := by
  intro hall
  have hvalid : ∀ path, demoChecks.transferTypeErrors path (regionType ["null"]) = [] := by
    intro path
    rw [transferTypeErrors_eq_nil]
    have hmapping : ∀ mapping ∈ (regionType ["null"]).endpointMappings,
        mapping = { key := "region", value := "null", endpoint := "https://data" } :=
      fun mapping hmapping => List.mem_singleton.mp hmapping
    refine ⟨⟨⟨by simp [regionType], by simp [regionType]⟩, ?_⟩,
      ⟨by decide, by decide, by simp [regionType], ?_⟩⟩
    · intro mapping hm
      rw [hmapping mapping hm]
      exact ⟨by simp, by simp⟩
    · intro mapping hm
      rw [hmapping mapping hm]
      exact ⟨by decide, by decide, by decide⟩
  have hmatch :=
    hall jsonHandler jsonHandler_lawful demoChecks (regionType ["null"]) hvalid
      (regionFlow "null") "region"
      "null" (by decide) rfl { key := "region", value := "null", endpoint := "https://data" }
        (by simp [regionType]) rfl rfl
  exact absurd hmatch (by decide)

end Facet.Siglet
