import Facet.SigletConfig
import Facet.TokenStore
import Facet.Text

/-!
# The signalling handler

`SigletDataFlowHandler`: what the lifecycle events of a data flow do to the renewable-token
store of the token manager and to the store of received tokens. The claim mapper, the JSON
library and the properties of a data address are those of other crates and fields of the
handler. Timestamps are seconds here; the token store keeps milliseconds.
-/
namespace Facet.Siglet
open Renewable Client Text

structure EndpointProperty where
  name : String
  value : String
  deriving DecidableEq, Repr

structure DataAddress where
  endpointType : String
  endpoint : String
  endpointProperties : List EndpointProperty
  deriving DecidableEq, Repr

/-- The fields of a flow that the handler reads. -/
structure DataFlow where
  id : String
  participantId : String
  counterPartyId : String
  participantContextId : String
  datasetId : String
  agreementId : String
  profile : String
  metadata : HashMap String Value := HashMap.empty
  dataAddress : Option DataAddress := none

inductive DataFlowState
  | prepared
  | started
  deriving DecidableEq, Repr

structure DataFlowStatusMessage where
  dataFlowId : String
  state : DataFlowState
  dataAddress : Option DataAddress
  deriving DecidableEq, Repr

inductive HandlerError
  | generic (message : String)
  deriving DecidableEq, Repr

inductive TransferTypeMappingError
  | notFound (participantContextId : String)
  | alreadyExists (participantContextId : String)
  | storage (message : String)
  deriving DecidableEq, Repr

def TransferTypeMappingError.message : TransferTypeMappingError → String
  | .notFound pc => "No transfer type mapping for participant context: " ++ pc
  | .alreadyExists pc => "Transfer type mapping already exists for participant context: " ++ pc
  | .storage message => "Storage error: " ++ message

/-- `findMappings` is the repository's lookup by participant context; `fromStr` and `toJson` read
and print JSON; `mapClaims` evaluates claim mappings, with the text of its error. -/
structure SigletDataFlowHandler where
  findMappings : String → Except TransferTypeMappingError (HashMap String TransferType)
  transferTypeMappings : HashMap String TransferType
  mapClaims : List ClaimMapping → DataFlow → Except String (HashMap String Value)
  fromStr : String → Option Value
  toJson : Value → String
  getProperty : DataAddress → String → Option String

/-- The names of the properties that carry a token pair. -/
structure PropertyNames where
  authorization : String
  authType : String
  refreshToken : String
  expiresIn : String
  refreshEndpoint : String

def authNames : PropertyNames where
  authorization := "authorization"
  authType := "authType"
  refreshToken := "refreshToken"
  expiresIn := "expiresIn"
  refreshEndpoint := "refreshEndpoint"

def txRenewalNames : PropertyNames where
  authorization := "https://w3id.org/edc/v0.0.1/ns/authorization"
  authType := "https://w3id.org/tractusx/auth/authType"
  refreshToken := "https://w3id.org/tractusx/auth/refreshToken"
  expiresIn := "https://w3id.org/tractusx/auth/expiresIn"
  refreshEndpoint := "https://w3id.org/tractusx/auth/refreshEndpoint"

/-- The lifetime is relative to `now`. -/
def pairProperties (names : PropertyNames) (now : ℤ) (pair : RenewableTokenPair) :
    List EndpointProperty :=
  [⟨names.authorization, pair.token⟩, ⟨names.authType, "bearer"⟩,
    ⟨names.refreshToken, pair.refreshToken⟩, ⟨names.expiresIn, toString (pair.expiresAt - now)⟩,
    ⟨names.refreshEndpoint, pair.refreshEndpoint⟩]

def createAuthProperties (now : ℤ) (pair : RenewableTokenPair) : List EndpointProperty :=
  pairProperties authNames now pair

def createTxRenewalProperties (now : ℤ) (aud : String) (pair : RenewableTokenPair) :
    List EndpointProperty :=
  pairProperties txRenewalNames now pair ++
    [⟨"https://w3id.org/tractusx/auth/refreshAudience", aud⟩]

structure RenewalProperties where
  token : String
  refreshEndpoint : String
  refreshToken : String
  expiresAt : ℤ
  deriving DecidableEq, Repr

/-- An entry with the same target is replaced in place. -/
def placeMapping (mapping : ClaimMapping) : List ClaimMapping → List ClaimMapping
  | [] => [mapping]
  | existing :: rest =>
    if existing.to = mapping.to then mapping :: rest else existing :: placeMapping mapping rest

def mergeClaimMappings (root : List ClaimMapping) (endpoint : Option (List ClaimMapping)) :
    List ClaimMapping :=
  (endpoint.getD []).foldl (fun merged mapping => placeMapping mapping merged) root

def buildParticipantContext (flow : DataFlow) : ParticipantContext where
  id := flow.participantContextId
  identifier := flow.participantId
  audience := flow.participantId

namespace SigletDataFlowHandler
variable (h : SigletDataFlowHandler)

/-- A string that is itself JSON is read; each reading makes the text shorter, which bounds the
rounds. -/
def unwrapJsonValue : ℕ → Value → Value
  | rounds + 1, .string s =>
    match h.fromStr s with
    | some parsed => unwrapJsonValue rounds parsed
    | none => .string s
  | _, v => v

def valueToClaimString (v : Value) : String :=
  match h.unwrapJsonValue ((v.asStr.getD "").length + 1) v with
  | .null => ""
  | .bool b => toString b
  | .string s => s
  | other => h.toJson other

/-- Stored mappings of a context replace the static ones, unless there are none. -/
def resolveTransferType (flow : DataFlow) : Except HandlerError (Option TransferType) :=
  match h.findMappings flow.participantContextId with
  | .ok mappings =>
    match mappings.entries with
    | [] => .ok (h.transferTypeMappings.get flow.profile)
    | _ => .ok (mappings.get flow.profile)
  | .error (.notFound _) => .ok (h.transferTypeMappings.get flow.profile)
  | .error e => .error (.generic ("Failed to load transfer type mappings: " ++ e.message))

def getTransferType (flow : DataFlow) : Except HandlerError TransferType := do
  let transferType ← h.resolveTransferType flow
  okOr transferType (.generic ("Unsupported profile: " ++ flow.profile))

def matchesFlow (flow : DataFlow) (mapping : EndpointMapping) : Bool :=
  (flow.metadata.get mapping.key).any fun v => h.valueToClaimString v == mapping.value

def resolveEndpoint (transferType : TransferType) (flow : DataFlow) :
    Except HandlerError (String × Option EndpointMapping) :=
  match transferType.endpointMappings with
  | [] =>
    match transferType.endpoint with
    | some endpoint => .ok (endpoint, none)
    | none => .error (.generic
        ("No endpoint configured for transfer type '" ++ transferType.transferType ++ "'"))
  | mappings =>
    match mappings.find? (h.matchesFlow flow) with
    | some mapping => .ok (mapping.endpoint, some mapping)
    | none => .error (.generic
        ("No endpoint mapping matched for flow '" ++ flow.id ++ "' with profile '" ++
          flow.profile ++ "'"))

/-- The claims that a provider's token always carries. -/
def flowClaims (flow : DataFlow) : TokenSource → HashMap String Value
  | .client => HashMap.empty
  | .provider => (((HashMap.empty.insert "agreementId" (Value.string flow.agreementId)).insert
      "participantId" (.string flow.participantId)).insert
      "counterPartyId" (.string flow.counterPartyId)).insert "datasetId" (.string flow.datasetId)

/-- The claims of a token: those of the flow, then the configured mappings over them. -/
def tokenClaims (config : TransferType) (endpointMapping : Option EndpointMapping) (flow : DataFlow)
    (requiredSource : TokenSource) : Except HandlerError (HashMap String Value) :=
  let claims := flowClaims flow requiredSource
  match mergeClaimMappings config.claimMappings
    (endpointMapping.map EndpointMapping.claimMappings) with
  | [] => .ok claims
  | mappings =>
    match h.mapClaims mappings flow with
    | .ok mapped =>
      .ok (mapped.entries.foldl (fun claims entry => claims.insert entry.1 entry.2) claims)
    | .error e => .error (.generic ("Failed to map claims for flow '" ++ flow.id ++ "': " ++ e))

def generateToken (m : JwtTokenManager) (env : CallEnv) (store : InnerStore)
    (pc : ParticipantContext) (config : TransferType) (endpointMapping : Option EndpointMapping)
    (flow : DataFlow) (requiredSource : TokenSource) :
    Except HandlerError RenewableTokenPair × InnerStore :=
  match h.tokenClaims config endpointMapping flow requiredSource with
  | .error e => (.error e, store)
  | .ok claims =>
    let (pair, store') := m.generatePair env store pc flow.counterPartyId claims flow.id
    (pair.mapError fun e => .generic ("Failed to generate token pair: " ++ e.message), store')

def pairAddress (now : ℤ) (transferType : TransferType) (endpoint : String) (flow : DataFlow)
    (pair : RenewableTokenPair) : DataAddress where
  endpointType := transferType.endpointType
  endpoint := endpoint
  endpointProperties :=
    if transferType.txRenewalSupport then createTxRenewalProperties now flow.participantId pair
    else createAuthProperties now pair

/-- `on_start` and `on_prepare`: a token is minted only by the side that is the source of tokens.
`now` is the clock reading for the lifetime in the address. -/
def handleFlow (m : JwtTokenManager) (env : CallEnv) (now : ℤ) (flow : DataFlow)
    (requiredSource : TokenSource) (state : DataFlowState) (store : InnerStore) :
    Except HandlerError DataFlowStatusMessage × InnerStore :=
  match h.getTransferType flow with
  | .error e => (.error e, store)
  | .ok transferType =>
    if transferType.tokenSource ≠ requiredSource then (.ok ⟨flow.id, state, none⟩, store)
    else
      match h.resolveEndpoint transferType flow with
      | .error e => (.error e, store)
      | .ok (endpoint, endpointMapping) =>
        let (pair, store') :=
          h.generateToken m env store (buildParticipantContext flow) transferType endpointMapping
            flow requiredSource
        (pair.map fun pair =>
          ⟨flow.id, state, some (pairAddress now transferType endpoint flow pair)⟩, store')

def onStart (m : JwtTokenManager) (env : CallEnv) (now : ℤ) (flow : DataFlow) (store : InnerStore) :
    Except HandlerError DataFlowStatusMessage × InnerStore :=
  h.handleFlow m env now flow .provider .started store

def onPrepare (m : JwtTokenManager) (env : CallEnv) (now : ℤ) (flow : DataFlow)
    (store : InnerStore) : Except HandlerError DataFlowStatusMessage × InnerStore :=
  h.handleFlow m env now flow .client .prepared store

/-- Reading a pair back from an address: the lifetime counts from `now`. -/
def readPairProperties (names : PropertyNames) (now : ℤ) (address : DataAddress) :
    Except HandlerError RenewalProperties := do
  let token ← okOr (h.getProperty address names.authorization)
    (.generic "Data address must contain an authorization property")
  let refreshToken ← okOr (h.getProperty address names.refreshToken)
    (.generic "Data address must contain a refreshToken property")
  let refreshEndpoint ← okOr (h.getProperty address names.refreshEndpoint)
    (.generic "Data address must contain a refreshEndpoint property")
  let text ← okOr (h.getProperty address names.expiresIn)
    (.generic "Data address must contain an expiresIn property")
  let expiresIn ← okOr (parseI64 text.toList) (.generic "Invalid expiresIn format")
  let expiresAt ← okOr (fromTimestamp (Int.bmod (now + expiresIn) (2 ^ 64)))
    (.generic "Invalid expiration timestamp")
  return ⟨token, refreshEndpoint, refreshToken, expiresAt⟩

def readRenewalProperties (now : ℤ) (address : DataAddress) :
    Except HandlerError RenewalProperties :=
  h.readPairProperties authNames now address

def readTxRenewalProperties (now : ℤ) (address : DataAddress) :
    Except HandlerError RenewalProperties :=
  h.readPairProperties txRenewalNames now address

def readProperties (transferType : TransferType) (now : ℤ) (address : DataAddress) :
    Except HandlerError RenewalProperties :=
  if transferType.txRenewalSupport then h.readTxRenewalProperties now address
  else h.readRenewalProperties now address

/-- The record that `on_started` saves, if the flow has a data address. -/
def startedData (now : ℤ) (flow : DataFlow) : Except HandlerError (Option TokenData) :=
  match flow.dataAddress with
  | none => .ok none
  | some address => do
    let transferType ← h.getTransferType flow
    let properties ← h.readProperties transferType now address
    return some {
      identifier := flow.id
      participantContext := flow.participantContextId
      participantId := flow.participantId
      counterPartyId := flow.counterPartyId
      token := properties.token
      refreshToken := properties.refreshToken
      expiresAt := 1000 * properties.expiresAt
      refreshEndpoint := properties.refreshEndpoint
      endpoint := address.endpoint }

/-- `saved` is the instant of the save in milliseconds. -/
def onStarted (now saved : ℤ) (flow : DataFlow) (tokens : MemoryTokenStore) :
    Except HandlerError Unit × MemoryTokenStore :=
  match h.startedData now flow with
  | .error e => (.error e, tokens)
  | .ok none => (.ok (), tokens)
  | .ok (some data) => (.ok (), tokens.saveToken saved data)

/-! ## A pair in a data address -/

/-- A property is found by its name when no other one has it, and only if there is one of that
name. -/
structure LawfulProperties : Prop where
  found : ∀ (address : DataAddress) (p : EndpointProperty), p ∈ address.endpointProperties →
    (address.endpointProperties.map EndpointProperty.name).Nodup →
      h.getProperty address p.name = some p.value
  absent : ∀ (address : DataAddress) (name : String),
    name ∉ address.endpointProperties.map EndpointProperty.name → h.getProperty address name = none

variable {h}

theorem find_of_nodup {ps : List EndpointProperty} {p : EndpointProperty} (hp : p ∈ ps)
    (hnodup : (ps.map EndpointProperty.name).Nodup) :
    ps.find? (fun q => q.name == p.name) = some p := by
  induction ps with
  | nil => simp at hp
  | cons q rest ih =>
    rw [List.map_cons, List.nodup_cons] at hnodup
    rcases List.mem_cons.mp hp with rfl | hp
    · exact List.find?_cons_of_pos (beq_self_eq_true _)
    · have hne : q.name ≠ p.name := fun heq => hnodup.1 (heq ▸ List.mem_map_of_mem hp)
      rw [List.find?_cons_of_neg (by simpa using hne)]
      exact ih hp hnodup.2

theorem lawfulProperties_of_find (hget : ∀ address name, h.getProperty address name =
    (address.endpointProperties.find? fun p => p.name == name).map EndpointProperty.value) :
      h.LawfulProperties where
  found := by
    intro address p hp hnodup
    rw [hget, find_of_nodup hp hnodup]
    rfl
  absent := by
    intro address name hname
    rw [hget, Option.map_eq_none_iff, List.find?_eq_none]
    intro p hp heq
    exact hname (List.mem_map.mpr ⟨p, hp, beq_iff_eq.mp heq⟩)

theorem getProperty_pairAddress (hlawful : h.LawfulProperties) (now : ℤ)
    (transferType : TransferType) (endpoint : String) (flow : DataFlow) (pair : RenewableTokenPair)
    {p : EndpointProperty}
    (hp : p ∈ (pairAddress now transferType endpoint flow pair).endpointProperties) :
    h.getProperty (pairAddress now transferType endpoint flow pair) p.name = some p.value := by
  refine hlawful.found _ p hp ?_
  cases htx : transferType.txRenewalSupport with
  | false =>
    simp only [pairAddress, htx, Bool.false_eq_true, if_false, createAuthProperties,
      pairProperties, List.map_cons, List.map_nil, authNames]
    decide
  | true =>
    simp only [pairAddress, htx, if_true, createTxRenewalProperties, pairProperties,
      List.map_append, List.map_cons, List.map_nil, txRenewalNames]
    decide

/-- A pair written under the names of the reader: the lifetime must be a 64-bit number, and its sum
with the clock an instant. -/
theorem readPairProperties_of_written {names : PropertyNames} {written : ℤ} (read : ℤ)
    {pair : RenewableTokenPair} {address : DataAddress}
    (hnames : ∀ p ∈ pairProperties names written pair,
      h.getProperty address p.name = some p.value) :
    h.readPairProperties names read address =
      if -2 ^ 63 ≤ pair.expiresAt - written ∧ pair.expiresAt - written < 2 ^ 63 then
        (okOr (fromTimestamp (Int.bmod (read + (pair.expiresAt - written)) (2 ^ 64)))
          (.generic "Invalid expiration timestamp")).map fun expiresAt =>
            ⟨pair.token, pair.refreshEndpoint, pair.refreshToken, expiresAt⟩
      else .error (.generic "Invalid expiresIn format") := by
  have hauthorization := hnames ⟨names.authorization, pair.token⟩ (by simp [pairProperties])
  have hrefreshToken := hnames ⟨names.refreshToken, pair.refreshToken⟩ (by simp [pairProperties])
  have hexpiresIn :=
    hnames ⟨names.expiresIn, toString (pair.expiresAt - written)⟩ (by simp [pairProperties])
  have hendpoint := hnames ⟨names.refreshEndpoint, pair.refreshEndpoint⟩ (by simp [pairProperties])
  dsimp only at hauthorization hrefreshToken hexpiresIn hendpoint
  have hparse := parseI64_toString (pair.expiresAt - written)
  unfold readPairProperties
  simp only [hauthorization, hrefreshToken, hexpiresIn, hendpoint, okOr, bind, Except.bind]
  by_cases hbounds : -2 ^ 63 ≤ pair.expiresAt - written ∧ pair.expiresAt - written < 2 ^ 63
  · rw [if_pos hbounds] at hparse
    rw [if_pos hbounds, hparse]
    dsimp only
    cases fromTimestamp (Int.bmod (read + (pair.expiresAt - written)) (2 ^ 64)) <;> rfl
  · rw [if_neg hbounds] at hparse
    rw [if_neg hbounds, hparse]

theorem readProperties_pairAddress (hlawful : h.LawfulProperties) (written read : ℤ)
    {transferType mine : TransferType}
    (hsame : mine.txRenewalSupport = transferType.txRenewalSupport) (endpoint : String)
    (flow : DataFlow) (pair : RenewableTokenPair) {properties : RenewalProperties} :
    h.readProperties mine read (pairAddress written transferType endpoint flow pair) =
      .ok properties ↔ (-2 ^ 63 ≤ pair.expiresAt - written ∧ pair.expiresAt - written < 2 ^ 63) ∧
      ∃ expiresAt, fromTimestamp (Int.bmod (read + (pair.expiresAt - written)) (2 ^ 64)) =
        some expiresAt ∧
        properties = ⟨pair.token, pair.refreshEndpoint, pair.refreshToken, expiresAt⟩ := by
  have hget := @getProperty_pairAddress h hlawful written transferType endpoint flow pair
  have hread : ∀ names : PropertyNames,
      (∀ p ∈ pairProperties names written pair,
        h.getProperty (pairAddress written transferType endpoint flow pair) p.name = some p.value) →
      (h.readPairProperties names read (pairAddress written transferType endpoint flow pair) =
        .ok properties ↔
        (-2 ^ 63 ≤ pair.expiresAt - written ∧ pair.expiresAt - written < 2 ^ 63) ∧
        ∃ expiresAt, fromTimestamp (Int.bmod (read + (pair.expiresAt - written)) (2 ^ 64)) =
          some expiresAt ∧
          properties = ⟨pair.token, pair.refreshEndpoint, pair.refreshToken, expiresAt⟩) := by
    intro names hnames
    rw [readPairProperties_of_written read hnames]
    split_ifs with hbounds
    · rw [and_iff_right hbounds]
      cases fromTimestamp (Int.bmod (read + (pair.expiresAt - written)) (2 ^ 64)) with
      | none => simp [okOr, Except.map]
      | some expiresAt => simp [okOr, Except.map, eq_comm]
    · exact iff_of_false (by simp) fun hok => hbounds hok.1
  unfold readProperties
  rw [hsame]
  cases htx : transferType.txRenewalSupport with
  | false =>
    simp only [Bool.false_eq_true, if_false]
    refine hread authNames fun p hp => hget ?_
    simp only [pairAddress, htx, Bool.false_eq_true, if_false]
    exact hp
  | true =>
    simp only [if_true]
    refine hread txRenewalNames fun p hp => hget ?_
    simp only [pairAddress, htx, if_true]
    exact List.mem_append_left _ hp

theorem startedData_pairAddress (hlawful : h.LawfulProperties) (written read : ℤ)
    {transferType mine : TransferType} {endpoint : String} {flow received : DataFlow}
    {pair : RenewableTokenPair} (hmine : h.getTransferType received = .ok mine)
    (hsame : mine.txRenewalSupport = transferType.txRenewalSupport)
    (haddress : received.dataAddress = some (pairAddress written transferType endpoint flow pair))
    {data : TokenData} : h.startedData read received = .ok (some data) ↔
      (-2 ^ 63 ≤ pair.expiresAt - written ∧ pair.expiresAt - written < 2 ^ 63) ∧
      ∃ expiresAt, fromTimestamp (Int.bmod (read + (pair.expiresAt - written)) (2 ^ 64)) =
        some expiresAt ∧
        data = ⟨received.id, received.participantContextId, received.participantId,
          received.counterPartyId, pair.token, pair.refreshToken, 1000 * expiresAt,
          pair.refreshEndpoint, endpoint⟩ := by
  unfold startedData
  simp only [haddress, hmine, bind_eq_ok, Except.ok.injEq, exists_eq_left', pure, Except.pure,
    Option.some.injEq]
  constructor
  · intro hok
    obtain ⟨properties, hread, rfl⟩ := hok
    obtain ⟨hbounds, expiresAt, hexpires, rfl⟩ :=
      (readProperties_pairAddress hlawful written read hsame endpoint flow pair).mp hread
    exact ⟨hbounds, expiresAt, hexpires, rfl⟩
  · intro hok
    obtain ⟨hbounds, expiresAt, hexpires, rfl⟩ := hok
    exact ⟨_, (readProperties_pairAddress hlawful written read hsame endpoint flow pair).mpr
      ⟨hbounds, expiresAt, hexpires, rfl⟩, rfl⟩

theorem txRenewal_of_startedData (hlawful : h.LawfulProperties) {written read : ℤ}
    {transferType : TransferType} {endpoint : String} {flow received : DataFlow}
    {pair : RenewableTokenPair} {data : TokenData}
    (haddress : received.dataAddress = some (pairAddress written transferType endpoint flow pair))
    (hdata : h.startedData read received = .ok (some data)) :
    ∃ mine, h.getTransferType received = .ok mine ∧
      mine.txRenewalSupport = transferType.txRenewalSupport := by
  unfold startedData at hdata
  simp only [haddress, bind_eq_ok] at hdata
  obtain ⟨mine, hmine, properties, hread, -⟩ := hdata
  refine ⟨mine, hmine, ?_⟩
  by_contra hother
  have hmissing : ∀ names : PropertyNames,
      names.authorization ∉
        (pairAddress written transferType endpoint flow pair).endpointProperties.map
        EndpointProperty.name →
      h.readPairProperties names read (pairAddress written transferType endpoint flow pair) ≠
        .ok properties := by
    intro names hnames
    simp [readPairProperties, hlawful.absent _ _ hnames, okOr, bind, Except.bind]
  unfold readProperties at hread
  cases hmineTx : mine.txRenewalSupport with
  | false =>
    have htx : transferType.txRenewalSupport = true := by
      rw [hmineTx] at hother
      exact (Bool.not_eq_false _).mp (Ne.symm hother)
    rw [hmineTx, if_neg Bool.false_ne_true] at hread
    refine hmissing authNames ?_ hread
    simp only [pairAddress, htx, if_true, createTxRenewalProperties, pairProperties,
      List.map_append, List.map_cons, List.map_nil, txRenewalNames, authNames]
    decide
  | true =>
    have htx : transferType.txRenewalSupport = false := by
      rw [hmineTx] at hother
      exact (Bool.not_eq_true _).mp (Ne.symm hother)
    rw [hmineTx, if_pos rfl] at hread
    refine hmissing txRenewalNames ?_ hread
    simp only [pairAddress, htx, Bool.false_eq_true, if_false, createAuthProperties,
      pairProperties, List.map_cons, List.map_nil, authNames, txRenewalNames]
    decide

end SigletDataFlowHandler

/-- The two stores that the events of a flow touch. -/
structure Stores where
  renewable : InnerStore
  tokens : MemoryTokenStore

/-- The received token is removed only when there is nothing to revoke. -/
def cleanupTokens (m : JwtTokenManager) (flow : DataFlow) (pc : ParticipantContext)
    (stores : Stores) : Except HandlerError Unit × Stores :=
  let (revoked, renewable) := m.revokeToken stores.renewable pc flow.id
  match revoked with
  | .ok () => (.ok (), { stores with renewable := renewable })
  | .error (.tokenNotFound _) =>
    let (removed, tokens) := stores.tokens.removeToken pc.id flow.id
    (removed.mapError fun e => .generic ("Failed to remove token: " ++ e.message),
      ⟨renewable, tokens⟩)
  | .error e =>
    (.error (.generic ("Failed to revoke token: " ++ e.message)),
      { stores with renewable := renewable })

def onTerminate (m : JwtTokenManager) (flow : DataFlow) (stores : Stores) :
    Except HandlerError Unit × Stores :=
  cleanupTokens m flow (buildParticipantContext flow) stores

def onSuspend (m : JwtTokenManager) (flow : DataFlow) (stores : Stores) :
    Except HandlerError Unit × Stores :=
  cleanupTokens m flow (buildParticipantContext flow) stores

end Facet.Siglet
