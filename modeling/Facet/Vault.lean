import Facet.Text
import Facet.TokenStore

/-!
# Secret vaults and the token store over them

`VaultClient` with its in-memory and its HashiCorp implementation, and `VaultTokenStore`
over any of them. `σ` is the state behind a client: the map of the in-memory client, the
server of the HashiCorp client. The JSON codec of a record is a parameter.
-/
namespace Facet.Vault
open Text Client

structure VaultClient (σ : Type) where
  resolveSecret : ParticipantContext → String → σ → Except VaultError String × σ
  storeSecret : ParticipantContext → String → String → σ → Except VaultError Unit × σ
  removeSecret : ParticipantContext → String → σ → Except VaultError Unit × σ

/-! ## In memory -/

def getPath (pc : ParticipantContext) (path : String) : String := pc.id ++ "/" ++ path

def MemoryVaultClient : VaultClient (HashMap String String) where
  resolveSecret pc path secrets :=
    (okOr (secrets.get (getPath pc path)) (.secretNotFound path), secrets)
  storeSecret pc path secret secrets := (.ok (), secrets.insert (getPath pc path) secret)
  removeSecret pc path secrets := (.ok (), secrets.remove (getPath pc path))

/-! ## HashiCorp Vault, KV version 2 -/

structure HashicorpVaultConfig where
  vaultUrl : String
  mountPath : Option String := none
  softDelete : Bool
  transitMountPath : Option String := none
  signingKeyName : Option String := none
  jwtKidTransformer : Option (String → String) := none

inductive HttpMethod
  | get
  | post
  | delete
  deriving DecidableEq, Repr

structure HttpRequest where
  method : HttpMethod
  url : String
  vaultToken : String
  json : Option Value := none

/-- The `data` of a transit read response: the public key of each version by its number. -/
structure TransitKeyData where
  latestVersion : ℕ
  keys : HashMap String String

/-- `text` is the body when it can be read; `data`, `transitKey` and `transitSignature` are the body
as a KV read, a transit read and a transit sign response. -/
structure HttpResponse where
  status : ℕ
  statusText : String
  text : Option String
  data : Except String Value := .error "missing field"
  transitKey : Except String TransitKeyData := .error "missing field"
  transitSignature : Except String String := .error "missing field"

def HttpResponse.isSuccess (response : HttpResponse) : Bool :=
  decide (200 ≤ response.status ∧ response.status < 300)

/-- `send` is the HTTP client together with the server it talks to. -/
structure HashicorpVaultClient (σ : Type) where
  config : HashicorpVaultConfig
  send : HttpRequest → σ → Except String HttpResponse × σ
  token : Option (ParticipantContext → Except VaultError String)

def contentKey : String := "content"

def handleErrorResponse (response : HttpResponse) (context : String) : VaultError :=
  let message := context ++ " with status " ++ response.statusText ++ ": " ++ response.text.getD ""
  match response.status with
  | 400 => .invalidData message
  | 401 => .authenticationError message
  | 403 => .permissionDenied message
  | 404 => .invalidData message
  | _ => .networkError message

def field (name : String) : Value → Option Value
  | .object fields => (fields.find? (fun entry => entry.1 == name)).map Prod.snd
  | _ => none

namespace HashicorpVaultClient
variable {σ : Type} (c : HashicorpVaultClient σ)

def kvUrl (pc : ParticipantContext) (path : String) : String :=
  c.config.vaultUrl ++ "/v1/" ++ c.config.mountPath.getD "secret" ++ "/data/" ++
    pc.id ++ "/" ++ path

def kvMetadataUrl (pc : ParticipantContext) (path : String) : String :=
  c.config.vaultUrl ++ "/v1/" ++ c.config.mountPath.getD "secret" ++ "/metadata/" ++
    pc.id ++ "/" ++ path

/-- `token_provider()?.token(pc)`. -/
def tokenFor (pc : ParticipantContext) : Except VaultError String :=
  match c.token with
  | none => .error (.notInitializedError "Call initialize() first.")
  | some provider => provider pc

/-- The frame of every operation: a token, one request, and a verdict on the response. -/
def request {α : Type} (pc : ParticipantContext) (failure : String) (build : String → HttpRequest)
    (verdict : HttpResponse → Except VaultError α) (s : σ) : Except VaultError α × σ :=
  match c.tokenFor pc with
  | .error e => (.error e, s)
  | .ok token =>
    let (response, s') := c.send (build token) s
    (response.mapError (fun e => .networkError (failure ++ ": " ++ e)) >>= verdict, s')

def readSecret (path : String) (response : HttpResponse) : Except VaultError String :=
  if response.status = 404 then .error (.secretNotFound path)
  else if response.isSuccess = false then
    .error (handleErrorResponse response "Failed to read secret")
  else
    match response.data with
    | .error e => .error (.invalidData ("Failed to parse secret response: " ++ e))
    | .ok data =>
      match (field contentKey data).bind Value.asStr with
      | some secret => .ok secret
      | none => .error (.invalidData "Content field not found or not a string")

def succeed (context : String) (response : HttpResponse) : Except VaultError Unit :=
  if response.isSuccess then .ok () else .error (handleErrorResponse response context)

def writeBody (secret : String) : Value :=
  .object [("data", .object [(contentKey, .string secret)])]

def client : VaultClient σ where
  resolveSecret pc path :=
    c.request pc "Failed to read secret" (fun token => ⟨.get, c.kvUrl pc path, token, none⟩)
      (readSecret path)
  storeSecret pc path secret :=
    c.request pc "Failed to write secret" (fun token =>
      ⟨.post, c.kvUrl pc path, token, some (writeBody secret)⟩)
      (succeed ("Failed to write secret to path " ++ path))
  removeSecret pc path :=
    let url := if c.config.softDelete then c.kvUrl pc path else c.kvMetadataUrl pc path
    c.request pc "Failed to delete secret" (fun token => ⟨.delete, url, token, none⟩)
      (succeed ("Failed to delete secret at path " ++ path))

end HashicorpVaultClient

/-! ## The token store -/

structure VaultTokenRecord where
  participantId : String
  counterPartyId : String
  token : String
  refreshToken : String
  expiresAt : ℤ
  refreshEndpoint : String
  endpoint : String
  deriving DecidableEq, Repr

structure VaultTokenStore (σ : Type) where
  vaultClient : VaultClient σ
  subpath : Option String := none
  toJson : VaultTokenRecord → Except String String
  fromJson : String → Except String VaultTokenRecord

def mapVaultErr (e : VaultError) (identifier : String) : TokenError :=
  match e with
  | .secretNotFound _ => .tokenNotFound identifier
  | _ => .databaseError e.message

def VaultTokenRecord.data (record : VaultTokenRecord) (pc identifier : String) : TokenData where
  identifier := identifier
  participantContext := pc
  participantId := record.participantId
  counterPartyId := record.counterPartyId
  token := record.token
  refreshToken := record.refreshToken
  expiresAt := record.expiresAt
  refreshEndpoint := record.refreshEndpoint
  endpoint := record.endpoint

def vaultRecord (data : TokenData) : VaultTokenRecord where
  participantId := data.participantId
  counterPartyId := data.counterPartyId
  token := data.token
  refreshToken := data.refreshToken
  expiresAt := data.expiresAt
  refreshEndpoint := data.refreshEndpoint
  endpoint := data.endpoint

/-- The record after a refresh: participants and endpoint stay. -/
def VaultTokenRecord.refresh (current : VaultTokenRecord) (data : RefreshedTokenData) :
    VaultTokenRecord :=
  { current with
    token := data.token
    refreshToken := data.refreshToken
    expiresAt := data.expiresAt
    refreshEndpoint := data.refreshEndpoint }

namespace VaultTokenStore
variable {σ : Type} (store : VaultTokenStore σ)

def trimmedSubpath (s : String) : List Char :=
  trimMatches (· == '/') (trimMatches isWhitespace s.toList)

def key (identifier : String) : String :=
  match store.subpath.map trimmedSubpath with
  | some sub => if sub ≠ [] then String.ofList sub ++ "/" ++ identifier else identifier
  | none => identifier

def deserialize (json : String) : Except TokenError VaultTokenRecord :=
  (store.fromJson json).mapError
    (fun e => .databaseError ("Failed to deserialize token record: " ++ e))

def serialize (record : VaultTokenRecord) : Except TokenError String :=
  (store.toJson record).mapError
    (fun e => .databaseError ("Failed to serialize token record: " ++ e))

/-- The read at the start of `get_token` and `update_token`. -/
def readRecord (pc : ParticipantContext) (identifier : String) (s : σ) :
    Except TokenError VaultTokenRecord × σ :=
  let (json, s') := store.vaultClient.resolveSecret pc (store.key identifier) s
  (json.mapError (mapVaultErr · identifier) >>= store.deserialize, s')

/-- The write at the end of `save_token` and `update_token`. -/
def writeRecord (pc : ParticipantContext) (identifier : String) (record : VaultTokenRecord)
    (s : σ) : Except TokenError Unit × σ :=
  match store.serialize record with
  | .error e => (.error e, s)
  | .ok json =>
    let (result, s') := store.vaultClient.storeSecret pc (store.key identifier) json s
    (result.mapError (fun e => .databaseError e.message), s')

def getToken (pc : ParticipantContext) (identifier : String) (s : σ) :
    Except TokenError TokenData × σ :=
  let (record, s') := store.readRecord pc identifier s
  (record.map (fun record => record.data pc.id identifier), s')

def saveToken (data : TokenData) (s : σ) : Except TokenError Unit × σ :=
  store.writeRecord { id := data.participantContext } data.identifier (vaultRecord data) s

def updateToken (participantContext identifier : String) (data : RefreshedTokenData) (s : σ) :
    Except TokenError Unit × σ :=
  let (current, s') := store.readRecord { id := participantContext } identifier s
  match current with
  | .error e => (.error e, s')
  | .ok current =>
    store.writeRecord { id := participantContext } identifier (current.refresh data) s'

def removeToken (participantContext identifier : String) (s : σ) : Except TokenError Unit × σ :=
  let (result, s') :=
    store.vaultClient.removeSecret { id := participantContext } (store.key identifier) s
  (result.mapError (mapVaultErr · identifier), s')

end VaultTokenStore
end Facet.Vault
