import Facet.Vault
import Facet.Base64

/-!
# Signing with Vault transit keys

The `VaultSigningClient` side of the HashiCorp client: `get_key_metadata` reads the public
keys of a transit key, `sign_content` has Vault sign with it. Then the transit engine they
talk to, as far as its answers matter: the versions of a key, of which the latest signs.
-/
namespace Facet.Vault
open Text

inductive PublicKeyFormat
  | multibase
  | base64Url
  deriving DecidableEq, Repr

/-- `keys` are the public keys in the order of their versions. -/
structure KeyMetadata where
  keyName : String
  keys : List String
  currentVersion : ℕ
  deriving DecidableEq, Repr

structure VaultSigningClient (σ : Type) where
  signingKeyName : Option String
  getKeyMetadata : ParticipantContext → String → PublicKeyFormat → σ →
    Except VaultError KeyMetadata × σ
  signContent : ParticipantContext → String → List UInt8 → σ → Except VaultError (List UInt8) × σ

def standardEncode (bs : List UInt8) : String :=
  String.ofList (Base64.encodePadded Base64.standard bs)

def standardDecode (s : String) : Option (List UInt8) :=
  Base64.decodePadded Base64.standard s.toList

/-- `URL_SAFE_NO_PAD`. -/
def urlEncode (bs : List UInt8) : String := String.ofList (Base64.encode Base64.urlSafe bs)

def urlDecode (s : String) : Option (List UInt8) := Base64.decode Base64.urlSafe s.toList

theorem standardDecode_encode (bs : List UInt8) : standardDecode (standardEncode bs) = some bs := by
  rw [standardDecode, standardEncode, String.toList_ofList, Base64.decodePadded_encodePadded]

theorem urlDecode_encode (bs : List UInt8) : urlDecode (urlEncode bs) = some bs := by
  rw [urlDecode, urlEncode, String.toList_ofList, Base64.decode_encode]

/-- An Ed25519 public key with its multicodec prefix in base58btc. -/
def convertToMultibase (bs58Encode : List UInt8 → String) (publicKeyBase64 : String) :
    Except VaultError String := do
  let keyBytes ← okOr (standardDecode publicKeyBase64) (.invalidData "Invalid key format")
  if keyBytes.length ≠ 32 then
    throw (.invalidData ("Invalid Ed25519 key size: expected 32 bytes, got " ++
      toString keyBytes.length))
  return "z" ++ bs58Encode (0xed :: 0x01 :: keyBytes)

/-- The public key of a version, rewritten from Vault's base64 to the asked format. -/
def formatKey (bs58Encode : List UInt8 → String) (format : PublicKeyFormat) (publicKey : String) :
    Except VaultError String :=
  match format with
  | .multibase => convertToMultibase bs58Encode publicKey
  | .base64Url => do
    let keyBytes ← okOr (standardDecode publicKey) (.invalidData "Invalid key format")
    return urlEncode keyBytes

namespace HashicorpVaultClient
variable {σ : Type} (c : HashicorpVaultClient σ)

def transitUrl (operation keyName : String) : String :=
  c.config.vaultUrl ++ "/v1/" ++ c.config.transitMountPath.getD "transit" ++ "/" ++
    operation ++ "/" ++ keyName

def transitSignUrlForKey (keyName : String) : String := c.transitUrl "sign" keyName

def transitKeyUrl (keyName : String) : String := c.transitUrl "keys" keyName

/-- The version numbers of a response in ascending order. -/
def versionNumbers (data : TransitKeyData) : List ℕ :=
  (data.keys.entries.filterMap fun entry => parseU64 entry.1.toList).insertionSort (· ≤ ·)

/-- Only the keys of the versions are kept, not their numbers. -/
def keysInOrder (bs58Encode : List UInt8 → String) (format : PublicKeyFormat)
    (data : TransitKeyData) : Except VaultError (List String) :=
  ((versionNumbers data).filterMap fun version => data.keys.get version.repr).mapM
    (formatKey bs58Encode format)

def keyMetadata (bs58Encode : List UInt8 → String) (keyName : String) (format : PublicKeyFormat)
    (response : HttpResponse) : Except VaultError KeyMetadata :=
  if response.isSuccess = false then
    .error (handleErrorResponse response "Failed to read key metadata")
  else do
    let data ← response.transitKey.mapError fun e =>
      VaultError.invalidData ("Failed to parse key metadata response: " ++ e)
    let keys ← keysInOrder bs58Encode format data
    return ⟨(c.config.jwtKidTransformer.getD id) keyName, keys, data.latestVersion⟩

def signBody (content : List UInt8) : Value := .object [("input", .string (standardEncode content))]

def readSignature (response : HttpResponse) : Except VaultError (List UInt8) :=
  if response.isSuccess = false then .error (handleErrorResponse response "Failed to sign content")
  else do
    let signature ← response.transitSignature.mapError fun e =>
      VaultError.invalidData ("Failed to parse sign response: " ++ e)
    let parts ← okOr (cutLast ':' signature.toList) (.invalidData "Invalid signature format")
    okOr (standardDecode (String.ofList parts.2)) (.invalidData "Signature validation failed")

def signingClient (bs58Encode : List UInt8 → String) : VaultSigningClient σ where
  signingKeyName := c.config.signingKeyName
  getKeyMetadata pc keyName format :=
    c.request pc "Failed to read key metadata" (fun token =>
      ⟨.get, c.transitKeyUrl keyName, token, none⟩)
      (c.keyMetadata bs58Encode keyName format)
  signContent pc keyName content :=
    c.request pc "Failed to sign content"
      (fun token => ⟨.post, c.transitSignUrlForKey keyName, token, some (signBody content)⟩)
        readSignature

end HashicorpVaultClient

/-! ## The transit engine -/

/-- The versions of a transit key that exist at some moment, in no particular order. -/
structure TransitKey where
  versions : List ℕ
  nodup : versions.Nodup
  ne_nil : versions ≠ []
  bounded : ∀ v ∈ versions, v < 2 ^ 64

namespace TransitKey
variable (k : TransitKey)

def latest : ℕ := k.versions.foldr max 0

def sorted : List ℕ := k.versions.insertionSort (· ≤ ·)

/-- The keys of a transit read response. -/
def table (pub : ℕ → List UInt8) : HashMap String String where
  entries := k.versions.map fun v => (v.repr, standardEncode (pub v))
  nodup := by
    rw [List.map_map]
    exact k.nodup.map fun _ _ h => Nat.repr_injective h

theorem latest_mem : k.latest ∈ k.versions := by
  have hmax : ∀ vs : List ℕ, vs ≠ [] → vs.foldr max 0 ∈ vs := by
    intro vs
    induction vs with
    | nil => exact fun h => absurd rfl h
    | cons v vs ih =>
      intro _
      by_cases hvs : vs = []
      · simp [hvs]
      · rw [List.foldr_cons]
        rcases max_choice v (vs.foldr max 0) with h | h
        · rw [h]
          exact List.mem_cons_self
        · rw [h]
          exact List.mem_cons_of_mem v (ih hvs)
  exact hmax k.versions k.ne_nil

theorem le_latest {v : ℕ} (hv : v ∈ k.versions) : v ≤ k.latest := by
  have hmax : ∀ vs : List ℕ, v ∈ vs → v ≤ vs.foldr max 0 := by
    intro vs hv
    induction vs with
    | nil => exact absurd hv List.not_mem_nil
    | cons w vs ih =>
      rcases List.mem_cons.mp hv with rfl | hv
      · exact le_max_left _ _
      · exact (ih hv).trans (le_max_right _ _)
  exact hmax k.versions hv

theorem get_table {pub : ℕ → List UInt8} {v : ℕ} (h : v ∈ k.versions) :
    (k.table pub).get v.repr = some (standardEncode (pub v)) := by
  rw [HashMap.get_eq_some_iff]
  exact List.mem_map_of_mem h

theorem versionNumbers_table (pub : ℕ → List UInt8) (latest : ℕ) :
    HashicorpVaultClient.versionNumbers ⟨latest, k.table pub⟩ = k.sorted := by
  have hread : (k.table pub).entries.filterMap (fun entry => parseU64 entry.1.toList) =
      k.versions := by
    rw [table, List.filterMap_map]
    have hself : ∀ vs : List ℕ, (∀ v ∈ vs, v < 2 ^ 64) →
        vs.filterMap (fun v => parseU64 v.repr.toList) = vs := by
      intro vs
      induction vs with
      | nil => exact fun _ => rfl
      | cons v vs ih =>
        intro hb
        rw [List.filterMap_cons, parseU64_repr (hb v List.mem_cons_self)]
        dsimp only
        rw [ih fun w hw => hb w (List.mem_cons_of_mem v hw)]
    exact hself k.versions k.bounded
  rw [HashicorpVaultClient.versionNumbers, hread, sorted]

theorem mem_sorted {v : ℕ} : v ∈ k.sorted ↔ v ∈ k.versions := List.mem_insertionSort _

theorem length_sorted : k.sorted.length = k.versions.length := List.length_insertionSort _ _

end TransitKey

/-- The text of a public key in the asked format. -/
def keyText (bs58Encode : List UInt8 → String) (publicKey : List UInt8) : PublicKeyFormat → String
  | .multibase => "z" ++ bs58Encode (0xed :: 0x01 :: publicKey)
  | .base64Url => urlEncode publicKey

theorem formatKey_standardEncode (bs58Encode : List UInt8 → String) (format : PublicKeyFormat)
    {publicKey : List UInt8} (h : publicKey.length = 32) :
    formatKey bs58Encode format (standardEncode publicKey) =
      .ok (keyText bs58Encode publicKey format) := by
  cases format with
  | multibase =>
    simp [formatKey, convertToMultibase, standardDecode_encode, okOr, h, keyText, bind, Except.bind,
      pure, Except.pure]
  | base64Url =>
    simp [formatKey, standardDecode_encode, okOr, keyText, bind, Except.bind, pure, Except.pure]

/-- Vault as the server of a client. Requests may fail; when they do not, a read lists all versions
that the named key has in that state, and a signature is by the latest one, whose number stands
before it. -/
structure TransitEngine {σ : Type} (c : HashicorpVaultClient σ) (keyName : String) where
  key : σ → TransitKey
  pub : ℕ → List UInt8
  sign : ℕ → List UInt8 → List UInt8
  pub_length : ∀ v, (pub v).length = 32
  read_keeps : ∀ token s, (c.send ⟨.get, c.transitKeyUrl keyName, token, none⟩ s).2 = s
  sign_keeps : ∀ token content s,
    (c.send ⟨.post, c.transitSignUrlForKey keyName, token,
      some (HashicorpVaultClient.signBody content)⟩ s).2 = s
  reads :
    ∀ token s response, (c.send ⟨.get, c.transitKeyUrl keyName, token, none⟩ s).1 = .ok response →
      response.isSuccess = true → response.transitKey = .ok ⟨(key s).latest, (key s).table pub⟩
  signs : ∀ token content s response,
    (c.send ⟨.post, c.transitSignUrlForKey keyName, token,
      some (HashicorpVaultClient.signBody content)⟩ s).1 =
      .ok response → response.isSuccess = true →
    response.transitSignature =
      .ok ("vault:v" ++ (key s).latest.repr ++ ":" ++ standardEncode (sign (key s).latest content))

/-- An operation that succeeds sent its request and accepted the response. -/
theorem HashicorpVaultClient.request_ok {σ : Type} {c : HashicorpVaultClient σ} {α : Type}
    {pc : ParticipantContext} {failure : String} {build : String → HttpRequest}
    {verdict : HttpResponse → Except VaultError α} {s : σ} {a : α}
    (h : (c.request pc failure build verdict s).1 = .ok a) :
    ∃ token response, (c.send (build token) s).1 = .ok response ∧ verdict response = .ok a := by
  unfold HashicorpVaultClient.request at h
  cases ht : c.tokenFor pc with
  | error e => simp [ht] at h
  | ok token =>
    simp only [ht] at h
    obtain ⟨response, hr, hv⟩ := bind_eq_ok.mp h
    exact ⟨token, response, mapError_eq_ok.mp hr, hv⟩

namespace TransitEngine
variable {σ : Type} {c : HashicorpVaultClient σ} {keyName : String} (E : TransitEngine c keyName)

theorem keysInOrder_table (bs58Encode : List UInt8 → String) (format : PublicKeyFormat) (s : σ) :
    HashicorpVaultClient.keysInOrder bs58Encode format ⟨(E.key s).latest, (E.key s).table E.pub⟩ =
      .ok ((E.key s).sorted.map fun v => keyText bs58Encode (E.pub v) format) := by
  have hkeys : ∀ vs : List ℕ, (∀ v ∈ vs, v ∈ (E.key s).versions) →
      (vs.filterMap fun v => ((E.key s).table E.pub).get v.repr).mapM
        (formatKey bs58Encode format) =
        .ok (vs.map fun v => keyText bs58Encode (E.pub v) format) := by
    intro vs
    induction vs with
    | nil => exact fun _ => rfl
    | cons v vs ih =>
      intro hmem
      rw [List.filterMap_cons, TransitKey.get_table _ (hmem v List.mem_cons_self)]
      dsimp only
      rw [List.mapM_cons, formatKey_standardEncode bs58Encode format (E.pub_length v),
        ih fun w hw => hmem w (List.mem_cons_of_mem v hw)]
      rfl
  rw [HashicorpVaultClient.keysInOrder, TransitKey.versionNumbers_table]
  exact hkeys _ fun v hv => (TransitKey.mem_sorted _).mp hv

include E in
theorem getKeyMetadata_state (bs58Encode : List UInt8 → String) (pc : ParticipantContext)
    (format : PublicKeyFormat) (s : σ) :
    ((c.signingClient bs58Encode).getKeyMetadata pc keyName format s).2 = s := by
  simp only [HashicorpVaultClient.signingClient, HashicorpVaultClient.request]
  cases c.tokenFor pc with
  | error e => rfl
  | ok token => exact E.read_keeps token s

include E in
theorem signContent_state (bs58Encode : List UInt8 → String) (pc : ParticipantContext)
    (content : List UInt8) (s : σ) :
    ((c.signingClient bs58Encode).signContent pc keyName content s).2 = s := by
  simp only [HashicorpVaultClient.signingClient, HashicorpVaultClient.request]
  cases c.tokenFor pc with
  | error e => rfl
  | ok token => exact E.sign_keeps token content s

/-- What `get_key_metadata` returns over the engine. -/
theorem getKeyMetadata_ok {bs58Encode : List UInt8 → String} {pc : ParticipantContext}
    {format : PublicKeyFormat} {s : σ} {metadata : KeyMetadata}
    (h : ((c.signingClient bs58Encode).getKeyMetadata pc keyName format s).1 = .ok metadata) :
    metadata = ⟨(c.config.jwtKidTransformer.getD id) keyName,
      (E.key s).sorted.map (fun v => keyText bs58Encode (E.pub v) format), (E.key s).latest⟩ := by
  obtain ⟨token, response, hsend, hverdict⟩ := HashicorpVaultClient.request_ok h
  unfold HashicorpVaultClient.keyMetadata at hverdict
  split_ifs at hverdict with hok
  rw [Bool.not_eq_false] at hok
  rw [E.reads token s response hsend hok] at hverdict
  obtain ⟨data, hdata, hverdict⟩ := bind_eq_ok.mp hverdict
  obtain rfl := Except.ok.inj hdata
  obtain ⟨keys, hkeys, hverdict⟩ := bind_eq_ok.mp hverdict
  rw [E.keysInOrder_table] at hkeys
  obtain rfl := Except.ok.inj hkeys
  exact (Except.ok.inj hverdict).symm

theorem cutLast_signature (version : ℕ) (signature : List UInt8) :
    cutLast ':' ("vault:v" ++ version.repr ++ ":" ++ standardEncode signature).toList =
      some (("vault:v" ++ version.repr).toList, (standardEncode signature).toList) := by
  have hnot : ':' ∉ (standardEncode signature).toList := by
    rw [standardEncode, String.toList_ofList]
    exact Base64.notMem_encodePadded (by decide) (by decide) _
  have happend := cutLast_append ("vault:v" ++ version.repr).toList hnot
  simpa [String.toList_append] using happend

/-- A read that the server answers with success gives the metadata. -/
theorem getKeyMetadata_of_success (bs58Encode : List UInt8 → String) {pc : ParticipantContext}
    (format : PublicKeyFormat) {s : σ} {token : String} {response : HttpResponse}
    (htoken : c.tokenFor pc = .ok token)
    (hsend : (c.send ⟨.get, c.transitKeyUrl keyName, token, none⟩ s).1 = .ok response)
    (hok : response.isSuccess = true) :
    ((c.signingClient bs58Encode).getKeyMetadata pc keyName format s).1 =
      .ok ⟨(c.config.jwtKidTransformer.getD id) keyName,
        (E.key s).sorted.map (fun v => keyText bs58Encode (E.pub v) format), (E.key s).latest⟩ := by
  simp only [HashicorpVaultClient.signingClient, HashicorpVaultClient.request, htoken, hsend,
    Except.mapError, bind, Except.bind, HashicorpVaultClient.keyMetadata, hok,
    E.reads token s response hsend hok, Bool.true_eq_false, if_false, E.keysInOrder_table]
  rfl

/-- What `sign_content` returns over the engine: the version before the signature is dropped. -/
theorem signContent_ok {bs58Encode : List UInt8 → String} {pc : ParticipantContext}
    {content : List UInt8} {s : σ} {signature : List UInt8}
    (h : ((c.signingClient bs58Encode).signContent pc keyName content s).1 = .ok signature) :
    signature = E.sign (E.key s).latest content := by
  obtain ⟨token, response, hsend, hverdict⟩ := HashicorpVaultClient.request_ok h
  unfold HashicorpVaultClient.readSignature at hverdict
  split_ifs at hverdict with hok
  rw [Bool.not_eq_false] at hok
  rw [E.signs token content s response hsend hok] at hverdict
  simp only [Except.mapError, bind, Except.bind, cutLast_signature, okOr, String.ofList_toList,
    standardDecode_encode, Except.ok.injEq] at hverdict
  exact hverdict.symm

/-- A sign request that the server answers with success gives the signature. -/
theorem signContent_of_success (bs58Encode : List UInt8 → String) {pc : ParticipantContext}
    {content : List UInt8} {s : σ} {token : String} {response : HttpResponse}
    (htoken : c.tokenFor pc = .ok token)
    (hsend : (c.send ⟨.post, c.transitSignUrlForKey keyName, token,
      some (HashicorpVaultClient.signBody content)⟩ s).1 = .ok response) (hok :
        response.isSuccess = true) :
    ((c.signingClient bs58Encode).signContent pc keyName content s).1 =
      .ok (E.sign (E.key s).latest content) := by
  simp only [HashicorpVaultClient.signingClient, HashicorpVaultClient.request, htoken, hsend,
    Except.mapError, bind, Except.bind, HashicorpVaultClient.readSignature, hok,
    E.signs token content s response hsend hok, Bool.true_eq_false, if_false, cutLast_signature,
    okOr, String.ofList_toList, standardDecode_encode]

end TransitEngine

/-! A transit engine for the concrete runs: its keys are functions of their version, and a signature
names the version before the content. -/

abbrev DemoKeys := String → TransitKey

def demoPublicKey (v : ℕ) : List UInt8 := List.replicate 32 (UInt8.ofNat v)

def demoSign (v : ℕ) (content : List UInt8) : List UInt8 := UInt8.ofNat v :: content

def demoTransitBase : String := "http://vault:8200/v1/transit/"

/-- The key name of a transit address. -/
def demoKeyName (operation url : String) : Option String :=
  (stripPrefix (demoTransitBase ++ operation ++ "/").toList url.toList).map String.ofList

def demoInput (json : Option Value) : List UInt8 :=
  (((json.bind (field "input")).bind Value.asStr).bind standardDecode).getD []

def demoKeyResponse (k : TransitKey) : HttpResponse where
  status := 200
  statusText := "200 OK"
  text := none
  transitKey := .ok ⟨k.latest, k.table demoPublicKey⟩

def demoSignResponse (k : TransitKey) (content : List UInt8) : HttpResponse where
  status := 200
  statusText := "200 OK"
  text := none
  transitSignature :=
    .ok ("vault:v" ++ k.latest.repr ++ ":" ++ standardEncode (demoSign k.latest content))

def demoNotFound : HttpResponse where
  status := 404
  statusText := "404 Not Found"
  text := none

def demoTransitSend (request : HttpRequest) (keys : DemoKeys) :
    Except String HttpResponse × DemoKeys :=
  match request.method with
  | .get =>
    (.ok (((demoKeyName "keys" request.url).map fun name => demoKeyResponse (keys name)).getD
      demoNotFound), keys)
  | .post => (.ok (((demoKeyName "sign" request.url).map fun name =>
      demoSignResponse (keys name) (demoInput request.json)).getD demoNotFound), keys)
  | .delete => (.ok demoNotFound, keys)

def demoVault : HashicorpVaultClient DemoKeys where
  config :=
    { vaultUrl := "http://vault:8200", softDelete := false,
      signingKeyName := some "signing-siglet" }
  send := demoTransitSend
  token := some fun _ => .ok "vault-token"

theorem demoKeyName_transitUrl (operation keyName : String) :
    demoKeyName operation (demoVault.transitUrl operation keyName) = some keyName := by
  have htext : (demoVault.transitUrl operation keyName).toList =
      (demoTransitBase ++ operation ++ "/").toList ++ keyName.toList := by
    simp [HashicorpVaultClient.transitUrl, demoVault, demoTransitBase, String.toList_append]
  rw [demoKeyName, stripPrefix_eq_some_iff.mpr htext]
  simp

theorem demoInput_signBody (content : List UInt8) :
    demoInput (some (HashicorpVaultClient.signBody content)) = content := by
  simp [demoInput, HashicorpVaultClient.signBody, field, Value.asStr, standardDecode_encode]

theorem demo_sendRead (token keyName : String) (keys : DemoKeys) :
    (demoTransitSend ⟨.get, demoVault.transitKeyUrl keyName, token, none⟩ keys).1 =
      .ok (demoKeyResponse (keys keyName)) := by
  change Except.ok
    (((demoKeyName "keys" (demoVault.transitUrl "keys" keyName)).map _).getD demoNotFound) = _
  rw [demoKeyName_transitUrl]
  rfl

theorem demo_sendSign (token keyName : String) (content : List UInt8) (keys : DemoKeys) :
    (demoTransitSend ⟨.post, demoVault.transitSignUrlForKey keyName, token,
      some (HashicorpVaultClient.signBody content)⟩ keys).1 =
        .ok (demoSignResponse (keys keyName) content) := by
  change Except.ok (((demoKeyName "sign" (demoVault.transitUrl "sign" keyName)).map fun name =>
    demoSignResponse (keys name) (demoInput (some (HashicorpVaultClient.signBody content)))).getD
      demoNotFound) = _
  rw [demoKeyName_transitUrl, demoInput_signBody]
  rfl

def demoEngine (keyName : String) : TransitEngine demoVault keyName where
  key := fun keys => keys keyName
  pub := demoPublicKey
  sign := demoSign
  pub_length := fun v => List.length_replicate
  read_keeps := fun _ _ => rfl
  sign_keeps := fun _ _ _ => rfl
  reads := by
    intro token keys response hsend _
    rw [← Except.ok.inj ((demo_sendRead token keyName keys).symm.trans hsend)]
    rfl
  signs := by
    intro token content keys response hsend _
    rw [← Except.ok.inj ((demo_sendSign token keyName content keys).symm.trans hsend)]
    rfl

theorem demo_getKeyMetadata (bs58Encode : List UInt8 → String) (pc : ParticipantContext)
    (keyName : String) (format : PublicKeyFormat) (keys : DemoKeys) :
    ((demoVault.signingClient bs58Encode).getKeyMetadata pc keyName format keys).1 =
      .ok ⟨keyName, (keys keyName).sorted.map
        (fun v => keyText bs58Encode (demoPublicKey v) format), (keys keyName).latest⟩ :=
  (demoEngine keyName).getKeyMetadata_of_success bs58Encode format rfl
    (demo_sendRead _ keyName keys) rfl

theorem demo_signContent (bs58Encode : List UInt8 → String) (pc : ParticipantContext)
    (keyName : String) (content : List UInt8) (keys : DemoKeys) :
    ((demoVault.signingClient bs58Encode).signContent pc keyName content keys).1 =
      .ok (demoSign (keys keyName).latest content) :=
  (demoEngine keyName).signContent_of_success bs58Encode rfl
    (demo_sendSign _ keyName content keys) rfl

end Facet.Vault
