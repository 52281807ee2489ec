import Facet.KeyedStore
import Facet.TokenStoreAgreement

/-!
# The token store over a secrets engine

A KV engine of version 2 keeps the versions of a secret, of which the client sees the current one: a
write adds a version, a soft delete marks the current one as deleted, a hard delete drops them all.
Over such an engine the token store answers like the one over the in-memory vault, but for the
requests that failed.
-/
namespace Facet.Vault
open Text Client UrlSyntax

/-! ## The engine -/

/-- What an answer to a read says of the secret: 404 that it has no current version, a document that
it is its data. -/
def Reads (current : Option Value) (answer : Except String HttpResponse) : Prop :=
  (∀ response, answer = .ok response → response.status = 404 → current = none) ∧
    ∀ response value, answer = .ok response → response.isSuccess = true →
      response.data = .ok value → current = some value

/-- A change is confirmed only when it took effect; without a confirmation it may have. -/
def Changes {γ : Type} (answer : Except String HttpResponse) (before after changed : γ) : Prop :=
  (∀ response, answer = .ok response → response.isSuccess = true → after = changed) ∧
    (after = before ∨ after = changed)

/-- A secrets engine of version 2 as it is documented. `current` is the data of the current version
of each secret. -/
structure KvEngine (P : UrlParser) (origin : List Char) (root : List (List Char)) (σ : Type) where
  send : HttpRequest → σ → Except String HttpResponse × σ
  current : σ → List (List Char) → Option Value
  reads :
    ∀ url token secret s,
      P.parse url.toList = some ⟨origin, root ++ "data".toList :: secret, none⟩ →
      Reads (current s secret) (send ⟨.get, url, token, none⟩ s).1 ∧
        current (send ⟨.get, url, token, none⟩ s).2 = current s
  writes : ∀ url token secret value s,
    P.parse url.toList = some ⟨origin, root ++ "data".toList :: secret, none⟩ →
    Changes (send ⟨.post, url, token, some (.object [("data", value)])⟩ s).1 (current s)
      (current (send ⟨.post, url, token, some (.object [("data", value)])⟩ s).2)
      (Function.update (current s) secret (some value))
  deletes : ∀ url token secret s, Addresses P origin root url secret →
    Changes (send ⟨.delete, url, token, none⟩ s).1 (current s)
      (current (send ⟨.delete, url, token, none⟩ s).2)
      (Function.update (current s) secret none)

/-- The data of a secret, as the client writes and reads it. -/
def secretData (secret : String) : Value := .object [(contentKey, .string secret)]

/-- The call failed for a reason other than that there is no such secret. -/
def Unanswered {α : Type} (result : Except VaultError α) : Prop :=
  ∃ e, result = .error e ∧ ∀ path, e ≠ .secretNotFound path

section Client
variable {σ : Type} {P : UrlParser} {origin : List Char} {root : List (List Char)}
  {c : HashicorpVaultClient σ} {engine : KvEngine P origin root σ} {s : σ}
  {secrets : HashMap String String} {pc : ParticipantContext} {path : String}

/-- The engine holds what is in memory, at every path that stays as it is in an address. -/
def KvEngine.Holds (engine : KvEngine P origin root σ) (s : σ)
    (secrets : HashMap String String) : Prop :=
  ∀ k : String, Legible P k.toList →
    engine.current s (k.toList.splitOn '/') = (secrets.get k).map secretData

/-- A client of the engine whose token provider never reports a missing secret. -/
structure Served (c : HashicorpVaultClient σ) (engine : KvEngine P origin root σ) : Prop where
  mounted : Mounted P c.config origin root
  sent : c.send = engine.send
  tokenErrors : ∀ pc path, c.tokenFor pc ≠ .error (.secretNotFound path)

/-- The paths are told apart by the secrets that they name. -/
theorem KvEngine.Holds.update (h : engine.Holds s secrets) {k : String}
    {secrets' : HashMap String String} {s' : σ} {content : Option String}
    (hs : engine.current s' =
      Function.update (engine.current s) (k.toList.splitOn '/') (content.map secretData))
    (hsecrets : ∀ j, secrets'.get j = if j = k then content else secrets.get j) :
    engine.Holds s' secrets' := by
  intro j hj
  rw [hs, hsecrets]
  by_cases hjk : j = k
  · rw [hjk, Function.update_self, if_pos rfl]
  · have hne : j.toList.splitOn '/' ≠ k.toList.splitOn '/' := fun he =>
      hjk (String.toList_injective (splitOn_injective he))
    rw [Function.update_of_ne hne, if_neg hjk]
    exact h j hj

theorem Served.kvUrl (h : Served c engine) (hl : Legible P (getPath pc path).toList) :
    P.parse (c.kvUrl pc path).toList =
      some ⟨origin, root ++ "data".toList :: (getPath pc path).toList.splitOn '/', none⟩ := by
  rw [← h.mounted.parse literal_data hl]
  simp [HashicorpVaultClient.kvUrl, getPath]

theorem Served.kvMetadataUrl (h : Served c engine) (hl : Legible P (getPath pc path).toList) :
    P.parse (c.kvMetadataUrl pc path).toList =
      some ⟨origin, root ++ "metadata".toList :: (getPath pc path).toList.splitOn '/', none⟩ := by
  rw [← h.mounted.parse literal_metadata hl]
  simp [HashicorpVaultClient.kvMetadataUrl, getPath]

end Client

/-! ## The token store -/

def StoreCall.identifier : StoreCall → String
  | .save data => data.identifier
  | .get _ identifier | .update _ identifier _ | .remove _ identifier => identifier

/-- The storage did not do what it was asked. -/
def StorageFailed {α : Type} (result : Except TokenError α) : Prop :=
  ∃ reason, result = .error (.databaseError reason)

def StoreReply.Failed (reply : StoreReply) : Prop :=
  ∃ reason, reply = .data (.error (.databaseError reason)) ∨
    reply = .done (.error (.databaseError reason))

theorem StorageFailed.data {result : Except TokenError TokenData} (h : StorageFailed result) :
    StoreReply.Failed (.data result) :=
  h.imp fun _ he => Or.inl (congrArg _ he)

theorem StorageFailed.done {result : Except TokenError Unit} (h : StorageFailed result) :
    StoreReply.Failed (.done result) :=
  h.imp fun _ he => Or.inr (congrArg _ he)

theorem Unanswered.mapError {α : Type} {result : Except VaultError α} (h : Unanswered result)
    (identifier : String) : StorageFailed (result.mapError (mapVaultErr · identifier)) := by
  obtain ⟨e, rfl, hne⟩ := h
  refine ⟨e.message, ?_⟩
  cases e with
  | secretNotFound path => exact absurd rfl (hne path)
  | _ => rfl

section Store
variable {σ : Type} {P : UrlParser} {origin : List Char} {root : List (List Char)}
  {c : HashicorpVaultClient σ} {engine : KvEngine P origin root σ} {s : σ}
  {secrets : HashMap String String} {store : VaultTokenStore σ}

end Store

/-! An engine that keeps all versions, the newest first, a deleted one without its data. -/

abbrev VersionTable : Type := HashMap (List (List Char)) (List (Option Value))

def currentVersion (secrets : VersionTable) (secret : List (List Char)) : Option Value :=
  (secrets.get secret).bind fun versions => versions.head?.join

end Facet.Vault
