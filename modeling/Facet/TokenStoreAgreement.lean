import Facet.Service
import Facet.VaultIsolation

/-!
# The two consumer token stores

`VaultTokenStore` over `MemoryVaultClient` beside `MemoryTokenStore`, call by call. They file
the same records; only the removal of a record that is not there tells them apart.
-/
namespace Facet.Vault
open Text Client

/-- A call of the `TokenStore` trait. -/
inductive StoreCall
  | save (data : TokenData)
  | get (participantContext : ParticipantContext) (identifier : String)
  | update (participantContext identifier : String) (data : RefreshedTokenData)
  | remove (participantContext identifier : String)

inductive StoreReply
  | data (result : Except TokenError TokenData)
  | done (result : Except TokenError Unit)

def StoreCall.participantContext : StoreCall → String
  | .save data => data.participantContext
  | .get pc _ => pc.id
  | .update pc _ _ | .remove pc _ => pc

/-- The in-memory store; a call comes with the reading of the store's clock. -/
def memoryStore : Service MemoryTokenStore (ℤ × StoreCall) StoreReply where
  init := HashMap.empty
  step tokens call := match call.2 with
    | .save data => (.done (.ok ()), tokens.saveToken call.1 data)
    | .get pc identifier => ((tokens.getToken call.1 pc identifier).map .data id)
    | .update pc identifier data => ((tokens.updateToken call.1 pc identifier data).map .done id)
    | .remove pc identifier => ((tokens.removeToken pc identifier).map .done id)

def vaultStore (store : VaultTokenStore (HashMap String String)) :
    Service (HashMap String String) (ℤ × StoreCall) StoreReply where
  init := HashMap.empty
  step secrets call := match call.2 with
    | .save data => ((store.saveToken data secrets).map .done id)
    | .get pc identifier => ((store.getToken pc identifier secrets).map .data id)
    | .update pc identifier data => ((store.updateToken pc identifier data secrets).map .done id)
    | .remove pc identifier => ((store.removeToken pc identifier secrets).map .done id)

/-! ## Paths of slash-free contexts -/

theorem takeWhile_slash {text rest : List Char} (h : '/' ∉ text) :
    (text ++ '/' :: rest).takeWhile (· ≠ '/') = text := by
  rw [List.takeWhile_append_of_pos]
  · simp
  · intro c hc
    simpa using fun he : c = '/' => h (he ▸ hc)

/-- A context without a slash can be read off the location. -/
theorem location_inj {subpath : Option String} {a b i j : String} (ha : '/' ∉ a.toList)
    (hb : '/' ∉ b.toList) (h : location subpath a i = location subpath b j) : a = b ∧ i = j := by
  have hab : a = b := by
    apply String.toList_injective
    have hlist : a.toList ++ '/' :: (subfolder subpath ++ i.toList) =
        b.toList ++ '/' :: (subfolder subpath ++ j.toList) := by
      simpa [location, folder] using h
    rw [← takeWhile_slash ha, hlist, takeWhile_slash hb]
  subst hab
  exact ⟨rfl, location_injective h⟩

section Stores
variable (store : VaultTokenStore (HashMap String String))

/-- The key of the map in which a record is found. -/
def path (pc identifier : String) : String := getPath { id := pc } (store.key identifier)

theorem path_inj {a b i j : String} (ha : '/' ∉ a.toList) (hb : '/' ∉ b.toList)
    (h : path store a i = path store b j) : (a, i) = (b, j) := by
  have hloc : location store.subpath a i = location store.subpath b j := by
    have := congrArg String.toList h
    rwa [path, path, toList_getPath, toList_getPath] at this
  obtain ⟨rfl, rfl⟩ := location_inj ha hb hloc
  rfl

/-- A document that reads as the record's data, or nothing on both sides. -/
inductive Filed (pc identifier : String) : Option TokenData → Option String → Prop
  | absent : Filed pc identifier none none
  | present (record : VaultTokenRecord) (json : String) (reads : store.fromJson json = .ok record) :
      Filed pc identifier (some (record.data pc identifier)) (some json)

def Mirrors (tokens : MemoryTokenStore) (secrets : HashMap String String) : Prop :=
  ∀ pc identifier, '/' ∉ pc.toList →
    Filed store pc identifier (tokens.dataAt (pc, identifier))
      (secrets.get (path store pc identifier))

/-- `serde_json` reads back every record that it has written. -/
def Codec : Prop :=
  ∀ record, ∃ json, store.toJson record = .ok json ∧ store.fromJson json = .ok record

variable {store} (hclient : store.vaultClient = MemoryVaultClient) {tokens : MemoryTokenStore}
  {secrets : HashMap String String} {pc identifier : String}

/-! ### What a call does to the document at its path -/

include hclient in
theorem readRecord_absent (context : ParticipantContext)
    (h : secrets.get (path store context.id identifier) = none) :
    store.readRecord context identifier secrets =
      (.error (.tokenNotFound identifier), secrets) := by
  have hget : secrets.get (getPath context (store.key identifier)) = none := h
  simp [VaultTokenStore.readRecord, hclient, MemoryVaultClient, hget, okOr, Except.mapError,
    mapVaultErr, bind, Except.bind]

include hclient in
theorem readRecord_present (context : ParticipantContext) {json : String}
    {record : VaultTokenRecord} (h : secrets.get (path store context.id identifier) = some json)
    (hreads : store.fromJson json = .ok record) :
    store.readRecord context identifier secrets = (.ok record, secrets) := by
  have hget : secrets.get (getPath context (store.key identifier)) = some json := h
  simp [VaultTokenStore.readRecord, VaultTokenStore.deserialize, hclient, MemoryVaultClient, hget,
    okOr, Except.mapError, bind, Except.bind, hreads]

include hclient in
theorem writeRecord_json (hcodec : Codec store) (secrets : HashMap String String)
    (pc identifier : String) (record : VaultTokenRecord) :
    ∃ json, store.fromJson json = .ok record ∧
      store.writeRecord { id := pc } identifier record secrets =
        (.ok (), secrets.insert (path store pc identifier) json) := by
  obtain ⟨json, hto, hfrom⟩ := hcodec record
  refine ⟨json, hfrom, ?_⟩
  simp [VaultTokenStore.writeRecord, VaultTokenStore.serialize, hclient, MemoryVaultClient,
    hto, Except.mapError, path]

include hclient in
theorem removeToken_memory :
    store.removeToken pc identifier secrets =
      (.ok (), secrets.remove (path store pc identifier)) := by
  simp [VaultTokenStore.removeToken, hclient, MemoryVaultClient, Except.mapError, path]

/-! ### Both stores keep filing the same records -/

theorem Mirrors.absent (h : Mirrors store tokens secrets) (hpc : '/' ∉ pc.toList)
    (hnone : tokens.dataAt (pc, identifier) = none) :
    secrets.get (path store pc identifier) = none := by
  have hf := h pc identifier hpc
  rw [hnone] at hf
  cases hsec : secrets.get (path store pc identifier) with
  | none => rfl
  | some json =>
    rw [hsec] at hf
    cases hf

theorem Mirrors.present (h : Mirrors store tokens secrets) (hpc : '/' ∉ pc.toList)
    {data : TokenData} (hsome : tokens.dataAt (pc, identifier) = some data) :
    ∃ record json, secrets.get (path store pc identifier) = some json ∧
      store.fromJson json = .ok record ∧ data = record.data pc identifier := by
  have hf := h pc identifier hpc
  rw [hsome] at hf
  cases hsec : secrets.get (path store pc identifier) with
  | none =>
    rw [hsec] at hf
    cases hf
  | some json =>
    rw [hsec] at hf
    cases hf with
    | present record json hreads => exact ⟨record, json, rfl, hreads, rfl⟩

/-- Both stores write the record of one context and identifier. -/
theorem Mirrors.write (h : Mirrors store tokens secrets) (hpc : '/' ∉ pc.toList)
    {tokens' : MemoryTokenStore} {json : String} {record : VaultTokenRecord}
    (hreads : store.fromJson json = .ok record)
    (htokens : ∀ key, tokens'.dataAt key =
      if key = (pc, identifier) then some (record.data pc identifier) else tokens.dataAt key) :
    Mirrors store tokens' (secrets.insert (path store pc identifier) json) := by
  intro a i ha
  rw [htokens, HashMap.get_insert]
  by_cases hkey : (a, i) = (pc, identifier)
  · obtain ⟨rfl, rfl⟩ := Prod.mk.inj hkey
    rw [if_pos rfl, if_pos rfl]
    exact .present record json hreads
  · rw [if_neg hkey, if_neg (fun hp => hkey (path_inj store ha hpc hp))]
    exact h a i ha

theorem Mirrors.erase (h : Mirrors store tokens secrets) (hpc : '/' ∉ pc.toList)
    {tokens' : MemoryTokenStore}
    (htokens : ∀ key, tokens'.dataAt key =
      if key = (pc, identifier) then none else tokens.dataAt key) :
    Mirrors store tokens' (secrets.remove (path store pc identifier)) := by
  intro a i ha
  rw [htokens, HashMap.get_remove]
  by_cases hkey : (a, i) = (pc, identifier)
  · obtain ⟨rfl, rfl⟩ := Prod.mk.inj hkey
    rw [if_pos rfl, if_pos rfl]
    exact .absent
  · rw [if_neg hkey, if_neg (fun hp => hkey (path_inj store ha hpc hp))]
    exact h a i ha

theorem Mirrors.of_dataAt (h : Mirrors store tokens secrets) {tokens' : MemoryTokenStore}
    (htokens : ∀ key, tokens'.dataAt key = tokens.dataAt key) : Mirrors store tokens' secrets := by
  intro a i ha
  rw [htokens]
  exact h a i ha

/-- A read from the data at its key. -/
theorem Mirrors.getToken_of_dataAt (h : Mirrors store tokens secrets) (now : ℤ)
    (context : ParticipantContext) (hpc : '/' ∉ context.id.toList) :
    (tokens.getToken now context identifier).1 =
      okOr (tokens.dataAt (context.id, identifier)) (.tokenNotFound identifier) := by
  rcases tokens.getToken_cases now context identifier with ⟨hnone, he⟩ | ⟨data, hdata, -, he⟩
  · cases hd : tokens.dataAt (context.id, identifier) with
    | none => rw [he, okOr]
    | some data =>
      obtain ⟨record, json, -, -, rfl⟩ := h.present hpc hd
      rw [hd] at hnone
      simp [VaultTokenRecord.data] at hnone
  · rw [he, hdata, okOr]

include hclient in
/-- A read gives the same answer in both stores. -/
theorem Mirrors.getToken_eq (h : Mirrors store tokens secrets) (now : ℤ)
    (context : ParticipantContext) (hpc : '/' ∉ context.id.toList) (identifier : String) :
    (tokens.getToken now context identifier).1 = (store.getToken context identifier secrets).1 ∧
      (store.getToken context identifier secrets).2 = secrets := by
  rw [h.getToken_of_dataAt now context hpc]
  cases hdata : tokens.dataAt (context.id, identifier) with
  | none =>
    rw [VaultTokenStore.getToken, readRecord_absent hclient context (h.absent hpc hdata)]
    exact ⟨rfl, rfl⟩
  | some data =>
    obtain ⟨record, json, hsec, hreads, rfl⟩ := h.present hpc hdata
    rw [VaultTokenStore.getToken, readRecord_present hclient context hsec hreads]
    exact ⟨rfl, rfl⟩

include hclient in
theorem Mirrors.updateToken_eq (hcodec : Codec store) (h : Mirrors store tokens secrets) (now : ℤ)
    (hpc : '/' ∉ pc.toList) (identifier : String) (data : RefreshedTokenData) :
    (tokens.updateToken now pc identifier data).1 =
      (store.updateToken pc identifier data secrets).1 ∧
      Mirrors store (tokens.updateToken now pc identifier data).2
        (store.updateToken pc identifier data secrets).2 := by
  rcases tokens.updateToken_cases now pc identifier data with ⟨hnone, he⟩ | ⟨old, hold, he, hafter⟩
  · rw [VaultTokenStore.updateToken,
      readRecord_absent hclient { id := pc } (h.absent hpc hnone), he]
    exact ⟨rfl, h⟩
  · obtain ⟨record, json, hsec, hreads, rfl⟩ := h.present hpc hold
    obtain ⟨json', hreads', hwrite⟩ :=
      writeRecord_json hclient hcodec secrets pc identifier (record.refresh data)
    rw [VaultTokenStore.updateToken, readRecord_present hclient { id := pc } hsec hreads, he]
    dsimp only
    rw [hwrite]
    exact ⟨rfl, h.write hpc hreads' hafter⟩

include hclient in
theorem Mirrors.removeToken_eq (h : Mirrors store tokens secrets) (hpc : '/' ∉ pc.toList)
    (identifier : String) :
    ((tokens.removeToken pc identifier).1 = (store.removeToken pc identifier secrets).1 ↔
        tokens.containsKey (pc, identifier) = true) ∧
      Mirrors store (tokens.removeToken pc identifier).2
        (store.removeToken pc identifier secrets).2 := by
  rw [removeToken_memory hclient]
  rcases tokens.removeToken_cases pc identifier with ⟨hnone, he⟩ | ⟨old, hold, he, hafter⟩
  · rw [he]
    refine ⟨?_, ?_⟩
    · have hget : tokens.get (pc, identifier) = none := Option.map_eq_none_iff.mp hnone
      simp [HashMap.containsKey, hget]
    · apply h.erase hpc
      intro key
      split_ifs with hkey
      · rw [hkey, hnone]
      · rfl
  · obtain ⟨record, hget, -⟩ := Option.map_eq_some_iff.mp hold
    rw [he]
    exact ⟨by simp [HashMap.containsKey, hget], h.erase hpc hafter⟩

/-- A removal finds a record. -/
def RemovesStored (tokens : MemoryTokenStore) (call : ℤ × StoreCall) : Prop :=
  ∀ pc identifier, call.2 = .remove pc identifier → tokens.containsKey (pc, identifier) = true

include hclient in
/-- One call: the stores go on filing the same records, and answer alike unless the call removes
nothing. -/
theorem Mirrors.step (hcodec : Codec store) (h : Mirrors store tokens secrets)
    (call : ℤ × StoreCall) (hpc : '/' ∉ call.2.participantContext.toList) :
    ((memoryStore.step tokens call).1 = ((vaultStore store).step secrets call).1 ↔
      RemovesStored tokens call) ∧
      Mirrors store (memoryStore.step tokens call).2 ((vaultStore store).step secrets call).2 := by
  obtain ⟨now, call⟩ := call
  cases call with
  | save data =>
    obtain ⟨json, hreads, hwrite⟩ :=
      writeRecord_json hclient hcodec secrets data.participantContext data.identifier
        (vaultRecord data)
    have hsave : store.saveToken data secrets =
      (.ok (), secrets.insert (path store data.participantContext data.identifier) json) := hwrite
    refine ⟨iff_of_true ?_ (by simp [RemovesStored]), ?_⟩
    · simp only [memoryStore, vaultStore, hsave]
      rfl
    · simp only [memoryStore, vaultStore, hsave]
      exact h.write hpc hreads (tokens.dataAt_saveToken now data)
  | get context identifier =>
    obtain ⟨hreply, hkeep⟩ := h.getToken_eq hclient now context hpc identifier
    refine ⟨iff_of_true (congrArg StoreReply.data hreply) (by simp [RemovesStored]), ?_⟩
    have hsecrets : ((vaultStore store).step secrets (now, .get context identifier)).2 =
        secrets := hkeep
    rw [hsecrets]
    exact h.of_dataAt (tokens.dataAt_getToken now context identifier)
  | update pc identifier data =>
    obtain ⟨hreply, hkeep⟩ := h.updateToken_eq hclient hcodec now hpc identifier data
    exact ⟨iff_of_true (congrArg StoreReply.done hreply) (by simp [RemovesStored]), hkeep⟩
  | remove pc identifier =>
    have hpc' : '/' ∉ pc.toList := hpc
    obtain ⟨hreply, hkeep⟩ := h.removeToken_eq hclient hpc' identifier
    refine ⟨?_, hkeep⟩
    have hdone : (memoryStore.step tokens (now, .remove pc identifier)).1 =
        ((vaultStore store).step secrets (now, .remove pc identifier)).1 ↔
      (tokens.removeToken pc identifier).1 = (store.removeToken pc identifier secrets).1 :=
      ⟨StoreReply.done.inj, congrArg StoreReply.done⟩
    rw [hdone, hreply]
    simp [RemovesStored]

/-- What the answers of `get_token` say of an update: the four fields change, of the one record. -/
def UpdatesOnly (before after : ParticipantContext → String → Except TokenError TokenData)
    (pc identifier : String) (data : RefreshedTokenData) : Prop :=
  ∀ context other, '/' ∉ context.id.toList → after context other =
    if (context.id, other) = (pc, identifier) then (before context other).map (·.refresh data)
    else before context other

theorem Mirrors.updatesOnly (h : Mirrors store tokens secrets) (now now' : ℤ)
    (data : RefreshedTokenData) {tokens' : MemoryTokenStore}
    (htokens : tokens' = (tokens.updateToken now pc identifier data).2)
    {secrets' : HashMap String String} (h' : Mirrors store tokens' secrets') :
    UpdatesOnly (fun context other => (tokens.getToken now' context other).1)
      (fun context other => (tokens'.getToken now' context other).1) pc identifier data := by
  intro context other hcontext
  simp only [h.getToken_of_dataAt now' context hcontext,
    h'.getToken_of_dataAt now' context hcontext]
  rw [htokens]
  rcases tokens.updateToken_cases now pc identifier data with ⟨hnone, he⟩ | ⟨old, hold, he, hafter⟩
  · rw [he]
    split_ifs with hkey
    · rw [hkey, hnone]
      rfl
    · rfl
  · rw [hafter]
    split_ifs with hkey
    · rw [hkey, hold]
      rfl
    · rfl

end Stores

/-- Every `update_token` of the list changes what it should in the state it is made in. -/
def UpdatesFramed (store : VaultTokenStore (HashMap String String))
    (calls : List (ℤ × StoreCall)) : Prop :=
  ∀ earlier now pc identifier data later,
    calls = earlier ++ (now, .update pc identifier data) :: later →
    let tokens := memoryStore.after HashMap.empty earlier
    let tokens' := memoryStore.after HashMap.empty (earlier ++ [(now, .update pc identifier data)])
    let secrets := (vaultStore store).after HashMap.empty earlier
    let secrets' :=
      (vaultStore store).after HashMap.empty (earlier ++ [(now, .update pc identifier data)])
    UpdatesOnly (fun context other => (tokens.getToken now context other).1)
        (fun context other => (tokens'.getToken now context other).1) pc identifier data ∧
      UpdatesOnly (fun context other => (store.getToken context other secrets).1)
        (fun context other => (store.getToken context other secrets').1) pc identifier data

section Runs
variable {store : VaultTokenStore (HashMap String String)}
  (hclient : store.vaultClient = MemoryVaultClient) (hcodec : Codec store)
  (calls : List (ℤ × StoreCall))

theorem mirrors_empty : Mirrors store HashMap.empty HashMap.empty := fun _ _ _ => .absent

include hclient hcodec in
theorem mirrors_after (hplain : ∀ call ∈ calls, '/' ∉ call.2.participantContext.toList) :
    Mirrors store (memoryStore.after HashMap.empty calls)
      ((vaultStore store).after HashMap.empty calls) :=
  Service.after_related (fun _ _ call h hpc => (h.step hclient hcodec call hpc).2)
    hplain mirrors_empty

include hclient hcodec in
theorem updates_framed (hplain : ∀ call ∈ calls, '/' ∉ call.2.participantContext.toList) :
    UpdatesFramed store calls := by
  intro earlier now pc identifier data later hcalls
  have hbefore :=
    mirrors_after hclient hcodec earlier (fun call hc => hplain call (by simp [hcalls, hc]))
  have hafter := mirrors_after hclient hcodec (earlier ++ [(now, .update pc identifier data)]) (by
    intro call hc
    apply hplain call
    rw [hcalls]
    rcases List.mem_append.mp hc with hc | hc
    · exact List.mem_append_left _ hc
    · simp [List.mem_singleton.mp hc])
  have hmemory := hbefore.updatesOnly now now data (Service.after_append _ _ _) hafter
  refine ⟨hmemory, ?_⟩
  intro context other hcontext
  have h := hmemory context other hcontext
  simp only [(hbefore.getToken_eq hclient now context hcontext other).1,
    (hafter.getToken_eq hclient now context hcontext other).1] at h
  exact h

end Runs

/-- The two stores give the same replies exactly when every removal finds a record. -/
theorem token_stores_agree_iff (store : VaultTokenStore (HashMap String String))
    (hclient : store.vaultClient = MemoryVaultClient) (hcodec : Codec store)
    (calls : List (ℤ × StoreCall))
    (hplain : ∀ call ∈ calls, '/' ∉ call.2.participantContext.toList) :
    (memoryStore.replies memoryStore.init calls =
      (vaultStore store).replies (vaultStore store).init calls ∧
        UpdatesFramed store calls) ↔
      memoryStore.Along RemovesStored memoryStore.init calls := by
  rw [and_iff_left (updates_framed hclient hcodec calls hplain)]
  exact Service.replies_eq_iff (fun _ _ call h hpc => (h.step hclient hcodec call hpc).1)
    (fun _ _ call h hpc _ => (h.step hclient hcodec call hpc).2) hplain mirrors_empty

/-! ## A document format

The fields of a record one after the other, each closed by a semicolon. -/

def escapeChar (c : Char) : List Char := if c = ';' ∨ c = '%' then ['%', c] else [c]

def writeField (text : String) : List Char := text.toList.flatMap escapeChar ++ [';']

/-- A field and what follows it. -/
def readField : List Char → Option (List Char × List Char)
  | [] => none
  | ';' :: rest => some ([], rest)
  | '%' :: c :: rest => (readField rest).map fun read => (c :: read.1, read.2)
  | c :: rest => (readField rest).map fun read => (c :: read.1, read.2)

theorem readField_escape (text rest : List Char) :
    readField (text.flatMap escapeChar ++ ';' :: rest) = some (text, rest) := by
  induction text with
  | nil => rfl
  | cons c text ih =>
    by_cases hc : c = ';' ∨ c = '%'
    · have hesc : escapeChar c = ['%', c] := if_pos hc
      simp [hesc, readField, ih]
    · have hesc : escapeChar c = [c] := if_neg hc
      obtain ⟨h₁, h₂⟩ := not_or.mp hc
      rw [List.flatMap_cons, hesc, List.singleton_append, List.cons_append,
        readField.eq_4 _ _ (fun h => h₁ h) (fun _ _ h => absurd h h₂), ih]
      rfl

def readFields : ℕ → List Char → Option (List String)
  | 0, _ => some []
  | n + 1, text => (readField text).bind fun read =>
      (readFields n read.2).map (String.ofList read.1 :: ·)

theorem readFields_write (fields : List String) :
    readFields fields.length (fields.flatMap writeField) = some fields := by
  induction fields with
  | nil => rfl
  | cons text fields ih =>
    have hread : readField ((text :: fields).flatMap writeField) =
        some (text.toList, fields.flatMap writeField) := by
      simpa [writeField] using readField_escape text.toList (fields.flatMap writeField)
    rw [List.length_cons, readFields, hread, Option.bind_some, ih, String.ofList_toList]
    rfl

def recordFields (record : VaultTokenRecord) : List String :=
  [record.participantId, record.counterPartyId, record.token, record.refreshToken,
    record.expiresAt.repr, record.refreshEndpoint, record.endpoint]

def fieldsRecord : List String → Except String VaultTokenRecord
  | [participantId, counterPartyId, token, refreshToken, expiresAt, refreshEndpoint, endpoint] =>
    (okOr expiresAt.toInt? "invalid number").map fun expiresAt =>
      ⟨participantId, counterPartyId, token, refreshToken, expiresAt, refreshEndpoint, endpoint⟩
  | _ => .error "missing field"

/-- The store over this format. -/
def fieldStore (subpath : Option String) : VaultTokenStore (HashMap String String) where
  vaultClient := MemoryVaultClient
  subpath := subpath
  toJson record := .ok (String.ofList ((recordFields record).flatMap writeField))
  fromJson json := okOr (readFields 7 json.toList) "unexpected end of document" >>= fieldsRecord

theorem fieldStore_codec (subpath : Option String) : Codec (fieldStore subpath) := by
  intro record
  refine ⟨_, rfl, ?_⟩
  have hread : readFields 7 ((recordFields record).flatMap writeField) =
      some (recordFields record) :=
    readFields_write (recordFields record)
  have hrecord : fieldsRecord (recordFields record) = .ok record := by
    simp [recordFields, fieldsRecord, Int.toInt?_repr, okOr, Except.map]
  simp only [fieldStore, String.toList_ofList, hread, okOr, bind, Except.bind, hrecord]

def storedToken : TokenData where
  identifier := "t1"
  participantContext := "alice"
  participantId := "did:web:alice"
  counterPartyId := "did:web:bob"
  token := "access"
  refreshToken := "refresh"
  expiresAt := 3600000
  refreshEndpoint := "https://bob/token"
  endpoint := "https://bob/data"

def lifecycle : List (ℤ × StoreCall) :=
  [(0, .save storedToken),
    (1, .update "alice" "t1" ⟨"access2", "refresh2", 7200000, "https://bob/token"⟩),
    (2, .get { id := "alice" } "t1"), (3, .remove "alice" "t1"), (4, .get { id := "alice" } "t1")]

theorem token_stores_agree_on_lifecycle :
    memoryStore.replies memoryStore.init lifecycle =
      (vaultStore (fieldStore (some "/tokens/"))).replies
        (vaultStore (fieldStore (some "/tokens/"))).init lifecycle := by
  refine ((token_stores_agree_iff _ rfl (fieldStore_codec (some "/tokens/")) lifecycle ?_).mpr ?_).1
  · simp [lifecycle, StoreCall.participantContext, storedToken]
  · refine ⟨?_, ?_, ?_, ?_, ?_, trivial⟩ <;> intro pc identifier hcall
    · simp at hcall
    · simp at hcall
    · simp at hcall
    · obtain ⟨rfl, rfl⟩ : "alice" = pc ∧ "t1" = identifier := by simpa using hcall
      decide
    · simp at hcall

/-- The vault store reports success for a record that does not exist. -/
theorem vault_store_removes_nothing :
    ¬ ∀ (store : VaultTokenStore (HashMap String String)), store.vaultClient = MemoryVaultClient →
      Codec store →
      ∀ calls : List (ℤ × StoreCall), (∀ call ∈ calls, '/' ∉ call.2.participantContext.toList) →
        memoryStore.replies memoryStore.init calls =
          (vaultStore store).replies (vaultStore store).init calls ∧ UpdatesFramed store calls := by
  intro h
  have heq := (h (fieldStore none) rfl (fieldStore_codec none) [(0, .remove "alice" "t1")]
    (by simp [StoreCall.participantContext])).1
  have hmemory : memoryStore.replies memoryStore.init [(0, .remove "alice" "t1")] =
    [.done (.error (.tokenNotFound "t1"))] := rfl
  have hvault : (vaultStore (fieldStore none)).replies (vaultStore (fieldStore none)).init
      [(0, .remove "alice" "t1")] =
    [.done (.ok ())] := rfl
  rw [hmemory, hvault] at heq
  simp at heq

end Facet.Vault
