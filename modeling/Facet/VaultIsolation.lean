import Facet.UrlSyntax
import Facet.Vault

/-!
# Isolation in the vault-backed token store

A token is filed under the text `{pc}/{subpath}/{identifier}`. Whether two pairs of
participant context and identifier are kept apart is a question about that text in
the in-memory vault, and about the path of an address in the HashiCorp vault.
-/
namespace Facet.Vault
open Text Client UrlSyntax

/-! ## Operations that spare a secret -/

/-- One secret of a state: its content, and agreement of two states on everything else. -/
structure Cell (σ : Type) where
  content : σ → Option String
  agree : σ → σ → Prop

/-- The operation neither changes the secret nor reads it. -/
structure Cell.Spared {σ α : Type} (cell : Cell σ) (op : σ → α × σ) : Prop where
  kept : ∀ s, cell.content (op s).2 = cell.content s
  result_eq : ∀ s s', cell.agree s s' → (op s).1 = (op s').1
  agree : ∀ s s', cell.agree s s' → cell.agree (op s).2 (op s').2

namespace Cell
variable {σ α β : Type} {cell : Cell σ}

theorem spared_pure (a : α) : cell.Spared (fun s => (a, s)) where
  kept _ := rfl
  result_eq _ _ _ := rfl
  agree _ _ h := h

theorem Spared.bind {op : σ → α × σ} (h : cell.Spared op) {next : α → σ → β × σ}
    (hnext : ∀ a, cell.Spared (next a)) : cell.Spared (fun s => next (op s).1 (op s).2) where
  kept s := by rw [(hnext _).kept, h.kept]
  result_eq s s' hs := by
    rw [h.result_eq s s' hs]
    exact (hnext _).result_eq _ _ (h.agree s s' hs)
  agree s s' hs := by
    rw [h.result_eq s s' hs]
    exact (hnext _).agree _ _ (h.agree s s' hs)

theorem Spared.map {op : σ → α × σ} (h : cell.Spared op) (f : α → β) :
    cell.Spared (fun s => (f (op s).1, (op s).2)) :=
  h.bind fun a => spared_pure (f a)

end Cell

/-- All four operations on `(pc, identifier)` spare the secret. -/
structure Isolated {σ : Type} (store : VaultTokenStore σ) (pc identifier : String)
    (cell : Cell σ) : Prop where
  get : ∀ context : ParticipantContext, context.id = pc →
    cell.Spared (store.getToken context identifier)
  save : ∀ data : TokenData, data.participantContext = pc → data.identifier = identifier →
    cell.Spared (store.saveToken data)
  update : ∀ data, cell.Spared (store.updateToken pc identifier data)
  remove : cell.Spared (store.removeToken pc identifier)

namespace VaultTokenStore
variable {σ : Type} {store : VaultTokenStore σ} {cell : Cell σ} {pc : ParticipantContext}
  {identifier : String}

theorem spared_readRecord
    (h : cell.Spared (store.vaultClient.resolveSecret pc (store.key identifier))) :
    cell.Spared (store.readRecord pc identifier) :=
  h.map fun json => json.mapError (mapVaultErr · identifier) >>= store.deserialize

theorem spared_writeRecord
    (h : ∀ json, cell.Spared (store.vaultClient.storeSecret pc (store.key identifier) json))
    (record : VaultTokenRecord) : cell.Spared (store.writeRecord pc identifier record) := by
  unfold writeRecord
  cases store.serialize record with
  | error e => exact Cell.spared_pure _
  | ok json => exact (h json).map (Except.mapError _)

/-- `update_token` once the record has been read. -/
def finishUpdate (store : VaultTokenStore σ) (pc identifier : String) (data : RefreshedTokenData) :
    Except TokenError VaultTokenRecord → σ → Except TokenError Unit × σ
  | .error e, s => (.error e, s)
  | .ok current, s => store.writeRecord { id := pc } identifier (current.refresh data) s

theorem updateToken_eq (store : VaultTokenStore σ) (pc identifier : String)
    (data : RefreshedTokenData) : store.updateToken pc identifier data = fun s =>
      store.finishUpdate pc identifier data (store.readRecord { id := pc } identifier s).1
        (store.readRecord { id := pc } identifier s).2 := by
  funext s
  unfold updateToken finishUpdate
  cases store.readRecord { id := pc } identifier s with
  | mk current s' => cases current <;> rfl

theorem isolated_of_client {pc : String}
    (hread : ∀ context : ParticipantContext, context.id = pc →
      cell.Spared (store.vaultClient.resolveSecret context (store.key identifier)))
    (hwrite : ∀ json, cell.Spared
      (store.vaultClient.storeSecret { id := pc } (store.key identifier) json))
    (hremove : cell.Spared (store.vaultClient.removeSecret { id := pc } (store.key identifier))) :
    Isolated store pc identifier cell where
  get context hc := (spared_readRecord (hread context hc)).map (Except.map _)
  save := by
    rintro data rfl rfl
    exact spared_writeRecord hwrite _
  update data := by
    have hfinish : ∀ current, cell.Spared (store.finishUpdate pc identifier data current) := by
      intro current
      cases current with
      | error e => exact Cell.spared_pure _
      | ok current => exact spared_writeRecord hwrite _
    rw [updateToken_eq]
    exact (spared_readRecord (hread { id := pc } rfl)).bind hfinish
  remove := hremove.map (Except.mapError _)

end VaultTokenStore

/-! ## Where a token is filed -/

/-- The subpath as it stands in a key, with the slash after it. -/
def subfolder (subpath : Option String) : List Char :=
  match subpath.map VaultTokenStore.trimmedSubpath with
  | some sub => if sub ≠ [] then sub ++ ['/'] else []
  | none => []

/-- The text that every key of the tenant starts with. -/
def folder (subpath : Option String) (pc : String) : List Char :=
  pc.toList ++ '/' :: subfolder subpath

/-- Where a token is filed: `{pc}/{subpath}/{identifier}`. -/
def location (subpath : Option String) (pc identifier : String) : List Char :=
  folder subpath pc ++ identifier.toList

/-- Neither folder lies in the other. -/
def Separated (subpath : Option String) (a b : String) : Prop :=
  a = b ∨ ¬ folder subpath a <+: folder subpath b ∧ ¬ folder subpath b <+: folder subpath a

theorem toList_key {σ : Type} (store : VaultTokenStore σ) (identifier : String) :
    (store.key identifier).toList = subfolder store.subpath ++ identifier.toList := by
  unfold VaultTokenStore.key subfolder
  cases store.subpath.map VaultTokenStore.trimmedSubpath with
  | none => rfl
  | some sub =>
    by_cases hsub : sub = []
    · simp [hsub]
    · simp [hsub]

theorem toList_getPath {σ : Type} (store : VaultTokenStore σ) (pc : ParticipantContext)
    (identifier : String) :
    (getPath pc (store.key identifier)).toList = location store.subpath pc.id identifier := by
  simp [getPath, location, folder, toList_key]

theorem folder_eq_append (subpath : Option String) (pc : String) :
    ∃ lead, folder subpath pc = lead ++ ['/'] := by
  unfold folder subfolder
  cases subpath.map VaultTokenStore.trimmedSubpath with
  | none => exact ⟨pc.toList, rfl⟩
  | some sub =>
    by_cases hsub : sub = []
    · exact ⟨pc.toList, by simp [hsub]⟩
    · exact ⟨pc.toList ++ '/' :: sub, by simp [hsub]⟩

variable {subpath : Option String} {a b i j : String}

theorem location_injective (h : location subpath a i = location subpath a j) : i = j :=
  String.toList_injective (List.append_cancel_left h)

theorem Separated.location_ne (h : Separated subpath a b) (hne : (a, i) ≠ (b, j)) :
    location subpath a i ≠ location subpath b j := by
  intro he
  rcases h with rfl | ⟨hab, hba⟩
  · exact hne (by rw [location_injective he])
  · have ha : folder subpath a <+: location subpath b j := he ▸ List.prefix_append _ _
    have hb : folder subpath b <+: location subpath b j := List.prefix_append _ _
    rcases List.prefix_or_prefix_of_prefix ha hb with h | h
    · exact hab h
    · exact hba h

/-- Tenants that are not separated share a location, and one of the two identifiers is empty. -/
theorem exists_location_eq (h : ¬ Separated subpath a b) :
    ∃ i j, (a, i) ≠ (b, j) ∧ location subpath a i = location subpath b j ∧
      (location subpath a i = folder subpath a ∨ location subpath b j = folder subpath b) := by
  rw [Separated, not_or, not_and_or, not_not, not_not] at h
  obtain ⟨hne, ⟨rest, hrest⟩ | ⟨rest, hrest⟩⟩ := h
  · refine ⟨String.ofList rest, "", fun he => hne (congrArg Prod.fst he), ?_, Or.inr ?_⟩
    · simp [location, hrest]
    · simp [location]
  · refine ⟨"", String.ofList rest, fun he => hne (congrArg Prod.fst he), ?_, Or.inl ?_⟩
    · simp [location, hrest]
    · simp [location]

/-! ## The in-memory vault -/

def entryCell {κ : Type} [DecidableEq κ] (key : κ) : Cell (HashMap κ String) where
  content secrets := secrets.get key
  agree secrets secrets' := ∀ k, k ≠ key → secrets.get k = secrets'.get k

section Memory
variable {κ α : Type} [DecidableEq κ]

theorem spared_insert {k key : κ} (h : k ≠ key) (a : α) (secret : String) :
    (entryCell key).Spared (fun secrets => (a, secrets.insert k secret)) where
  kept secrets := by simp [entryCell, h.symm]
  result_eq _ _ _ := rfl
  agree secrets secrets' hs j hj := by
    have hrest : secrets.get j = secrets'.get j := hs j hj
    simp [hrest]

theorem spared_remove {k key : κ} (h : k ≠ key) (a : α) :
    (entryCell key).Spared (fun secrets => (a, secrets.remove k)) where
  kept secrets := by simp [entryCell, h.symm]
  result_eq _ _ _ := rfl
  agree secrets secrets' hs j hj := by
    have hrest : secrets.get j = secrets'.get j := hs j hj
    simp [hrest]

theorem spared_lookup {k key : κ} (h : k ≠ key) (f : Option String → α) :
    (entryCell key).Spared (fun secrets => (f (secrets.get k), secrets)) where
  kept _ := rfl
  result_eq secrets secrets' hs := by
    have hsame : secrets.get k = secrets'.get k := hs k h
    simp [hsame]
  agree _ _ hs := hs

end Memory

/-- In memory a pair is isolated from another exactly when their locations differ. -/
theorem memory_isolated_iff (store : VaultTokenStore (HashMap String String))
    (hm : store.vaultClient = MemoryVaultClient) :
    Isolated store a i (entryCell (getPath { id := b } (store.key j))) ↔
      location store.subpath a i ≠ location store.subpath b j := by
  have hpath : ∀ context : ParticipantContext, context.id = a →
      (getPath context (store.key i) ≠ getPath { id := b } (store.key j) ↔
        location store.subpath a i ≠ location store.subpath b j) := by
    rintro context rfl
    rw [← toList_getPath, ← toList_getPath store { id := b }, Ne, Ne, String.toList_inj]
  constructor
  · intro h he
    have hsame : getPath { id := a } (store.key i) = getPath { id := b } (store.key j) :=
      not_not.mp fun hne => (hpath { id := a } rfl).mp hne he
    have hkept := h.remove.kept (HashMap.empty.insert (getPath { id := b } (store.key j)) "secret")
    simp [VaultTokenStore.removeToken, hm, MemoryVaultClient, entryCell, hsame] at hkept
  · intro hne
    apply VaultTokenStore.isolated_of_client
    · intro context hc
      rw [hm]
      exact spared_lookup ((hpath context hc).mpr hne)
        (okOr · (VaultError.secretNotFound (store.key i)))
    · intro json
      rw [hm]
      exact spared_insert ((hpath _ rfl).mpr hne) _ json
    · rw [hm]
      exact spared_remove ((hpath _ rfl).mpr hne) _

/-! ## The HashiCorp vault -/

/-- Every segment of the text stays as it is in an address. -/
def Legible (P : UrlParser) (text : List Char) : Prop :=
  ∀ segment ∈ text.splitOn '/', P.Literal segment

/-- `root` is the path of the secrets engine: that of the server, `v1` and the mount. -/
structure Mounted (P : UrlParser) (config : HashicorpVaultConfig) (origin : List Char)
    (root : List (List Char)) : Prop where
  isOrigin : P.IsOrigin origin
  spelled : ∃ base, config.vaultUrl.toList = origin ++ base.flatMap ('/' :: ·) ∧
    root = base ++ "v1".toList :: (config.mountPath.getD "secret").toList.splitOn '/'
  literal : ∀ segment ∈ root, P.Literal segment

/-- The address names this secret, through its data or through its metadata. -/
def Addresses (P : UrlParser) (origin : List Char) (root : List (List Char)) (url : String)
    (secret : List (List Char)) : Prop :=
  ∃ directory ∈ ["data".toList, "metadata".toList],
    P.parse url.toList = some ⟨origin, root ++ directory :: secret, none⟩

section Hashicorp
variable {σ : Type} {P : UrlParser} {c : HashicorpVaultClient σ} {origin : List Char}
  {root : List (List Char)}

/-- The text of both addresses: engine, directory and location, one segment after the other. -/
theorem Mounted.spell (h : Mounted P c.config origin root) (directory text : List Char) :
    c.config.vaultUrl.toList ++ "/v1/".toList ++ (c.config.mountPath.getD "secret").toList ++
        '/' :: directory ++ '/' :: text =
      origin ++ (root ++ directory :: text.splitOn '/').flatMap ('/' :: ·) := by
  obtain ⟨base, hurl, rfl⟩ := h.spelled
  simp [hurl, flatMap_splitOn]

theorem toList_kvUrl (store : VaultTokenStore σ) (pc : ParticipantContext) (identifier : String) :
    (c.kvUrl pc (store.key identifier)).toList =
      c.config.vaultUrl.toList ++ "/v1/".toList ++ (c.config.mountPath.getD "secret").toList ++
        '/' :: "data".toList ++ '/' :: location store.subpath pc.id identifier := by
  simp [HashicorpVaultClient.kvUrl, location, folder, toList_key]

theorem toList_kvMetadataUrl (store : VaultTokenStore σ) (pc : ParticipantContext)
    (identifier : String) : (c.kvMetadataUrl pc (store.key identifier)).toList =
      c.config.vaultUrl.toList ++ "/v1/".toList ++ (c.config.mountPath.getD "secret").toList ++
        '/' :: "metadata".toList ++ '/' :: location store.subpath pc.id identifier := by
  simp [HashicorpVaultClient.kvMetadataUrl, location, folder, toList_key]

theorem Mounted.literal_append (h : Mounted P c.config origin root) {directory text : List Char}
    (hdir : P.Literal directory) (htext : Legible P text) :
    ∀ segment ∈ root ++ directory :: text.splitOn '/', P.Literal segment := by
  intro segment hs
  rcases List.mem_append.mp hs with hs | hs
  · exact h.literal segment hs
  · rcases List.mem_cons.mp hs with rfl | hs
    · exact hdir
    · exact htext segment hs

theorem Mounted.parse (h : Mounted P c.config origin root) {directory text : List Char}
    (hdir : P.Literal directory) (htext : Legible P text) :
    P.parse (c.config.vaultUrl.toList ++ "/v1/".toList ++
      (c.config.mountPath.getD "secret").toList ++ '/' :: directory ++ '/' :: text) =
      some ⟨origin, root ++ directory :: text.splitOn '/', none⟩ := by
  rw [h.spell]
  exact UrlParser.parse_literal h.isOrigin (by simp) (h.literal_append hdir htext)

theorem literal_data : P.Literal "data".toList :=
  UrlParser.literal_of_alphanum (by decide) (by decide)

theorem literal_metadata : P.Literal "metadata".toList :=
  UrlParser.literal_of_alphanum (by decide) (by decide)

theorem Mounted.addresses (h : Mounted P c.config origin root) (store : VaultTokenStore σ)
    (pc : ParticipantContext) {identifier : String}
    (hl : Legible P (location store.subpath pc.id identifier)) :
    Addresses P origin root (c.kvUrl pc (store.key identifier))
      ((location store.subpath pc.id identifier).splitOn '/') ∧
      Addresses P origin root (c.kvMetadataUrl pc (store.key identifier))
        ((location store.subpath pc.id identifier).splitOn '/') := by
  refine ⟨⟨"data".toList, by simp, ?_⟩, ⟨"metadata".toList, by simp, ?_⟩⟩
  · rw [toList_kvUrl]
    exact h.parse literal_data hl
  · rw [toList_kvMetadataUrl]
    exact h.parse literal_metadata hl

theorem Mounted.addresses_iff (h : Mounted P c.config origin root) (store : VaultTokenStore σ)
    (pc : ParticipantContext) {identifier : String}
    (hl : Legible P (location store.subpath pc.id identifier)) {secret : List (List Char)} :
    Addresses P origin root (c.kvUrl pc (store.key identifier)) secret ↔
      secret = (location store.subpath pc.id identifier).splitOn '/' := by
  constructor
  · rintro ⟨directory, -, hp⟩
    rw [toList_kvUrl, h.parse literal_data hl] at hp
    have hpath := congrArg Url.path (Option.some.inj hp)
    exact (List.cons.inj (List.append_cancel_left hpath)).2.symm
  · rintro rfl
    exact (h.addresses store pc hl).1

theorem splitOn_injective {text text' : List Char} (h : text.splitOn '/' = text'.splitOn '/') :
    text = text' := by
  have := congrArg (List.flatMap ('/' :: ·)) h
  rw [flatMap_splitOn, flatMap_splitOn] at this
  exact (List.cons.inj this).2

theorem not_endsPath_of_mem_folder {subpath : Option String} {b j : String}
    (hl : Legible P (location subpath b j)) {ch : Char} (h : ch ∈ '/' :: subfolder subpath) :
    endsPath ch = false := by
  by_cases hslash : ch = '/'
  · rw [hslash]
    decide
  · have hmem : ch ∈ location subpath b j := List.mem_append_left _ (List.mem_append_right _ h)
    obtain ⟨segment, hs, hc⟩ := (mem_splitOn_iff hslash _).mpr hmem
    exact ((hl segment hs).2 ch hc).2.1

theorem Mounted.climb (h : Mounted P c.config origin root) (store : VaultTokenStore σ)
    {a b j : String} (ha : ∀ ch ∈ a.toList, endsPath ch = false)
    (hl : Legible P (location store.subpath b j)) :
    ∃ i, P.parse (c.kvUrl { id := a } (store.key i)).toList =
      P.parse (c.kvUrl { id := b } (store.key j)).toList := by
  have hsegs := h.literal_append literal_data hl
  have hengine : ∀ s ∈ root ++ ["data".toList], P.Literal s :=
    fun s hs => hsegs s (by simp at hs ⊢; tauto)
  obtain ⟨engine, hengine'⟩ :=
    UrlParser.exists_flatMap_eq_cons (by simp : root ++ ["data".toList] ≠ [])
  have hchars := UrlParser.mem_flatMap_slash fun s hs ch hch => ((hengine s hs).2 ch hch).2
  rw [hengine'] at hchars
  obtain ⟨lead, hlead⟩ := folder_eq_append store.subpath a
  have hends : ∀ ch ∈ engine ++ '/' :: lead, endsPath ch = false := by
    intro ch hch
    rcases List.mem_append.mp hch with hch | hch
    · exact (hchars ch (List.mem_cons_of_mem _ hch)).1
    · rcases List.mem_cons.mp hch with rfl | hch
      · decide
      · have hmem : ch ∈ folder store.subpath a := by simp [hlead, hch]
        rcases List.mem_append.mp hmem with hch | hch
        · exact ha ch hch
        · exact not_endsPath_of_mem_folder hl hch
  obtain ⟨n, hn⟩ := UrlParser.parse_up h.isOrigin hends (by simp) hsegs
  obtain ⟨up, hup⟩ := UrlParser.exists_flatMap_eq_cons (by simp : List.replicate n "..".toList ++
    (root ++ "data".toList :: (location store.subpath b j).splitOn '/') ≠ [])
  refine ⟨String.ofList up, ?_⟩
  have htext : c.config.vaultUrl.toList ++ "/v1/".toList ++
      (c.config.mountPath.getD "secret").toList ++
      '/' :: "data".toList ++ '/' :: location store.subpath a (String.ofList up) =
        origin ++ '/' :: (engine ++ '/' :: lead ++ '/' :: up) := by
    rw [h.spell, ← List.singleton_append, ← List.append_assoc, List.flatMap_append,
      hengine', flatMap_splitOn]
    simp [location, hlead]
  rw [toList_kvUrl, toList_kvUrl, h.parse literal_data hl, htext, ← hup, hn]

/-! ### Isolation over a server -/

theorem spared_request {cell : Cell σ} {α : Type} {pc : ParticipantContext} {failure : String}
    {build : String → HttpRequest} {verdict : HttpResponse → Except VaultError α}
    (h : ∀ token, cell.Spared (c.send (build token))) :
    cell.Spared (c.request pc failure build verdict) := by
  unfold HashicorpVaultClient.request
  cases c.tokenFor pc with
  | error e => exact Cell.spared_pure _
  | ok token => exact (h token).map fun response => response.mapError _ >>= verdict

/-- A secrets engine behind the addresses: a request that names one secret spares every other. -/
structure KvServer (P : UrlParser) (origin : List Char) (root : List (List Char)) (σ : Type) where
  send : HttpRequest → σ → Except String HttpResponse × σ
  cell : List (List Char) → Cell σ
  spares : ∀ request secret other, Addresses P origin root request.url secret → other ≠ secret →
    (cell other).Spared (send request)

theorem Mounted.isolated (h : Mounted P c.config origin root) (server : KvServer P origin root σ)
    (hsend : c.send = server.send) (store : VaultTokenStore σ)
    (hstore : store.vaultClient = c.client) {a i : String}
    (hl : Legible P (location store.subpath a i)) {other : List (List Char)}
    (hne : other ≠ (location store.subpath a i).splitOn '/') :
    Isolated store a i (server.cell other) := by
  apply VaultTokenStore.isolated_of_client
  · rintro context rfl
    rw [hstore]
    apply spared_request
    intro token
    rw [hsend]
    exact server.spares _ _ _ (h.addresses store context hl).1 hne
  · intro json
    rw [hstore]
    apply spared_request
    intro token
    rw [hsend]
    exact server.spares _ _ _ (h.addresses store { id := a } hl).1 hne
  · rw [hstore]
    apply spared_request
    intro token
    rw [hsend]
    apply server.spares _ _ _ _ hne
    split
    · exact (h.addresses store { id := a } hl).1
    · exact (h.addresses store { id := a } hl).2

end Hashicorp

/-! ## Tenants -/

/-- The secret that the data address of `(pc, identifier)` names. -/
def Names {σ : Type} (P : UrlParser) (origin : List Char) (root : List (List Char))
    (c : HashicorpVaultClient σ) (store : VaultTokenStore σ) (pc identifier : String)
    (secret : List (List Char)) : Prop :=
  Addresses P origin root (c.kvUrl { id := pc } (store.key identifier)) secret

section Hashicorp
variable {σ : Type} {P : UrlParser} {c : HashicorpVaultClient σ} {origin : List Char}
  {root : List (List Char)}

theorem Mounted.names_iff (h : Mounted P c.config origin root) (store : VaultTokenStore σ)
    {pc identifier : String} (hl : Legible P (location store.subpath pc identifier))
    {secret : List (List Char)} : Names P origin root c store pc identifier secret ↔
      secret = (location store.subpath pc identifier).splitOn '/' :=
  h.addresses_iff store { id := pc } hl

/-- Legible pairs of two tenants name different secrets exactly when the tenants are separated. -/
theorem Mounted.distinct_iff (h : Mounted P c.config origin root) (store : VaultTokenStore σ)
    {a b : String} (ha : Legible P (folder store.subpath a))
    (hb : Legible P (folder store.subpath b)) :
    (∀ i j, Legible P (location store.subpath a i) → Legible P (location store.subpath b j) →
      (a, i) ≠ (b, j) →
      ∀ secret, Names P origin root c store a i secret → ¬ Names P origin root c store b j secret) ↔
      Separated store.subpath a b := by
  constructor
  · intro hdistinct
    by_contra hsep
    obtain ⟨i, j, hne, he, hfolder⟩ := exists_location_eq hsep
    have hi : Legible P (location store.subpath a i) := by
      rcases hfolder with hf | hf
      · rwa [hf]
      · rwa [he, hf]
    have hj : Legible P (location store.subpath b j) := he ▸ hi
    exact hdistinct i j hi hj hne _ ((h.names_iff store hi).mpr rfl)
      ((h.names_iff store hj).mpr (by rw [he]))
  · intro hsep i j hi hj hne secret hai hbj
    rw [h.names_iff store hi] at hai
    rw [h.names_iff store hj, hai] at hbj
    exact hsep.location_ne hne (splitOn_injective hbj)

end Hashicorp

/-- Isolation of tenants, and where it ends. In memory it is exactly the separation of the folders.
Over addresses it is the same as long as all names are legible, and data and metadata then agree; an
illegible identifier reaches every secret. -/
theorem tenant_isolation (a b : String) :
    (∀ store : VaultTokenStore (HashMap String String), store.vaultClient = MemoryVaultClient →
      ((∀ i j, (a, i) ≠ (b, j) →
        Isolated store a i (entryCell (getPath { id := b } (store.key j)))) ↔
        Separated store.subpath a b)) ∧
    ∀ (σ : Type) (P : UrlParser) (c : HashicorpVaultClient σ) (origin : List Char)
      (root : List (List Char)) (store : VaultTokenStore σ), Mounted P c.config origin root →
        store.vaultClient = c.client →
      (Legible P (folder store.subpath a) → Legible P (folder store.subpath b) →
        ((∀ i j, Legible P (location store.subpath a i) → Legible P (location store.subpath b j) →
          (a, i) ≠ (b, j) → ∀ secret, Names P origin root c store a i secret →
          ¬ Names P origin root c store b j secret) ↔ Separated store.subpath a b)) ∧
      (∀ i, Legible P (location store.subpath a i) →
        ∃ secret, Names P origin root c store a i secret ∧
        Addresses P origin root (c.kvMetadataUrl { id := a } (store.key i)) secret) ∧
      (∀ server : KvServer P origin root σ, c.send = server.send → ∀ i j,
        Legible P (location store.subpath a i) → Legible P (location store.subpath b j) →
        Separated store.subpath a b → (a, i) ≠ (b, j) →
        ∀ secret, Names P origin root c store b j secret →
        Isolated store a i (server.cell secret)) ∧
      ∀ j, (∀ ch ∈ a.toList, endsPath ch = false) → Legible P (location store.subpath b j) →
        ∃ i, ∀ secret, Names P origin root c store b j secret →
          Names P origin root c store a i secret := by
  refine ⟨fun store hm => ⟨fun hiso => ?_, fun hsep i j hne => ?_⟩,
    fun σ P c origin root store h hstore => ?_⟩
  · by_contra hsep
    obtain ⟨i, j, hne, he, -⟩ := exists_location_eq hsep
    exact (memory_isolated_iff store hm).mp (hiso i j hne) he
  · exact (memory_isolated_iff store hm).mpr (hsep.location_ne hne)
  · refine ⟨fun ha hb => h.distinct_iff store ha hb, fun i hl =>
      ⟨_, h.addresses store { id := a } hl⟩, ?_, ?_⟩
    · intro server hsend i j hi hj hsep hne secret hbj
      rw [h.names_iff store hj] at hbj
      refine h.isolated server hsend store hstore hi fun he => hsep.location_ne hne ?_
      exact (splitOn_injective (hbj.symm.trans he)).symm
    · intro j ha hl
      obtain ⟨i, hi⟩ := h.climb store ha hl
      refine ⟨i, fun secret ⟨directory, hdir, hp⟩ => ⟨directory, hdir, ?_⟩⟩
      rw [hi, hp]

/-! A secrets engine that keeps its secrets in a map, and two stores with the subpath `tokens`. -/

def engineSecret (P : UrlParser) (origin : List Char) (root : List (List Char)) (url : String) :
    Option (List (List Char)) :=
  match P.parse url.toList with
  | none => none
  | some ⟨origin', path, _⟩ =>
    if origin' = origin then
      match stripPrefix root path with
      | some (directory :: secret) =>
        if directory = "data".toList ∨ directory = "metadata".toList then some secret else none
      | _ => none
    else none

def engineContent (json : Option Value) : String :=
  (((json.bind (field "data")).bind (field contentKey)).bind Value.asStr).getD ""

def readResponse (secret : Option String) : HttpResponse :=
  match secret with
  | some secret =>
    { status := 200, statusText := "200 OK", text := none,
      data := .ok (.object [(contentKey, .string secret)]) }
  | none => { status := 404, statusText := "404 Not Found", text := none }

def engineSend (P : UrlParser) (origin : List Char) (root : List (List Char))
    (request : HttpRequest) (secrets : HashMap (List (List Char)) String) :
    Except String HttpResponse × HashMap (List (List Char)) String :=
  match engineSecret P origin root request.url, request.method with
  | none, _ => (.ok (readResponse none), secrets)
  | some secret, .get => (.ok (readResponse (secrets.get secret)), secrets)
  | some secret, .post =>
    (.ok (readResponse (some "")), secrets.insert secret (engineContent request.json))
  | some secret, .delete => (.ok (readResponse (some "")), secrets.remove secret)

theorem engineSecret_of_addresses {P : UrlParser} {origin : List Char}
    {root secret : List (List Char)} {url : String} (h : Addresses P origin root url secret) :
    engineSecret P origin root url = some secret := by
  obtain ⟨directory, hdir, hp⟩ := h
  have hdirectory : directory = "data".toList ∨ directory = "metadata".toList := by
    simpa only [List.mem_cons, List.not_mem_nil, or_false] using hdir
  simp only [engineSecret, hp, if_true, stripPrefix_eq_some_iff.mpr rfl, hdirectory]

def engine (P : UrlParser) (origin : List Char) (root : List (List Char)) :
    KvServer P origin root (HashMap (List (List Char)) String) where
  send := engineSend P origin root
  cell := entryCell
  spares request secret other h hne := by
    unfold engineSend
    rw [engineSecret_of_addresses h]
    cases request.method with
    | get => exact spared_lookup hne.symm fun found => Except.ok (readResponse found)
    | post => exact spared_insert hne.symm _ _
    | delete => exact spared_remove hne.symm _

def demoOrigin : List Char := "http://vault:8200".toList

def demoRoot : List (List Char) := ["v1".toList, "secret".toList]

def demoClient : HashicorpVaultClient (HashMap (List (List Char)) String) where
  config := { vaultUrl := "http://vault:8200", softDelete := false }
  send := engineSend whatwg demoOrigin demoRoot
  token := some fun _ => .ok "hvs.token"

def demoStore {σ : Type} (client : VaultClient σ) : VaultTokenStore σ where
  vaultClient := client
  subpath := some "/tokens/"
  toJson record := .ok record.token
  fromJson _ := .error "expected value at line 1 column 1"

theorem demo_mounted : Mounted whatwg demoClient.config demoOrigin demoRoot where
  isOrigin := by
    refine ⟨rfl, "http://".toList, by simp, "vault:8200".toList, rfl, by simp, ?_⟩
    simp [inAuthority, isSlash, endsPath, isControlOrSpace]
  spelled := ⟨[], rfl, rfl⟩
  literal := UrlParser.literal_of_all (by decide)

/-- Two tenants with plain names are kept apart; the third has an identifier for the secret of the
second. -/
theorem tenant_isolation_of_names :
    Isolated (demoStore MemoryVaultClient) "alice" "t1"
        (entryCell (getPath { id := "bob" } ((demoStore MemoryVaultClient).key "t2"))) ∧
      ∃ secret, Names whatwg demoOrigin demoRoot demoClient (demoStore demoClient.client)
        "bob" "t2" secret ∧ Isolated (demoStore demoClient.client) "alice" "t1" (entryCell secret) ∧
          ∃ i, Names whatwg demoOrigin demoRoot demoClient (demoStore demoClient.client)
            "mallory" i secret := by
  have hsep : Separated (some "/tokens/") "alice" "bob" := Or.inr (by decide)
  have halice : Legible whatwg (location (some "/tokens/") "alice" "t1") :=
    UrlParser.literal_of_all (by decide)
  have hbob : Legible whatwg (location (some "/tokens/") "bob" "t2") :=
    UrlParser.literal_of_all (by decide)
  obtain ⟨hmemory, hvault⟩ := tenant_isolation "alice" "bob"
  obtain ⟨-, -, hisolated, -⟩ := hvault _ whatwg demoClient demoOrigin demoRoot
    (demoStore demoClient.client) demo_mounted rfl
  obtain ⟨-, hmetadata, -⟩ :=
    (tenant_isolation "bob" "bob").2 _ whatwg demoClient demoOrigin demoRoot
      (demoStore demoClient.client) demo_mounted rfl
  obtain ⟨-, -, -, hclimb⟩ :=
    (tenant_isolation "mallory" "bob").2 _ whatwg demoClient demoOrigin demoRoot
      (demoStore demoClient.client) demo_mounted rfl
  obtain ⟨secret, hsecret, -⟩ := hmetadata "t2" hbob
  obtain ⟨i, hi⟩ := hclimb "t2" (by simp [endsPath]) hbob
  exact ⟨(hmemory _ rfl).mpr hsep "t1" "t2" (by decide), secret, hsecret,
    hisolated (engine whatwg demoOrigin demoRoot) rfl _ _ halice hbob hsep (by decide) secret
      hsecret, i, hi secret hsecret⟩

/-- `a/b` with `c` and `a` with `b/c` share a key, and a step up leads into another tenant's
folder. -/
theorem tenants_share_secrets :
    (¬ ∀ (store : VaultTokenStore (HashMap String String)) (a i b j : String),
      store.vaultClient = MemoryVaultClient →
      (a, i) ≠ (b, j) → Isolated store a i (entryCell (getPath { id := b } (store.key j)))) ∧
    whatwg.parse
      (demoClient.kvUrl { id := "mallory" }
        ((demoStore demoClient.client).key "../../bob/tokens/t2")).toList =
      whatwg.parse
        (demoClient.kvUrl { id := "bob" } ((demoStore demoClient.client).key "t2")).toList := by
  refine ⟨fun h => ?_, by decide +kernel⟩
  have hiso :=
    h { demoStore MemoryVaultClient with subpath := none } "a/b" "c" "a" "b/c" rfl (by decide)
  have hkept := hiso.remove.kept (HashMap.empty.insert "a/b/c" "secret")
  exact absurd hkept (by decide)

end Facet.Vault
