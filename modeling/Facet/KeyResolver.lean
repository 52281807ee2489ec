import Facet.JwtGenerator
import Facet.Did

/-!
# Verification keys from Vault

`VaultKeyResolverState`: a cache of public keys by `kid`, filled from the metadata of the
signing key. The metadata lists the keys without their versions and `load_keys` counts them
from one; a load adds to the cache and takes nothing away.
-/
namespace Facet.Vault
open Did (KeyFormat KeyMaterial)

structure CachedPublicKey where
  keyFormat : KeyFormat := .der
  key : List UInt8
  kid : String
  deriving DecidableEq, Repr

abbrev KeyCache := HashMap String CachedPublicKey

/-- `decodeError` is the base64 decoder's description of a text it refuses. -/
structure VaultKeyResolverState (σ : Type) where
  vaultClient : VaultSigningClient σ
  signingContext : ParticipantContext
  decodeError : String → String

inductive JwkKeyType
  | rsa
  | ec
  | oct
  | okp
  deriving DecidableEq, Repr

inductive JwkPublicKeyUse
  | sig
  | enc
  deriving DecidableEq, Repr

/-- The members that the resolver sets. -/
structure Jwk where
  kty : JwkKeyType
  keyUse : Option JwkPublicKeyUse
  alg : Option String
  kid : Option String
  crv : Option String
  x : Option String
  deriving DecidableEq, Repr

structure JwkSet where
  keys : List Jwk

namespace KeyCache

def lookup (cache : KeyCache) (kid : String) : Option (List UInt8 × KeyFormat) :=
  (cache.get kid).map fun k => (k.key, k.keyFormat)

def allKeys (cache : KeyCache) : List (String × List UInt8 × KeyFormat) :=
  cache.entries.map fun entry => (entry.2.kid, entry.2.key, entry.2.keyFormat)

def jwkSet (cache : KeyCache) : JwkSet where
  keys := cache.allKeys.map fun (kid, keyBytes, _) => {
    kty := .okp
    crv := some "Ed25519"
    x := some (urlEncode keyBytes)
    kid := some kid
    keyUse := some .sig
    alg := some "EdDSA" }

def extend (cache : KeyCache) (keys : List CachedPublicKey) : KeyCache :=
  keys.foldl (fun cache key => cache.insert key.kid key) cache

end KeyCache

namespace VaultKeyResolverState
variable {σ : Type} (r : VaultKeyResolverState σ)

def cachedKey (keyName keyB64 : String) (i : ℕ) : Except JwtVerificationError CachedPublicKey := do
  let keyBytes ←
    okOr (urlDecode keyB64)
    (.generalError ("Failed to decode public key: " ++ r.decodeError keyB64))
  return { key := keyBytes, kid := versionKid keyName (i + 1) }

/-- The keys of the metadata, numbered from one by their position. -/
def cachedKeys (metadata : KeyMetadata) : Except JwtVerificationError (List CachedPublicKey) :=
  metadata.keys.zipIdx.mapM fun p => r.cachedKey metadata.keyName p.1 p.2

def loadKeys (cache : KeyCache) (s : σ) : Except JwtVerificationError Unit × KeyCache × σ :=
  match r.vaultClient.signingKeyName with
  | none => (.error (.generalError "signing_key_name not configured"), cache, s)
  | some keyName =>
    let (metadata, s') := r.vaultClient.getKeyMetadata r.signingContext keyName .base64Url s
    match metadata with
    | .error e => (.error (.generalError ("Failed to get key metadata: " ++ e.message)), cache, s')
    | .ok metadata =>
      match r.cachedKeys metadata with
      | .error e => (.error e, cache, s')
      | .ok keys => (.ok (), cache.extend keys, s')

/-- A miss loads the keys once more. -/
def resolveKey (cache : KeyCache) (kid : String) (s : σ) :
    Except JwtVerificationError KeyMaterial × KeyCache × σ :=
  match cache.lookup kid with
  | some (key, keyFormat) => (.ok ⟨keyFormat, key, kid.toList⟩, cache, s)
  | none =>
    let (result, cache', s') := r.loadKeys cache s
    match result with
    | .error e => (.error (.verificationFailed e.message), cache', s')
    | .ok () =>
      match cache'.lookup kid with
      | some (key, keyFormat) => (.ok ⟨keyFormat, key, kid.toList⟩, cache', s')
      | none => (.error (.verificationFailed ("Key '" ++ kid ++ "' not found")), cache', s')

/-- Loads in one server state after the other. -/
def loadAll (cache : KeyCache) (states : List σ) : KeyCache :=
  states.foldl (fun cache s => (r.loadKeys cache s).2.1) cache

end VaultKeyResolverState

/-! ## What a load adds -/

/-- The cached keys of a list of versions, numbered on from `n`. -/
def numbered (name : String) (pub : ℕ → List UInt8) : ℕ → List ℕ → List CachedPublicKey
  | _, [] => []
  | n, v :: vs => { key := pub v, kid := versionKid name (n + 1) } :: numbered name pub (n + 1) vs

section Numbered
variable {name : String} {pub : ℕ → List UInt8} {cache : KeyCache} {vs : List ℕ} {n : ℕ}

theorem get_extend_of_ne {id : String} (h : ∀ j < vs.length, id ≠ versionKid name (n + j + 1)) :
    (cache.extend (numbered name pub n vs)).get id = cache.get id := by
  induction vs generalizing n cache with
  | nil => rfl
  | cons v vs ih =>
    have hne : id ≠ versionKid name (n + 1) := h 0 (by simp)
    have hrest : ∀ j < vs.length, id ≠ versionKid name (n + 1 + j + 1) := by
      intro j hj
      have hlt : j + 1 < (v :: vs).length := by simpa using hj
      have hid := h (j + 1) hlt
      rwa [show n + (j + 1) + 1 = n + 1 + j + 1 by omega] at hid
    rw [KeyCache.extend, numbered, List.foldl_cons]
    exact (ih hrest).trans (by rw [HashMap.get_insert, if_neg hne])

theorem get_extend_of_lt {j : ℕ} (h : j < vs.length) :
    (cache.extend (numbered name pub n vs)).get (versionKid name (n + j + 1)) =
      some { key := pub vs[j], kid := versionKid name (n + j + 1) } := by
  induction vs generalizing n j cache with
  | nil => simp at h
  | cons v vs ih =>
    rw [KeyCache.extend, numbered, List.foldl_cons]
    cases j with
    | zero =>
      have hlater : ∀ j < vs.length,
          versionKid name (n + 0 + 1) ≠ versionKid name (n + 1 + j + 1) := by
        intro j _ he
        have := versionKid_injective he
        omega
      refine (get_extend_of_ne hlater).trans ?_
      rw [HashMap.get_insert, if_pos rfl]
      rfl
    | succ j =>
      have hj : j < vs.length := by simpa using h
      have hget := @ih
        (cache.insert (versionKid name (n + 1)) { key := pub v, kid := versionKid name (n + 1) })
        (n + 1) j hj
      rw [show n + 1 + j + 1 = n + (j + 1) + 1 by omega] at hget
      exact hget

theorem cachedKeys_numbered {σ : Type} (r : VaultKeyResolverState σ)
    (bs58Encode : List UInt8 → String) (currentVersion : ℕ) :
    r.cachedKeys ⟨name, vs.map (fun v => keyText bs58Encode (pub v) .base64Url), currentVersion⟩ =
      .ok (numbered name pub 0 vs) := by
  have hnumber : ∀ (vs : List ℕ) (n : ℕ),
      ((vs.map fun v => keyText bs58Encode (pub v) .base64Url).zipIdx n).mapM
      (fun p => r.cachedKey name p.1 p.2) = .ok (numbered name pub n vs) := by
    intro vs
    induction vs with
    | nil => exact fun n => rfl
    | cons v vs ih =>
      intro n
      have hkey : r.cachedKey name (keyText bs58Encode (pub v) .base64Url) n =
          .ok { key := pub v, kid := versionKid name (n + 1) } := by
        simp [VaultKeyResolverState.cachedKey, keyText, urlDecode_encode, okOr, bind, Except.bind,
          pure, Except.pure]
      rw [List.map_cons, List.zipIdx_cons, List.mapM_cons, hkey, ih (n + 1)]
      rfl
  exact hnumber vs 0

/-- The cache holds the first `m` numbers, each key under its own `kid`. -/
structure Counted (cache : KeyCache) (name : String) (m : ℕ) : Prop where
  get_iff : ∀ id, cache.get id ≠ none ↔ ∃ j < m, id = versionKid name (j + 1)
  kid_eq : ∀ id key, cache.get id = some key → key.kid = id

theorem counted_empty : Counted HashMap.empty name 0 := ⟨by simp, by simp⟩

theorem Counted.extend {m : ℕ} (h : Counted cache name m) :
    Counted (cache.extend (numbered name pub 0 vs)) name (max m vs.length) := by
  have hcases : ∀ id, (∃ j, ∃ hj : j < vs.length, id = versionKid name (j + 1) ∧
      (cache.extend (numbered name pub 0 vs)).get id = some { key := pub vs[j], kid := id }) ∨
      (∀ j < vs.length, id ≠ versionKid name (j + 1)) ∧
        (cache.extend (numbered name pub 0 vs)).get id = cache.get id := by
    intro id
    by_cases hid : ∃ j < vs.length, id = versionKid name (j + 1)
    · obtain ⟨j, hj, rfl⟩ := hid
      have hget := @get_extend_of_lt name pub cache vs 0 j hj
      rw [Nat.zero_add] at hget
      exact Or.inl ⟨j, hj, rfl, hget⟩
    · have hne : ∀ j < vs.length, id ≠ versionKid name (j + 1) := fun j hj he => hid ⟨j, hj, he⟩
      exact Or.inr ⟨hne, get_extend_of_ne fun j hj => by rw [Nat.zero_add]; exact hne j hj⟩
  constructor
  · intro id
    rcases hcases id with ⟨j, hj, rfl, hget⟩ | ⟨hne, hget⟩
    · rw [hget]
      exact ⟨fun _ => ⟨j, lt_max_of_lt_right hj, rfl⟩, fun _ => by simp⟩
    · rw [hget, h.get_iff]
      constructor
      · intro hj
        obtain ⟨j, hj, he⟩ := hj
        exact ⟨j, lt_max_of_lt_left hj, he⟩
      · intro hj
        obtain ⟨j, hj, he⟩ := hj
        rcases lt_max_iff.mp hj with hj | hj
        · exact ⟨j, hj, he⟩
        · exact absurd he (hne j hj)
  · intro id key hkey
    rcases hcases id with ⟨j, hj, -, hget⟩ | ⟨-, hget⟩
    · rw [hget] at hkey
      rw [← Option.some.inj hkey]
    · exact h.kid_eq id key (hget ▸ hkey)

end Numbered

/-! ## Loads over a changing set of versions -/

/-- The cache serves exactly the versions of a key, and the one that signs among them. -/
structure Serves (cache : KeyCache) (name : String) (pub : ℕ → List UInt8)
    (k : TransitKey) : Prop where
  present : ∀ v ∈ k.versions, cache.lookup (versionKid name v) = some (pub v, .der)
  absent : ∀ id, (∀ v ∈ k.versions, id ≠ versionKid name v) → cache.lookup id = none
  listed : (cache.jwkSet.keys.map Jwk.kid).Perm (k.versions.map fun v => some (versionKid name v))
  signing : cache.lookup (versionKid name k.latest) = some (pub k.latest, .der)

theorem lookup_eq_none_iff {cache : KeyCache} {id : String} :
    cache.lookup id = none ↔ cache.get id = none := by
  simp [KeyCache.lookup]

theorem Counted.listed {cache : KeyCache} {name : String} {m : ℕ} (h : Counted cache name m)
    {k : TransitKey} (hversions : ∀ v, v ∈ k.versions ↔ ∃ j < m, v = j + 1) :
    (cache.jwkSet.keys.map Jwk.kid).Perm (k.versions.map fun v => some (versionKid name v)) := by
  have hkids : cache.jwkSet.keys.map Jwk.kid = cache.entries.map fun entry => some entry.1 := by
    simp only [KeyCache.jwkSet, KeyCache.allKeys, List.map_map]
    refine List.map_congr_left fun entry hentry => ?_
    exact congrArg some (h.kid_eq entry.1 entry.2 (cache.get_eq_some_iff.mpr hentry))
  have hnodup : (cache.entries.map fun entry => some entry.1).Nodup := by
    have hmap : (cache.entries.map fun entry => some entry.1) =
        (cache.entries.map Prod.fst).map some := by simp
    rw [hmap]
    exact cache.nodup.map (Option.some_injective _)
  have hnodup' : (k.versions.map fun v => some (versionKid name v)).Nodup :=
    k.nodup.map fun v w hvw => versionKid_injective (Option.some.inj hvw)
  rw [hkids, List.perm_ext_iff_of_nodup hnodup hnodup']
  intro id
  constructor
  · intro hid
    obtain ⟨entry, hentry, rfl⟩ := List.mem_map.mp hid
    have hget : cache.get entry.1 ≠ none := by simp [cache.get_eq_some_iff.mpr hentry]
    obtain ⟨j, hj, he⟩ := (h.get_iff entry.1).mp hget
    exact List.mem_map.mpr ⟨j + 1, (hversions _).mpr ⟨j, hj, rfl⟩, by rw [he]⟩
  · intro hid
    obtain ⟨v, hv, rfl⟩ := List.mem_map.mp hid
    obtain ⟨j, hj, rfl⟩ := (hversions v).mp hv
    obtain ⟨key, hkey⟩ :=
      Option.ne_none_iff_exists'.mp ((h.get_iff (versionKid name (j + 1))).mpr ⟨j, hj, rfl⟩)
    exact List.mem_map.mpr ⟨_, cache.get_eq_some_iff.mp hkey, rfl⟩

theorem Counted.versions_of_serves {cache : KeyCache} {name : String} {m : ℕ}
    (h : Counted cache name m) {pub : ℕ → List UInt8} {k : TransitKey}
    (hs : Serves cache name pub k) (v : ℕ) : v ∈ k.versions ↔ ∃ j < m, v = j + 1 := by
  constructor
  · intro hv
    have hget : cache.get (versionKid name v) ≠ none := by
      intro hnone
      have hpresent := hs.present v hv
      rw [lookup_eq_none_iff.mpr hnone] at hpresent
      exact absurd hpresent (by simp)
    obtain ⟨j, hj, he⟩ := (h.get_iff _).mp hget
    exact ⟨j, hj, versionKid_injective he⟩
  · intro hv
    obtain ⟨j, hj, rfl⟩ := hv
    by_contra hnot
    have habsent : ∀ w ∈ k.versions, versionKid name (j + 1) ≠ versionKid name w := by
      intro w hw he
      exact hnot (versionKid_injective he ▸ hw)
    exact (h.get_iff _).mpr ⟨j, hj, rfl⟩ (lookup_eq_none_iff.mp (hs.absent _ habsent))

theorem TransitKey.sorted_eq_of_versions {k : TransitKey} {m : ℕ}
    (h : ∀ v, v ∈ k.versions ↔ ∃ j < m, v = j + 1) : k.sorted = List.range' 1 m := by
  have hmem : ∀ v, v ∈ k.versions ↔ v ∈ List.range' 1 m := by
    intro v
    rw [h, List.mem_range'_1]
    constructor
    · intro hj
      obtain ⟨j, hj, rfl⟩ := hj
      omega
    · intro hv
      exact ⟨v - 1, by omega, by omega⟩
  have hperm : k.versions.Perm (List.range' 1 m) :=
    (List.perm_ext_iff_of_nodup k.nodup List.nodup_range').mpr hmem
  have hsorted : k.sorted.Pairwise (· ≤ ·) := List.pairwise_insertionSort _ _
  have hrange : (List.range' 1 m).Pairwise (· ≤ ·) := List.pairwise_le_range'
  exact ((List.perm_insertionSort _ _).trans hperm).eq_of_pairwise (fun a b _ _ =>
    le_antisymm) hsorted hrange

section Loads
variable {σ : Type} {c : HashicorpVaultClient σ} {keyName : String} (E : TransitEngine c keyName)
  {r : VaultKeyResolverState σ} {bs58Encode : List UInt8 → String}

/-- The name in the kids of a client. -/
def HashicorpVaultClient.kidName (c : HashicorpVaultClient σ) (keyName : String) : String :=
  (c.config.jwtKidTransformer.getD id) keyName

theorem loadKeys_of_metadata (hclient : r.vaultClient = c.signingClient bs58Encode)
    (hname : c.config.signingKeyName = some keyName) {s : σ} {metadata : KeyMetadata}
    (hmeta : (r.vaultClient.getKeyMetadata r.signingContext keyName .base64Url s).1 = .ok metadata)
    (cache : KeyCache) : (r.loadKeys cache s).1 = .ok () ∧ (r.loadKeys cache s).2.1 =
      cache.extend (numbered (c.kidName keyName) E.pub 0 (E.key s).sorted) := by
  have hsigning : r.vaultClient.signingKeyName = some keyName := by rw [hclient]; exact hname
  have hmetadata := E.getKeyMetadata_ok (hclient ▸ hmeta)
  have hkeys : r.cachedKeys metadata =
      .ok (numbered (c.kidName keyName) E.pub 0 (E.key s).sorted) := by
    rw [hmetadata]
    exact cachedKeys_numbered r bs58Encode (E.key s).latest
  simp [VaultKeyResolverState.loadKeys, hsigning, hmeta, hkeys]

/-- A load fails and changes nothing, or adds the versions it finds; which of the two does not
depend on the cache. -/
theorem loadKeys_cases (hclient : r.vaultClient = c.signingClient bs58Encode)
    (hname : c.config.signingKeyName = some keyName) (s : σ) :
    (∃ e, ∀ cache, (r.loadKeys cache s).1 = .error e ∧ (r.loadKeys cache s).2.1 = cache) ∨
      ∀ cache, (r.loadKeys cache s).1 = .ok () ∧ (r.loadKeys cache s).2.1 =
        cache.extend (numbered (c.kidName keyName) E.pub 0 (E.key s).sorted) := by
  have hsigning : r.vaultClient.signingKeyName = some keyName := by rw [hclient]; exact hname
  cases hmeta : (r.vaultClient.getKeyMetadata r.signingContext keyName .base64Url s).1 with
  | error e =>
    refine Or.inl ⟨.generalError ("Failed to get key metadata: " ++ e.message), fun cache => ?_⟩
    simp [VaultKeyResolverState.loadKeys, hsigning, hmeta]
  | ok metadata => exact Or.inr (loadKeys_of_metadata E hclient hname hmeta)

theorem exists_counted (hclient : r.vaultClient = c.signingClient bs58Encode)
    (hname : c.config.signingKeyName = some keyName) (states : List σ) :
    ∃ m, Counted (r.loadAll HashMap.empty states) (c.kidName keyName) m ∧
      (∀ s ∈ states, (r.loadKeys HashMap.empty s).1 = .ok () → (E.key s).versions.length ≤ m) ∧
      ∀ n, (∀ s ∈ states, (r.loadKeys HashMap.empty s).1 = .ok () → (E.key s).versions.length ≤ n) →
      m ≤ n := by
  induction states using List.reverseRecOn with
  | nil => exact ⟨0, counted_empty, by simp, by simp⟩
  | append_singleton states s ih =>
    obtain ⟨m, hcounted, hbound, hleast⟩ := ih
    have hstep : r.loadAll HashMap.empty (states ++ [s]) =
        (r.loadKeys (r.loadAll HashMap.empty states) s).2.1 := by
      simp [VaultKeyResolverState.loadAll]
    rcases loadKeys_cases E hclient hname s with ⟨e, herror⟩ | hok
    · refine ⟨m, by rw [hstep, (herror _).2]; exact hcounted, ?_, ?_⟩
      · intro s' hs' hload
        rcases List.mem_append.mp hs' with hs' | hs'
        · exact hbound s' hs' hload
        · rw [List.mem_singleton.mp hs', (herror _).1] at hload
          exact absurd hload (by simp)
      · exact fun n hn => hleast n fun s' hs' => hn s' (List.mem_append_left _ hs')
    · refine ⟨max m (E.key s).versions.length, ?_, ?_, ?_⟩
      · rw [hstep, (hok _).2, ← TransitKey.length_sorted]
        exact hcounted.extend
      · intro s' hs' hload
        rcases List.mem_append.mp hs' with hs' | hs'
        · exact le_max_of_le_left (hbound s' hs' hload)
        · rw [List.mem_singleton.mp hs']
          exact le_max_right _ _
      · intro n hn
        exact max_le (hleast n fun s' hs' => hn s' (List.mem_append_left _ hs'))
          (hn s (List.mem_append_right _ (List.mem_singleton.mpr rfl)) (hok _).1)

theorem lookup_extend_counted {cache : KeyCache} {name : String} {pub : ℕ → List UInt8} {m v : ℕ}
    (hv : ∃ j < m, v = j + 1) :
    (cache.extend (numbered name pub 0 (List.range' 1 m))).lookup (versionKid name v) =
      some (pub v, .der) := by
  obtain ⟨j, hj, rfl⟩ := hv
  have hlen : j < (List.range' 1 m).length := by simpa using hj
  have hget := @get_extend_of_lt name pub cache (List.range' 1 m) 0 j hlen
  rw [Nat.zero_add] at hget
  simp [KeyCache.lookup, hget, Nat.add_comm]

theorem headerKid_ok {g : VaultJwtGenerator σ}
    (hclient : g.signingClient = c.signingClient bs58Encode) {pc : ParticipantContext} {s : σ}
    {kid : String} (h : (g.headerKid pc ⟨keyName, none⟩ s).1 = .ok kid) :
    kid = versionKid (c.kidName keyName) (E.key s).latest := by
  unfold VaultJwtGenerator.headerKid at h
  cases hmeta : (g.signingClient.getKeyMetadata pc keyName .multibase s).1 with
  | error e => simp [hmeta] at h
  | ok metadata =>
    have hmetadata := E.getKeyMetadata_ok (hclient ▸ hmeta)
    simp only [hmeta, Except.ok.injEq] at h
    rw [← h, hmetadata]
    rfl

theorem resolveKey_iff (hclient : r.vaultClient = c.signingClient bs58Encode)
    (hname : c.config.signingKeyName = some keyName) {cache : KeyCache} {m : ℕ}
    (hcounted : Counted cache (c.kidName keyName) m) {s : σ}
    (hload : (r.loadKeys cache s).1 = .ok ()) (kid : String) :
    (∃ material, (r.resolveKey cache kid s).1 = .ok material) ↔
      ∃ j < max m (E.key s).versions.length, kid = versionKid (c.kidName keyName) (j + 1) := by
  have hcache : (r.loadKeys cache s).2.1 =
      cache.extend (numbered (c.kidName keyName) E.pub 0 (E.key s).sorted) := by
    rcases loadKeys_cases E hclient hname s with ⟨e, herror⟩ | hok
    · rw [(herror cache).1] at hload
      exact absurd hload (by simp)
    · exact (hok cache).2
  have hcounted' := @Counted.extend _ E.pub _ (E.key s).sorted m hcounted
  rw [TransitKey.length_sorted, ← hcache] at hcounted'
  unfold VaultKeyResolverState.resolveKey
  cases hlookup : cache.lookup kid with
  | some found =>
    obtain ⟨j, hj, he⟩ :=
      (hcounted.get_iff kid).mp fun hnone => by simp [lookup_eq_none_iff.mpr hnone] at hlookup
    exact ⟨fun _ => ⟨j, lt_max_of_lt_left hj, he⟩, fun _ => ⟨_, rfl⟩⟩
  | none =>
    rw [← hcounted'.get_iff kid]
    simp only [hload]
    cases hlookup' : (r.loadKeys cache s).2.1.lookup kid with
    | some found =>
      refine ⟨fun _ hnone => ?_, fun _ => ⟨_, rfl⟩⟩
      simp [lookup_eq_none_iff.mpr hnone] at hlookup'
    | none =>
      refine ⟨fun h => ?_, fun h => absurd (lookup_eq_none_iff.mp hlookup') h⟩
      obtain ⟨material, h⟩ := h
      exact absurd h (by simp)

/-- After a successful load the served keys are the versions of the key exactly when these are
numbered without a gap from one and no earlier load found more of them. -/
theorem served_keys_exact (hclient : r.vaultClient = c.signingClient bs58Encode)
    (hname : c.config.signingKeyName = some keyName) (states : List σ) {s : σ}
    (hload : (r.loadKeys (r.loadAll HashMap.empty states) s).1 = .ok ()) :
    (Serves (r.loadKeys (r.loadAll HashMap.empty states) s).2.1
      (c.kidName keyName) E.pub (E.key s) ↔
      (∀ v, v ∈ (E.key s).versions ↔ 1 ≤ v ∧ v ≤ (E.key s).versions.length) ∧
      ∀ earlier ∈ states, (r.loadKeys HashMap.empty earlier).1 = .ok () →
        (E.key earlier).versions.length ≤ (E.key s).versions.length) ∧
    ∀ (g : VaultJwtGenerator σ) (pc : ParticipantContext) (kid : String),
      g.signingClient = c.signingClient bs58Encode →
        (g.headerKid pc ⟨keyName, none⟩ s).1 = .ok kid →
      kid = versionKid (c.kidName keyName) (E.key s).latest := by
  refine ⟨?_, fun g pc kid hg hkid => headerKid_ok E hg hkid⟩
  obtain ⟨m, hcounted, hbound, hleast⟩ := exists_counted E hclient hname states
  obtain ⟨-, hcache⟩ : (r.loadKeys (r.loadAll HashMap.empty states) s).1 = .ok () ∧ _ := by
    rcases loadKeys_cases E hclient hname s with ⟨e, herror⟩ | hok
    · rw [(herror _).1] at hload
      exact absurd hload (by simp)
    · exact hok (r.loadAll HashMap.empty states)
  rw [hcache]
  have hcounted' := @Counted.extend _ E.pub _ (E.key s).sorted m hcounted
  rw [TransitKey.length_sorted] at hcounted'
  constructor
  · intro hserves
    have hversions := hcounted'.versions_of_serves hserves
    have hlength : (E.key s).versions.length = max m (E.key s).versions.length := by
      have hsorted := congrArg List.length (TransitKey.sorted_eq_of_versions hversions)
      rwa [TransitKey.length_sorted, List.length_range'] at hsorted
    refine ⟨fun v => ?_, fun earlier hearlier hok => ?_⟩
    · rw [hversions, ← hlength]
      constructor
      · intro hj
        obtain ⟨j, hj, rfl⟩ := hj
        omega
      · intro hv
        exact ⟨v - 1, by omega, by omega⟩
    · exact (hbound earlier hearlier hok).trans (hlength ▸ le_max_left _ _)
  · intro hcond
    obtain ⟨hversions, hearlier⟩ := hcond
    have hm : max m (E.key s).versions.length = (E.key s).versions.length :=
      max_eq_right (hleast _ hearlier)
    have hcount : ∀ v, v ∈ (E.key s).versions ↔ ∃ j < (E.key s).versions.length, v = j + 1 := by
      intro v
      rw [hversions]
      constructor
      · intro hv
        exact ⟨v - 1, by omega, by omega⟩
      · intro hj
        obtain ⟨j, hj, rfl⟩ := hj
        omega
    have hsorted := TransitKey.sorted_eq_of_versions hcount
    rw [hm, hsorted] at hcounted'
    rw [hsorted]
    refine ⟨fun v hv => lookup_extend_counted ((hcount v).mp hv), fun id hid => ?_,
      hcounted'.listed hcount, lookup_extend_counted ((hcount _).mp (E.key s).latest_mem)⟩
    by_contra hfound
    obtain ⟨j, hj, rfl⟩ :=
      (hcounted'.get_iff id).mp fun hnone => hfound (lookup_eq_none_iff.mpr hnone)
    exact hid (j + 1) ((hcount _).mpr ⟨j, hj, rfl⟩) rfl

end Loads

def demoResolver : VaultKeyResolverState DemoKeys where
  vaultClient := demoVault.signingClient fun _ => ""
  signingContext := { id := "siglet" }
  decodeError := fun _ => "Invalid symbol"

/-- Every name has the same versions. -/
def demoVersions (versions : List ℕ) (hnodup : versions.Nodup) (hne : versions ≠ [])
    (hbounded : ∀ v ∈ versions, v < 2 ^ 64) : DemoKeys := fun _ => ⟨versions, hnodup, hne, hbounded⟩

def firstVersion : DemoKeys := demoVersions [1] (by decide) (by decide) (by decide)

def rotatedVersions : DemoKeys := demoVersions [1, 2] (by decide) (by decide) (by decide)

def trimmedVersions : DemoKeys := demoVersions [2, 3] (by decide) (by decide) (by decide)

theorem demo_loadKeys (cache : KeyCache) (keys : DemoKeys) :
    (demoResolver.loadKeys cache keys).1 = .ok () ∧ (demoResolver.loadKeys cache keys).2.1 =
      cache.extend (numbered "signing-siglet" demoPublicKey 0 (keys "signing-siglet").sorted) :=
  loadKeys_of_metadata (demoEngine "signing-siglet") (r := demoResolver) rfl rfl
    (demo_getKeyMetadata (fun _ => "") demoResolver.signingContext
      "signing-siglet" .base64Url keys) cache

/-- Plain rotation: a load with one version, then one with two. -/
theorem served_keys_exact_rotation :
    (demoResolver.loadKeys (demoResolver.loadAll HashMap.empty [firstVersion])
      rotatedVersions).2.1.lookup
        "signing-siglet-2" = some (demoPublicKey 2, .der) ∧
      (demoResolver.loadKeys (demoResolver.loadAll HashMap.empty [firstVersion])
        rotatedVersions).2.1.lookup "signing-siglet-3" = none := by
  have hmain :=
    (served_keys_exact (demoEngine "signing-siglet") (r := demoResolver) rfl rfl [firstVersion]
      (s := rotatedVersions) (demo_loadKeys _ _).1).1
  have hversions : ∀ v, v ∈ [1, 2] ↔ 1 ≤ v ∧ v ≤ 2 := by
    intro v
    simp only [List.mem_cons, List.not_mem_nil, or_false]
    omega
  have hserves :=
    hmain.mpr ⟨hversions, by simp [demoEngine, firstVersion, rotatedVersions, demoVersions]⟩
  refine ⟨hserves.present 2 (by decide), hserves.absent _ fun v hv => ?_⟩
  have hle := (hversions v).mp hv
  intro he
  have hthree : "signing-siglet-3" = versionKid "signing-siglet" 3 := by rfl
  have : 3 = v := versionKid_injective (hthree.symm.trans he)
  omega

/-- The first version was trimmed: the second is served as the first, and the signing key not at
all. -/
theorem trimmed_versions_renumbered :
    (¬ ∀ (σ : Type) (c : HashicorpVaultClient σ) (keyName : String) (E : TransitEngine c keyName)
      (r : VaultKeyResolverState σ) (bs58Encode : List UInt8 → String) (states : List σ) (s : σ),
      r.vaultClient = c.signingClient bs58Encode → c.config.signingKeyName = some keyName →
      (r.loadKeys (r.loadAll HashMap.empty states) s).1 = .ok () →
      Serves (r.loadKeys (r.loadAll HashMap.empty states) s).2.1
        (c.kidName keyName) E.pub (E.key s)) ∧
    (demoResolver.loadKeys HashMap.empty trimmedVersions).2.1.lookup "signing-siglet-1" =
      some (demoPublicKey 2, .der) := by
  have hload := (demo_loadKeys HashMap.empty trimmedVersions).2
  refine ⟨fun h => ?_, by rw [hload]; rfl⟩
  have hserves :=
    h DemoKeys demoVault "signing-siglet" (demoEngine "signing-siglet") demoResolver
      (fun _ => "") []
      trimmedVersions rfl rfl (demo_loadKeys _ _).1
  have hsigning := hserves.signing
  rw [VaultKeyResolverState.loadAll, List.foldl_nil, hload] at hsigning
  exact absurd hsigning (by decide +kernel)

end Facet.Vault
