import Facet.KeyResolver
import Facet.Machine

/-!
# The key cache under interleaved loads

Lookups, loads on a miss and background loads share the cache of `VaultKeyResolverState`. A load
is two steps, the answer of Vault, which is decoded as a whole, and one write; a lookup that
missed reads the cache again after the write of its own load. A listing reads the cache of the
moment.
-/
namespace Facet.Vault
open Did (KeyFormat KeyMaterial)

namespace VaultKeyResolverState
variable {σ : Type} (r : VaultKeyResolverState σ)

/-- `load_keys` up to the write. -/
def fetchKeys (s : σ) : Except JwtVerificationError (List CachedPublicKey) :=
  match r.vaultClient.signingKeyName with
  | none => .error (.generalError "signing_key_name not configured")
  | some keyName =>
    match (r.vaultClient.getKeyMetadata r.signingContext keyName .base64Url s).1 with
    | .error e => .error (.generalError ("Failed to get key metadata: " ++ e.message))
    | .ok metadata => r.cachedKeys metadata

variable {r}

theorem loadKeys_of_error (cache : KeyCache) {s : σ} {e : JwtVerificationError}
    (hfetch : r.fetchKeys s = .error e) :
    (r.loadKeys cache s).1 = .error e ∧ (r.loadKeys cache s).2.1 = cache := by
  unfold fetchKeys at hfetch
  unfold loadKeys
  cases hname : r.vaultClient.signingKeyName with
  | none => simpa [hname] using hfetch
  | some keyName =>
    simp only [hname] at hfetch ⊢
    cases hmetadata : (r.vaultClient.getKeyMetadata r.signingContext keyName .base64Url s).1 with
    | error e' => simpa [hmetadata] using hfetch
    | ok metadata =>
      simp only [hmetadata] at hfetch ⊢
      simp [hfetch]

theorem loadKeys_of_ok (cache : KeyCache) {s : σ} {keys : List CachedPublicKey}
    (hfetch : r.fetchKeys s = .ok keys) :
    (r.loadKeys cache s).1 = .ok () ∧ (r.loadKeys cache s).2.1 = cache.extend keys := by
  unfold fetchKeys at hfetch
  unfold loadKeys
  cases hname : r.vaultClient.signingKeyName with
  | none => simp [hname] at hfetch
  | some keyName =>
    simp only [hname] at hfetch ⊢
    cases hmetadata : (r.vaultClient.getKeyMetadata r.signingContext keyName .base64Url s).1 with
    | error e' => simp [hmetadata] at hfetch
    | ok metadata =>
      simp only [hmetadata] at hfetch ⊢
      simp [hfetch]

end VaultKeyResolverState

namespace CacheRuns

/-- Where a call stands; a background load has no `kid`. -/
inductive Phase (σ : Type)
  | loading (kid : Option String)
  | storing (kid : Option String) (server : σ) (keys : List CachedPublicKey)
  | retrying (kid : String) (server : σ)

/-- The result of a `resolve_key`, with the state of Vault that its own load saw, if it made one. -/
structure Resolved (σ : Type) where
  call : ℕ
  kid : String
  result : Except JwtVerificationError KeyMaterial
  load : Option σ

/-- The newest result comes first. -/
structure State (σ : Type) where
  cache : KeyCache
  calls : HashMap ℕ (Phase σ)
  results : List (Resolved σ)

inductive Label (σ : Type)
  | resolveKey (call : ℕ) (kid : String)
  | refresh (call : ℕ)
  | answer (call : ℕ) (server : σ)
  | store (call : ℕ)
  | retry (call : ℕ)
  | abandon (call : ℕ)

variable {σ : Type}

def State.resolved (s : State σ) (call : ℕ) (kid : String)
    (result : Except JwtVerificationError KeyMaterial) (load : Option σ) : State σ :=
  { s with calls := s.calls.remove call, results := ⟨call, kid, result, load⟩ :: s.results }

/-- What a hit answers. -/
def material (kid : String) (found : List UInt8 × KeyFormat) : KeyMaterial :=
  ⟨found.2, found.1, kid.toList⟩

def next (r : VaultKeyResolverState σ) (s : State σ) : Label σ → Option (State σ)
  | .resolveKey call kid =>
    match s.calls.get call with
    | some _ => none
    | none =>
      match s.cache.lookup kid with
      | some found => some (s.resolved call kid (.ok (material kid found)) none)
      | none => some { s with calls := s.calls.insert call (.loading (some kid)) }
  | .refresh call =>
    match s.calls.get call with
    | some _ => none
    | none => some { s with calls := s.calls.insert call (.loading none) }
  | .answer call server =>
    match s.calls.get call with
    | some (.loading kid) =>
      match r.fetchKeys server, kid with
      | .ok keys, kid => some { s with calls := s.calls.insert call (.storing kid server keys) }
      | .error e, some kid =>
        some (s.resolved call kid (.error (.verificationFailed e.message)) (some server))
      | .error _, none => some { s with calls := s.calls.remove call }
    | _ => none
  | .store call =>
    match s.calls.get call with
    | some (.storing (some kid) server keys) => some { s with
        cache := s.cache.extend keys
        calls := s.calls.insert call (.retrying kid server) }
    | some (.storing none _ keys) =>
      some { s with cache := s.cache.extend keys, calls := s.calls.remove call }
    | _ => none
  | .retry call =>
    match s.calls.get call with
    | some (.retrying kid server) =>
      match s.cache.lookup kid with
      | some found => some (s.resolved call kid (.ok (material kid found)) (some server))
      | none =>
        some (s.resolved call kid (.error (.verificationFailed ("Key '" ++ kid ++ "' not found")))
          (some server))
    | _ => none
  | .abandon call => some { s with calls := s.calls.remove call }

def machine (r : VaultKeyResolverState σ) : Machine (State σ) (Label σ) where
  init s := s.cache = HashMap.empty ∧ s.calls = HashMap.empty ∧ s.results = []
  next := next r

/-! ## The cache and its listing -/

/-- Each key is cached under its own `kid`. -/
def Filed (cache : KeyCache) : Prop := ∀ kid key, cache.get kid = some key → key.kid = kid

/-- The listing has one key for each cached `kid`, with the bytes that a lookup gives. -/
structure Agrees (r : VaultKeyResolverState σ) (cache : KeyCache) : Prop where
  once : (cache.jwkSet.keys.map Jwk.kid).Nodup
  listed : ∀ kid, some kid ∈ cache.jwkSet.keys.map Jwk.kid ↔ cache.lookup kid ≠ none
  bytes : ∀ jwk ∈ cache.jwkSet.keys, ∃ kid x key keyFormat, jwk.kid = some kid ∧ jwk.x = some x ∧
    urlDecode x = some key ∧
      ∀ server, r.resolveKey cache kid server = (.ok ⟨keyFormat, key, kid.toList⟩, cache, server)

theorem get_extend {cache : KeyCache} {keys : List CachedPublicKey} {kid : String}
    {key : CachedPublicKey} (hget : (cache.extend keys).get kid = some key) :
    key.kid = kid ∧ key ∈ keys ∨ (∀ k ∈ keys, k.kid ≠ kid) ∧ cache.get kid = some key :=
  HashMap.get_extendBy_eq_some hget

theorem get_extend_ne_none (cache : KeyCache) (keys : List CachedPublicKey) :
    (∀ kid, cache.get kid ≠ none → (cache.extend keys).get kid ≠ none) ∧
      ∀ key ∈ keys, (cache.extend keys).get key.kid ≠ none := by
  have hlast : ∀ kid, (cache.extend keys).get kid =
      (keys.reverse.find? fun key => decide (key.kid = kid)).or (cache.get kid) :=
    HashMap.get_extendBy cache CachedPublicKey.kid keys
  constructor
  · intro kid hcached hnone
    rw [hlast, Option.or_eq_none_iff] at hnone
    exact hcached hnone.2
  · intro key hkey
    obtain ⟨other, hother⟩ := HashMap.exists_get_extendBy cache CachedPublicKey.kid hkey
    rw [show (cache.extend keys).get key.kid = some other from hother]
    simp

theorem Filed.extend {cache : KeyCache} (hfiled : Filed cache) (keys : List CachedPublicKey) :
    Filed (cache.extend keys) := by
  intro kid key hget
  rcases get_extend hget with ⟨hkid, -⟩ | ⟨-, hold⟩
  · exact hkid
  · exact hfiled kid key hold

theorem Filed.agrees {cache : KeyCache} (hfiled : Filed cache) (r : VaultKeyResolverState σ) :
    Agrees r cache := by
  have hkids : cache.jwkSet.keys.map Jwk.kid = (cache.entries.map Prod.fst).map some := by
    simp only [KeyCache.jwkSet, KeyCache.allKeys, List.map_map]
    refine List.map_congr_left fun entry hentry => ?_
    exact congrArg some (hfiled entry.1 entry.2 (cache.get_eq_some_iff.mpr hentry))
  constructor
  · rw [hkids]
    exact cache.nodup.map (Option.some_injective _)
  · intro kid
    rw [hkids, List.mem_map_of_injective (Option.some_injective _), ne_eq, lookup_eq_none_iff]
    constructor
    · intro hkid
      obtain ⟨entry, hentry, rfl⟩ := List.mem_map.mp hkid
      simp [cache.get_eq_some_iff.mpr hentry]
    · intro hcached
      obtain ⟨key, hkey⟩ := Option.ne_none_iff_exists'.mp hcached
      exact List.mem_map.mpr ⟨(kid, key), cache.get_eq_some_iff.mp hkey, rfl⟩
  · intro jwk hjwk
    simp only [KeyCache.jwkSet, KeyCache.allKeys, List.map_map, List.mem_map,
      Function.comp_apply] at hjwk
    obtain ⟨⟨kid, key⟩, hentry, rfl⟩ := hjwk
    have hget := cache.get_eq_some_iff.mpr hentry
    refine ⟨kid, urlEncode key.key, key.key, key.keyFormat, congrArg some
      (hfiled kid key hget), rfl,
      urlDecode_encode key.key, ?_⟩
    intro server
    simp [VaultKeyResolverState.resolveKey, KeyCache.lookup, hget]

/-! ## What a step can do -/

/-- A call that is past the answer of Vault has the keys of that answer. -/
def Phase.Loaded (r : VaultKeyResolverState σ) (cache : KeyCache) : Phase σ → Prop
  | .loading _ => True
  | .storing _ server keys => r.fetchKeys server = .ok keys
  | .retrying _ server =>
    ∃ keys, r.fetchKeys server = .ok keys ∧ ∀ key ∈ keys, cache.get key.kid ≠ none

/-- Calls come, go and answer; one kind of step writes. -/
inductive Effect (r : VaultKeyResolverState σ) (s : State σ) : Label σ → State σ → Prop
  | moved {l : Label σ} (call : ℕ) {phase : Phase σ} (entered : ∀ cache, phase.Loaded r cache) :
    Effect r s l { s with calls := s.calls.insert call phase }
  | left {l : Label σ} (call : ℕ) : Effect r s l { s with calls := s.calls.remove call }
  | found {l : Label σ} (call : ℕ) {kid : String} {found : List UInt8 × KeyFormat} (load : Option σ)
      (lookup : s.cache.lookup kid = some found) :
    Effect r s l (s.resolved call kid (.ok (material kid found)) load)
  | refused {call : ℕ} {kid : String} {server : σ} {e : JwtVerificationError}
      (fetched : r.fetchKeys server = .error e) :
    Effect r s (.answer call server)
      (s.resolved call kid (.error (.verificationFailed e.message)) (some server))
  | missed {call : ℕ} {kid : String} {server : σ}
      (retrying : s.calls.get call = some (.retrying kid server))
      (absent : s.cache.lookup kid = none) :
    Effect r s (.retry call)
      (s.resolved call kid (.error (.verificationFailed ("Key '" ++ kid ++ "' not found")))
        (some server))
  | written {call : ℕ} {kid : Option String} {server : σ} {keys : List CachedPublicKey}
      (storing : s.calls.get call = some (.storing kid server keys)) :
    Effect r s (.store call) { s with
      cache := s.cache.extend keys
      calls := match kid with
        | some kid => s.calls.insert call (.retrying kid server)
        | none => s.calls.remove call }

theorem effect_of_next {r : VaultKeyResolverState σ} {s t : State σ} {l : Label σ}
    (hn : next r s l = some t) : Effect r s l t := by
  cases l with
  | resolveKey call kid =>
    simp only [next] at hn
    cases hcall : s.calls.get call with
    | some phase => simp [hcall] at hn
    | none =>
      cases hlookup : s.cache.lookup kid with
      | some found =>
        simp only [hcall, hlookup, Option.some.injEq] at hn
        exact hn ▸ Effect.found call none hlookup
      | none =>
        simp only [hcall, hlookup, Option.some.injEq] at hn
        exact hn ▸ Effect.moved call fun _ => trivial
  | refresh call =>
    simp only [next] at hn
    cases hcall : s.calls.get call with
    | some phase => simp [hcall] at hn
    | none =>
      simp only [hcall, Option.some.injEq] at hn
      exact hn ▸ Effect.moved call fun _ => trivial
  | answer call server =>
    simp only [next] at hn
    split at hn
    · rename_i kid hcall
      cases hfetch : r.fetchKeys server with
      | ok keys =>
        simp only [hfetch, Option.some.injEq] at hn
        exact hn ▸ Effect.moved call fun _ => hfetch
      | error e =>
        cases kid with
        | some kid =>
          simp only [hfetch, Option.some.injEq] at hn
          exact hn ▸ Effect.refused hfetch
        | none =>
          simp only [hfetch, Option.some.injEq] at hn
          exact hn ▸ Effect.left call
    · exact absurd hn (by simp)
  | store call =>
    simp only [next] at hn
    split at hn
    · rename_i kid server keys hcall
      exact Option.some.inj hn ▸ Effect.written hcall
    · rename_i server keys hcall
      exact Option.some.inj hn ▸ Effect.written hcall
    · exact absurd hn (by simp)
  | retry call =>
    simp only [next] at hn
    split at hn
    · rename_i kid server hcall
      cases hlookup : s.cache.lookup kid with
      | some found =>
        simp only [hlookup, Option.some.injEq] at hn
        exact hn ▸ Effect.found call (some server) hlookup
      | none =>
        simp only [hlookup, Option.some.injEq] at hn
        exact hn ▸ Effect.missed hcall hlookup
    · exact absurd hn (by simp)
  | abandon call => exact Option.some.inj hn ▸ Effect.left call

/-! ## What holds over a run -/

/-- A key that was found is in the cache for good. An error is that of the call's own load, or the
load had no key of that `kid`. -/
structure Resolved.Sound (r : VaultKeyResolverState σ) (cache : KeyCache)
    (result : Resolved σ) : Prop where
  found : ∀ key, result.result = .ok key → cache.get result.kid ≠ none
  failed : ∀ e, result.result = .error e → ∃ server, result.load = some server ∧
    ((∃ e', r.fetchKeys server = .error e' ∧ e = .verificationFailed e'.message) ∨
      ∃ keys, r.fetchKeys server = .ok keys ∧ (∀ key ∈ keys, key.kid ≠ result.kid) ∧
        e = .verificationFailed ("Key '" ++ result.kid ++ "' not found"))

structure Inv (r : VaultKeyResolverState σ) (s : State σ) : Prop where
  filed : Filed s.cache
  calls : ∀ call phase, s.calls.get call = some phase → phase.Loaded r s.cache
  results : ∀ result ∈ s.results, result.Sound r s.cache

section Step
variable {r : VaultKeyResolverState σ} {s t : State σ}

theorem Phase.Loaded.extend {cache : KeyCache} {phase : Phase σ} (hloaded : phase.Loaded r cache)
    (keys : List CachedPublicKey) : phase.Loaded r (cache.extend keys) := by
  cases phase with
  | loading kid => trivial
  | storing kid server fetched => exact hloaded
  | retrying kid server =>
    obtain ⟨fetched, hfetch, hall⟩ := hloaded
    exact ⟨fetched, hfetch, fun key hkey =>
      (get_extend_ne_none cache keys).1 key.kid (hall key hkey)⟩

theorem Resolved.Sound.extend {cache : KeyCache} {result : Resolved σ}
    (hsound : result.Sound r cache) (keys : List CachedPublicKey) :
    result.Sound r (cache.extend keys) where
  found key hkey := (get_extend_ne_none cache keys).1 result.kid (hsound.found key hkey)
  failed := hsound.failed

theorem Inv.goto (h : Inv r s) (call : ℕ) (phase : Phase σ) (hphase : phase.Loaded r s.cache) :
    Inv r { s with calls := s.calls.insert call phase } where
  filed := h.filed
  calls := by
    intro other phase' hget
    rcases HashMap.get_insert_eq_some hget with ⟨-, rfl⟩ | ⟨-, hold⟩
    · exact hphase
    · exact h.calls other phase' hold
  results := h.results

theorem Inv.leave (h : Inv r s) (call : ℕ) : Inv r { s with calls := s.calls.remove call } where
  filed := h.filed
  calls other phase hget := h.calls other phase (HashMap.get_remove_eq_some hget).2
  results := h.results

theorem Inv.resolved (h : Inv r s) {call : ℕ} {kid : String}
    {result : Except JwtVerificationError KeyMaterial} {load : Option σ}
    (hsound : Resolved.Sound r s.cache ⟨call, kid, result, load⟩) :
    Inv r (s.resolved call kid result load) where
  filed := h.filed
  calls other phase hget := h.calls other phase (HashMap.get_remove_eq_some hget).2
  results := List.forall_mem_cons.mpr ⟨hsound, h.results⟩

theorem Inv.write (h : Inv r s) (keys : List CachedPublicKey) :
    Inv r { s with cache := s.cache.extend keys } where
  filed := h.filed.extend keys
  calls call phase hget := (h.calls call phase hget).extend keys
  results result hmem := (h.results result hmem).extend keys

theorem inv_step {l : Label σ} (h : Inv r s) (he : Effect r s l t) : Inv r t := by
  cases he with
  | moved call entered => exact h.goto call _ (entered s.cache)
  | left call => exact h.leave call
  | found call load lookup =>
    refine h.resolved ⟨?_, by simp⟩
    intro key _ hnone
    rw [lookup_eq_none_iff.mpr hnone] at lookup
    exact absurd lookup (by simp)
  | @refused call kid server e fetched =>
    refine h.resolved ⟨by simp, ?_⟩
    intro e' he'
    exact ⟨server, rfl, Or.inl ⟨e, fetched, (Except.error.inj he').symm⟩⟩
  | @missed call kid server retrying absent =>
    obtain ⟨keys, hfetch, hall⟩ := h.calls call _ retrying
    refine h.resolved ⟨by simp, ?_⟩
    intro e he
    refine ⟨server, rfl, Or.inr ⟨keys, hfetch, ?_, (Except.error.inj he).symm⟩⟩
    intro key hkey heq
    exact hall key hkey (heq ▸ lookup_eq_none_iff.mp absent)
  | @written call kid server keys storing =>
    have hfetch : r.fetchKeys server = .ok keys := h.calls call _ storing
    cases kid with
    | none => exact (h.write keys).leave call
    | some kid =>
      exact (h.write keys).goto call (.retrying kid server)
        ⟨keys, hfetch, (get_extend_ne_none s.cache keys).2⟩

theorem inv_of_reach (hreach : (machine r).Reach Machine.Any s) : Inv r s := by
  refine hreach.invariant (P := Inv r) ?_ fun a l b ha hn _ => inv_step ha (effect_of_next hn)
  intro s hinit
  obtain ⟨hcache, hcalls, hresults⟩ := hinit
  constructor
  · simp [Filed, hcache]
  · simp [hcalls]
  · simp [hresults]

theorem cache_step {l : Label σ} (he : Effect r s l t) : t.cache = s.cache ∨
    ∃ call kid server keys, l = .store call ∧ s.calls.get call = some (.storing kid server keys) ∧
      t.cache = s.cache.extend keys := by
  cases he with
  | @written call kid server keys storing =>
    exact Or.inr ⟨call, kid, server, keys, rfl, storing, rfl⟩
  | _ => exact Or.inl rfl

theorem resolveKey_uninterrupted (call : ℕ) (hfree : s.calls.get call = none) (kid : String)
    (server : σ) : ∃ ls t load, (machine r).Path Machine.Any s ls t ∧
      t.cache = (r.resolveKey s.cache kid server).2.1 ∧
      t.results = ⟨call, kid, (r.resolveKey s.cache kid server).1, load⟩ :: s.results := by
  unfold VaultKeyResolverState.resolveKey
  cases hlookup : s.cache.lookup kid with
  | some found =>
    have hstep : (machine r).next s (.resolveKey call kid) =
        some (s.resolved call kid (.ok (material kid found)) none) := by
      simp [machine, next, hfree, hlookup]
    exact ⟨_, _, none, Machine.Path.one hstep trivial, rfl, rfl⟩
  | none =>
    let loading : State σ := { s with calls := s.calls.insert call (.loading (some kid)) }
    have hstart : (machine r).next s (.resolveKey call kid) = some loading := by
      simp [machine, next, hfree, hlookup, loading]
    have hloading : loading.calls.get call = some (.loading (some kid)) := by simp [loading]
    cases hfetch : r.fetchKeys server with
    | error e =>
      have hanswer : (machine r).next loading (.answer call server) =
          some (loading.resolved call kid (.error (.verificationFailed e.message))
            (some server)) := by
        simp [machine, next, hloading, hfetch]
      obtain ⟨hresult, hcache⟩ := VaultKeyResolverState.loadKeys_of_error s.cache hfetch
      refine ⟨_, _, some server, .cons hstart trivial (.cons hanswer trivial (.nil _)), ?_, ?_⟩
      · simp only [hresult, hcache]
        rfl
      · simp only [hresult]
        rfl
    | ok keys =>
      let storing : State σ :=
        { loading with calls := loading.calls.insert call (.storing (some kid) server keys) }
      have hanswer : (machine r).next loading (.answer call server) = some storing := by
        simp [machine, next, hloading, hfetch, storing]
      have hstoring : storing.calls.get call = some (.storing (some kid) server keys) := by
        simp [storing]
      let stored : State σ := { storing with
        cache := s.cache.extend keys
        calls := storing.calls.insert call (.retrying kid server) }
      have hstore : (machine r).next storing (.store call) = some stored := by
        simp [machine, next, hstoring, stored, storing, loading]
      have hstored : stored.calls.get call = some (.retrying kid server) := by simp [stored]
      have hmissed : (machine r).Path Machine.Any s [.resolveKey call kid, .answer call server,
          .store call] stored :=
        .cons hstart trivial (.cons hanswer trivial (.one hstore trivial))
      obtain ⟨hresult, hcache⟩ := VaultKeyResolverState.loadKeys_of_ok s.cache hfetch
      cases hretry : (s.cache.extend keys).lookup kid with
      | some found =>
        have hlast : (machine r).next stored (.retry call) =
            some (stored.resolved call kid (.ok (material kid found)) (some server)) := by
          simp [machine, next, hstored, show stored.cache = s.cache.extend keys from rfl, hretry]
        refine ⟨_, _, some server, hmissed.append (.one hlast trivial), ?_, ?_⟩
        · simp only [hresult, hcache, hretry]
          rfl
        · simp only [hresult, hcache, hretry]
          rfl
      | none =>
        have hlast : (machine r).next stored (.retry call) = some (stored.resolved call kid
            (.error (.verificationFailed ("Key '" ++ kid ++ "' not found"))) (some server)) := by
          simp [machine, next, hstored, show stored.cache = s.cache.extend keys from rfl, hretry]
        refine ⟨_, _, some server, hmissed.append (.one hlast trivial), ?_, ?_⟩
        · simp only [hresult, hcache, hretry]
          rfl
        · simp only [hresult, hcache, hretry]
          rfl

end Step

/-- In every state of a run the listing has the cached keys with the bytes that lookups give, and
every key that was found is listed. A lookup fails only with its own load or for want of the key in
it, and only a load that has succeeded changes the cache. -/
theorem resolver_and_jwks_agree {r : VaultKeyResolverState σ} {s : State σ}
    (hreach : (machine r).Reach Machine.Any s) :
    Agrees r s.cache ∧
    (∀ result ∈ s.results, ∀ key, result.result = .ok key →
      some result.kid ∈ s.cache.jwkSet.keys.map Jwk.kid) ∧
    (∀ result ∈ s.results, ∀ e, result.result = .error e → ∃ server, result.load = some server ∧
      ((∃ e', r.fetchKeys server = .error e' ∧ e = .verificationFailed e'.message) ∨
        ∃ keys, r.fetchKeys server = .ok keys ∧ (∀ key ∈ keys, key.kid ≠ result.kid) ∧
          e = .verificationFailed ("Key '" ++ result.kid ++ "' not found"))) ∧
    (∀ server e, r.fetchKeys server = .error e → (r.loadKeys s.cache server).2.1 = s.cache ∧
      ∀ call t, (machine r).next s (.answer call server) = some t → t.cache = s.cache ∧
        t.calls.get call = none) ∧
    ∀ l t, (machine r).next s l = some t → t.cache = s.cache ∨
      ∃ server keys, r.fetchKeys server = .ok keys ∧ t.cache = s.cache.extend keys := by
  have hinv := inv_of_reach hreach
  refine ⟨hinv.filed.agrees r, ?_, fun result hmem => (hinv.results result hmem).failed, ?_, ?_⟩
  · intro result hmem key hkey
    rw [(hinv.filed.agrees r).listed, ne_eq, lookup_eq_none_iff]
    exact (hinv.results result hmem).found key hkey
  · intro server e hfetch
    refine ⟨(VaultKeyResolverState.loadKeys_of_error s.cache hfetch).2, ?_⟩
    intro call t hn
    simp only [machine, next] at hn
    split at hn
    · rename_i kid hcall
      cases kid <;> simp only [hfetch, Option.some.injEq] at hn <;> subst hn <;>
        simp [State.resolved]
    · exact absurd hn (by simp)
  · intro l t hn
    rcases cache_step (effect_of_next hn) with hsame | ⟨call, kid, server, keys, -, hcall, hcache⟩
    · exact Or.inl hsame
    · exact Or.inr ⟨server, keys, hinv.calls call _ hcall, hcache⟩

/-- A key with one version, three bytes long. -/
def oneKeyResolver : VaultKeyResolverState Unit where
  vaultClient := {
    signingKeyName := some "signing-siglet"
    getKeyMetadata := fun _ keyName _ s => (.ok ⟨keyName, ["AQID"], 1⟩, s)
    signContent := fun _ _ _ s => (.ok [], s) }
  signingContext := { id := "siglet" }
  decodeError := fun _ => "Invalid symbol"

def emptyState : State Unit := ⟨HashMap.empty, HashMap.empty, []⟩

/-- A miss loads the key, which is then listed. -/
theorem missed_key_listed :
    ∃ s : State Unit, some "signing-siglet-1" ∈ s.cache.jwkSet.keys.map Jwk.kid := by
  have hresolve : (oneKeyResolver.resolveKey HashMap.empty "signing-siglet-1" ()).1 =
      .ok ⟨.der, [1, 2, 3], "signing-siglet-1".toList⟩ := rfl
  obtain ⟨ls, s, load, hpath, -, hresults⟩ :=
    resolveKey_uninterrupted (r := oneKeyResolver) (s := emptyState) 0 rfl "signing-siglet-1" ()
  have hreach : (machine oneKeyResolver).Reach Machine.Any s :=
    ⟨emptyState, ls, ⟨rfl, rfl, rfl⟩, hpath⟩
  refine ⟨s, (resolver_and_jwks_agree hreach).2.1 ⟨0, "signing-siglet-1", _, load⟩ ?_ _ hresolve⟩
  rw [hresults]
  exact List.mem_cons_self

end CacheRuns
end Facet.Vault
