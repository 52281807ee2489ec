import Facet.IndexConsistency
import Facet.TokenIssuance

/-!
# The renewable token store in Postgres

One table with the id as primary key, and the token manager over any store. The rows are
the entries of the three maps as long as the maps agree, and they do when no pair is
generated for a flow that has one and no drawn value is already in use.
-/
namespace Facet.Renewable
open InnerStore

/-- The operations that the manager uses of a store. -/
structure RenewableTokenStore (σ : Type) where
  save : σ → RenewableTokenEntry → Except TokenError Unit × σ
  findByRenewal : σ → String → Except TokenError RenewableTokenEntry
  findById : σ → String → Except TokenError RenewableTokenEntry
  findByFlowId : σ → String → Except TokenError RenewableTokenEntry
  removeByFlowId : σ → String → Except TokenError Unit × σ
  update : σ → String → RenewableTokenEntry → Except TokenError Unit × σ

def MemoryRenewableTokenStore : RenewableTokenStore InnerStore where
  save s entry := (.ok (), s.save entry)
  findByRenewal := InnerStore.findByRenewal
  findById := InnerStore.findById
  findByFlowId := InnerStore.findByFlowId
  removeByFlowId := InnerStore.removeByFlowId
  update := InnerStore.update

/-! ## The table -/

/-- The rows of `renewable_tokens`. -/
structure RenewableTokens where
  rows : List RenewableTokenEntry
  primaryKey : (rows.map (·.id)).Nodup

namespace RenewableTokens

def empty : RenewableTokens := ⟨[], List.nodup_nil⟩

/-- `DELETE .. WHERE`: the rows that do not match stay. -/
def delete (t : RenewableTokens) (matching : RenewableTokenEntry → Bool) : RenewableTokens where
  rows := t.rows.filter fun row => matching row = false
  primaryKey := t.primaryKey.sublist (List.filter_sublist.map _)

/-- `INSERT .. ON CONFLICT (id) DO UPDATE SET` every other column. -/
def upsert (t : RenewableTokens) (entry : RenewableTokenEntry) : RenewableTokens where
  rows := entry :: (t.delete (·.id = entry.id)).rows
  primaryKey := by
    rw [List.map_cons, List.nodup_cons]
    refine ⟨?_, (t.delete _).primaryKey⟩
    simp [delete]

/-- `SELECT .. WHERE` with `fetch_optional`. -/
def select (t : RenewableTokens) (matching : RenewableTokenEntry → Bool) (key : String) :
    Except TokenError RenewableTokenEntry := okOr (t.rows.find? matching) (.tokenNotFound key)

def duplicateKey : TokenError :=
  .databaseError ("Failed to update renewable token: error returned from database: " ++
    "duplicate key value violates unique constraint \"renewable_tokens_pkey\"")

/-- `UPDATE .. SET` all columns, the id among them, of every row with the hash. -/
def updateWhere (t : RenewableTokens) (oldHash : String) (newEntry : RenewableTokenEntry) :
    Except TokenError Unit × RenewableTokens :=
  let rows := t.rows.map fun row => if row.hashedRefreshToken = oldHash then newEntry else row
  if unique : (rows.map (·.id)).Nodup then
    if t.rows.filter (·.hashedRefreshToken = oldHash) = [] then (.error (.tokenNotFound oldHash), t)
    else (.ok (), ⟨rows, unique⟩)
  else (.error duplicateKey, t)

def deleteByFlowId (t : RenewableTokens) (flowId : String) :
    Except TokenError Unit × RenewableTokens :=
  if t.rows.filter (·.flowId = flowId) = [] then (.error (.tokenNotFound flowId), t)
  else (.ok (), t.delete (·.flowId = flowId))

end RenewableTokens

def PostgresRenewableTokenStore : RenewableTokenStore RenewableTokens where
  save t entry := (.ok (), t.upsert entry)
  findByRenewal t hash := t.select (·.hashedRefreshToken = hash) hash
  findById t id := t.select (·.id = id) id
  findByFlowId t flowId := t.select (·.flowId = flowId) flowId
  removeByFlowId := RenewableTokens.deleteByFlowId
  update := RenewableTokens.updateWhere

/-! ## The manager over a store -/

inductive ManagerCall
  | generatePair (pc : ParticipantContext) (subject : String) (claims : HashMap String Value)
      (flowId : String)
  | renew (boundToken refreshToken : String)
  | revokeToken (pc : ParticipantContext) (flowId : String)
  | validateToken (audience token : String)

inductive ManagerReply
  | pair (result : Except TokenError RenewableTokenPair)
  | revoked (result : Except TokenError Unit)
  | validated (result : Except TokenError TokenClaims)

namespace RenewableTokenStore
variable {σ : Type} (store : RenewableTokenStore σ) (m : JwtTokenManager) (env : CallEnv)

def generatePair (s : σ) (pc : ParticipantContext) (subject : String)
    (claims : HashMap String Value) (flowId : String) : Except TokenError RenewableTokenPair × σ :=
  match m.preparePair env pc subject claims flowId with
  | .error e => (.error e, s)
  | .ok (entry, pair) =>
    let (saved, s') := store.save s entry
    (saved.map fun _ => pair, s')

def renew (s : σ) (boundToken refreshToken : String) : Except TokenError RenewableTokenPair × σ :=
  match store.findByRenewal s (m.hash refreshToken) with
  | .error _ => (.error (.notAuthorized "Invalid refresh token"), s)
  | .ok entry =>
    match m.renewPrepare env entry boundToken with
    | .error e => (.error e, s)
    | .ok (newEntry, pair) =>
      let (updated, s') := store.update s (m.hash refreshToken) newEntry
      (updated.map fun _ => pair, s')

theorem renew_of_error {s : σ} {boundToken refreshToken : String} {e : TokenError}
    (h : store.findByRenewal s (m.hash refreshToken) = .error e) :
    store.renew m env s boundToken refreshToken =
      (.error (.notAuthorized "Invalid refresh token"), s) := by
  simp only [renew, h]

theorem renew_of_found {s : σ} {boundToken refreshToken : String} {entry : RenewableTokenEntry}
    (h : store.findByRenewal s (m.hash refreshToken) = .ok entry) :
    store.renew m env s boundToken refreshToken = match m.renewPrepare env entry boundToken with
      | .error e => (.error e, s)
      | .ok prepared =>
        ((store.update s (m.hash refreshToken) prepared.1).1.map fun _ => prepared.2,
          (store.update s (m.hash refreshToken) prepared.1).2) := by
  simp only [renew, h]
  cases m.renewPrepare env entry boundToken <;> rfl

def validateToken (s : σ) (audience token : String) : Except TokenError TokenClaims := do
  let claims ← liftVerification (env.providerVerifier audience token)
  match (claims.custom.get "jti").bind Value.asStr with
  | none => throw .invalid
  | some jti =>
    match store.findById s jti with
    | .ok _ => return claims
    | .error _ => throw (.notAuthorized "Token not found")

def manager (init : σ) : Service σ (CallEnv × ManagerCall) ManagerReply where
  init := init
  step s call := match call.2 with
    | .generatePair pc subject claims flowId =>
      (store.generatePair m call.1 s pc subject claims flowId).map .pair id
    | .renew boundToken refreshToken =>
      (store.renew m call.1 s boundToken refreshToken).map .pair id
    | .revokeToken _ flowId => (store.removeByFlowId s flowId).map .revoked id
    | .validateToken audience token => (.validated (store.validateToken call.1 s audience token), s)

end RenewableTokenStore

section Memory
variable (m : JwtTokenManager) (env : CallEnv) (s : InnerStore)

/-- Over the in-memory store these are the calls of `JwtTokenManager`. -/
theorem generatePair_memory (pc : ParticipantContext) (subject : String)
    (claims : HashMap String Value) (flowId : String) :
    MemoryRenewableTokenStore.generatePair m env s pc subject claims flowId =
      m.generatePair env s pc subject claims flowId := by
  unfold RenewableTokenStore.generatePair JwtTokenManager.generatePair
  cases m.preparePair env pc subject claims flowId <;> rfl

theorem renew_memory (boundToken refreshToken : String) :
    MemoryRenewableTokenStore.renew m env s boundToken refreshToken =
      m.renew env s boundToken refreshToken := by
  cases hl : MemoryRenewableTokenStore.findByRenewal s (m.hash refreshToken) with
  | error e =>
    have hnone : s.findByRenewal (m.hash refreshToken) = .error e := hl
    simp [RenewableTokenStore.renew_of_error _ _ _ hl, JwtTokenManager.renew,
      JwtTokenManager.renewLookup, hnone]
  | ok entry =>
    have hsome : s.findByRenewal (m.hash refreshToken) = .ok entry := hl
    rw [RenewableTokenStore.renew_of_found _ _ _ hl]
    simp only [JwtTokenManager.renew, JwtTokenManager.renewLookup,
      JwtTokenManager.renewUpdate, hsome]
    cases m.renewPrepare env entry boundToken with
    | error e => rfl
    | ok prepared =>
      change (Except.map (fun _ => prepared.2) (s.update (m.hash refreshToken) prepared.1).1,
        (s.update (m.hash refreshToken) prepared.1).2) = _
      dsimp only
      cases (s.update (m.hash refreshToken) prepared.1).1 <;> rfl

theorem validateToken_memory (audience token : String) :
    MemoryRenewableTokenStore.validateToken env s audience token =
      m.validateToken env s audience token := rfl

end Memory

/-! ## Rows and maps -/

/-- The maps agree and their entries are the rows of the table. -/
structure Tabled (s : InnerStore) (t : RenewableTokens) : Prop where
  consistent : Consistent s
  rows : ∀ x, x ∈ t.rows ↔ s.Indexed x

section Steps
variable {s : InnerStore} {t : RenewableTokens} {e old new : RenewableTokenEntry}

theorem tabled_empty : Tabled InnerStore.empty RenewableTokens.empty where
  consistent := consistent_empty
  rows x := by
    refine iff_of_false (by simp [RenewableTokens.empty]) ?_
    intro hx
    exact absurd (hx .hash) (by simp [InnerStore.empty, index])

/-- A query on a key column finds the entry of the map with that key. -/
theorem Tabled.find (h : Tabled s t) (k : EntryIndex) (key : String) :
    t.rows.find? (fun row => k.key row = key) = (s.index k).get key := by
  cases hg : (s.index k).get key with
  | none =>
    rw [List.find?_eq_none]
    intro row hrow hkey
    have hstored := (h.rows row).mp hrow k
    rw [of_decide_eq_true hkey, hg] at hstored
    exact absurd hstored (by simp)
  | some e =>
    obtain ⟨hkey, he⟩ := h.consistent k key e hg
    cases hf : t.rows.find? (fun row => k.key row = key) with
    | none => exact absurd (decide_eq_true hkey) (List.find?_eq_none.mp hf e ((h.rows e).mpr he))
    | some row =>
      have hrow := (h.rows row).mp (List.mem_of_find?_eq_some hf)
      have hrowKey : k.key row = key := by simpa using List.find?_some hf
      rw [hrow.eq_of_key he (hrowKey.trans hkey.symm)]

theorem Tabled.select (h : Tabled s t) (k : EntryIndex) (key : String) :
    t.select (fun row => k.key row = key) key = s.find k key := by
  rw [RenewableTokens.select, h.find, find_eq_lookup, lookup]
  cases (s.index k).get key <;> rfl

/-- Nothing matches in the table when the map has no such key. -/
theorem Tabled.filter_eq_nil (h : Tabled s t) (k : EntryIndex) (key : String) :
    t.rows.filter (fun row => k.key row = key) = [] ↔ (s.index k).get key = none := by
  rw [← h.find, List.filter_eq_nil_iff, List.find?_eq_none]

theorem Tabled.upsert (h : Tabled s t) (hnew : ∀ x, s.Indexed x → ¬ SharesKey x e) :
    Tabled (s.save e) (t.upsert e) where
  consistent := h.consistent.save_iff.mpr fun x hx hshares => absurd hshares (hnew x hx)
  rows x := by
    have hmem : x ∈ (t.upsert e).rows ↔ x = e ∨ s.Indexed x ∧ x.id ≠ e.id := by
      simp [RenewableTokens.upsert, RenewableTokens.delete, h.rows]
    rw [hmem]
    constructor
    · intro hx
      rcases hx with rfl | ⟨hx, -⟩
      · exact indexed_save_self
      · exact hx.save (hnew x hx)
    · intro hx
      by_cases hxe : x = e
      · exact Or.inl hxe
      · have hkey : ∀ k : EntryIndex, k.key x ≠ k.key e :=
          fun k hk => hxe (hx.eq_of_key indexed_save_self hk)
        refine Or.inr ⟨?_, hkey .id⟩
        intro k
        have hxk := hx k
        rwa [index_save, HashMap.get_insert, if_neg (hkey k)] at hxk

theorem Tabled.delete (h : Tabled s t) (hold : s.Indexed old) :
    Tabled (s.erase old) (t.delete (·.flowId = old.flowId)) where
  consistent := h.consistent.erase hold
  rows x := by
    have hmem : x ∈ (t.delete (·.flowId = old.flowId)).rows ↔ s.Indexed x ∧
        x.flowId ≠ old.flowId := by
      simp [RenewableTokens.delete, h.rows]
    rw [hmem, Consistent.indexed_erase hold]
    refine and_congr_right fun hx => ?_
    constructor
    · intro hne hxo
      exact hne (by rw [hxo])
    · intro hne hflow
      exact hne (hx.eq_of_key hold (k := .flow) hflow)

/-- The update exchanges one row. -/
theorem Tabled.updateWhere (h : Tabled s t) (hold : s.Indexed old)
    (hnew : ∀ x, s.Indexed x → x ≠ old → ¬ SharesKey x new) :
    ∃ t', t.updateWhere old.hashedRefreshToken new = (.ok (), t') ∧
      Tabled ((s.erase old).save new) t' := by
  have hmatch : ∀ x ∈ t.rows, x.hashedRefreshToken = old.hashedRefreshToken ↔ x = old := by
    intro x hx
    refine ⟨fun hk => ((h.rows x).mp hx).eq_of_key hold (k := .hash) hk, fun hxo => by rw [hxo]⟩
  have hunique :
      ((t.rows.map fun row =>
        if row.hashedRefreshToken = old.hashedRefreshToken then new else row).map
          (·.id)).Nodup := by
    rw [List.map_map]
    refine List.Nodup.map_on ?_ (List.Nodup.of_map _ t.primaryKey)
    intro x hx y hy hxy
    have hx' := (h.rows x).mp hx
    have hy' := (h.rows y).mp hy
    simp only [Function.comp_apply] at hxy
    split_ifs at hxy with hxo hyo hyo
    · rw [(hmatch x hx).mp hxo, (hmatch y hy).mp hyo]
    · exact absurd ⟨.id, hxy.symm⟩ (hnew y hy' fun heq => hyo ((hmatch y hy).mpr heq))
    · exact absurd ⟨.id, hxy⟩ (hnew x hx' fun heq => hxo ((hmatch x hx).mpr heq))
    · exact hx'.eq_of_key hy' (k := .id) hxy
  have hfound : t.rows.filter (·.hashedRefreshToken = old.hashedRefreshToken) ≠ [] := by
    intro hnil
    have hnone := (h.filter_eq_nil .hash old.hashedRefreshToken).mp hnil
    exact absurd (hnone.symm.trans (hold .hash)) (by simp)
  refine ⟨_, by rw [RenewableTokens.updateWhere, dif_pos hunique, if_neg hfound], ?_⟩
  have hsaved : ∀ x, (s.erase old).Indexed x → ¬ SharesKey x new := by
    intro x hx
    obtain ⟨hx, hne⟩ := (Consistent.indexed_erase hold).mp hx
    exact hnew x hx hne
  refine ⟨(h.consistent.erase hold).save_iff.mpr fun x hx hshares =>
    absurd hshares (hsaved x hx), ?_⟩
  intro x
  simp only [List.mem_map]
  constructor
  · intro hx
    obtain ⟨row, hrow, rfl⟩ := hx
    by_cases hro : row = old
    · rw [if_pos ((hmatch row hrow).mpr hro)]
      exact indexed_save_self
    · rw [if_neg fun hk => hro ((hmatch row hrow).mp hk)]
      have hkept := (Consistent.indexed_erase hold).mpr ⟨(h.rows row).mp hrow, hro⟩
      exact hkept.save (hsaved row hkept)
  · intro hx
    by_cases hxe : x = new
    · exact ⟨old, (h.rows old).mpr hold, by rw [if_pos rfl, hxe]⟩
    · have hkey : ∀ k : EntryIndex, k.key x ≠ k.key new :=
        fun k hk => hxe (hx.eq_of_key indexed_save_self hk)
      have hkept : (s.erase old).Indexed x := by
        intro k
        have hxk := hx k
        rwa [index_save, HashMap.get_insert, if_neg (hkey k)] at hxk
      obtain ⟨hs, hne⟩ := (Consistent.indexed_erase hold).mp hkept
      have hrow := (h.rows x).mpr hs
      exact ⟨x, hrow, if_neg fun hk => hne ((hmatch x hrow).mp hk)⟩

end Steps

/-! ## Runs of the manager -/

/-- No pair is generated for a flow that has an entry. -/
def NewFlow (s : InnerStore) (call : CallEnv × ManagerCall) : Prop :=
  ∀ pc subject claims flowId, call.2 = .generatePair pc subject claims flowId →
    s.entriesByFlowId.get flowId = none

/-- The call draws a jti and a refresh token. -/
def ManagerCall.draws : ManagerCall → Bool
  | .generatePair .. | .renew .. => true
  | .revokeToken .. | .validateToken .. => false

/-- What the manager relies on in its random source and its keyed hash: the drawn jti and the hash
of the drawn refresh token belong to no stored entry. -/
def UnusedDraws (m : JwtTokenManager) (s : InnerStore) (call : CallEnv × ManagerCall) : Prop :=
  call.2.draws = true → ∀ x, s.Indexed x → x.id ≠ call.1.jti ∧
    x.hashedRefreshToken ≠ m.hash call.1.refreshToken

section Runs
variable {m : JwtTokenManager} {s : InnerStore} {t : RenewableTokens} {env : CallEnv}

theorem Tabled.generatePair (h : Tabled s t) (pc : ParticipantContext) (subject : String)
    (claims : HashMap String Value) {flowId : String} (hflow : s.entriesByFlowId.get flowId = none)
    (hdraws : ∀ x, s.Indexed x → x.id ≠ env.jti ∧ x.hashedRefreshToken ≠ m.hash env.refreshToken) :
    (MemoryRenewableTokenStore.generatePair m env s pc subject claims flowId).1 =
        (PostgresRenewableTokenStore.generatePair m env t pc subject claims flowId).1 ∧
      Tabled (MemoryRenewableTokenStore.generatePair m env s pc subject claims flowId).2
        (PostgresRenewableTokenStore.generatePair m env t pc subject claims flowId).2 := by
  unfold RenewableTokenStore.generatePair
  cases hp : m.preparePair env pc subject claims flowId with
  | error e => exact ⟨rfl, h⟩
  | ok prepared =>
    obtain ⟨entry, pair⟩ := prepared
    obtain ⟨hid, hhash, hf, -⟩ := JwtTokenManager.preparePair_ok hp
    refine ⟨rfl, h.upsert ?_⟩
    intro x hx hshares
    obtain ⟨k, hk⟩ := hshares
    cases k with
    | hash => exact (hdraws x hx).2 (hk.trans hhash)
    | id => exact (hdraws x hx).1 (hk.trans hid)
    | flow =>
      have hstored : s.entriesByFlowId.get x.flowId = some x := hx .flow
      rw [show x.flowId = flowId from hk.trans hf, hflow] at hstored
      exact absurd hstored (by simp)

theorem Tabled.renew (h : Tabled s t) (boundToken refreshToken : String)
    (hdraws : ∀ x, s.Indexed x → x.id ≠ env.jti ∧ x.hashedRefreshToken ≠ m.hash env.refreshToken) :
    (MemoryRenewableTokenStore.renew m env s boundToken refreshToken).1 =
        (PostgresRenewableTokenStore.renew m env t boundToken refreshToken).1 ∧
      Tabled (MemoryRenewableTokenStore.renew m env s boundToken refreshToken).2
        (PostgresRenewableTokenStore.renew m env t boundToken refreshToken).2 := by
  have hfind : PostgresRenewableTokenStore.findByRenewal t (m.hash refreshToken) =
    MemoryRenewableTokenStore.findByRenewal s (m.hash refreshToken) := h.select .hash _
  cases hl : MemoryRenewableTokenStore.findByRenewal s (m.hash refreshToken) with
  | error e =>
    rw [RenewableTokenStore.renew_of_error _ _ _ hl,
      RenewableTokenStore.renew_of_error _ _ _ (hfind.trans hl)]
    exact ⟨rfl, h⟩
  | ok old =>
    have hg : s.entriesByHash.get (m.hash refreshToken) = some old := lookup_eq_ok.mp hl
    obtain ⟨hk, hold⟩ := h.consistent .hash _ old hg
    rw [RenewableTokenStore.renew_of_found _ _ _ hl,
      RenewableTokenStore.renew_of_found _ _ _ (hfind.trans hl)]
    cases hp : m.renewPrepare env old boundToken with
    | error e => exact ⟨rfl, h⟩
    | ok prepared =>
      obtain ⟨new, pair⟩ := prepared
      obtain ⟨hid, hhash, hf, -⟩ := JwtTokenManager.renewPrepare_ok hp
      have hnew : ∀ x, s.Indexed x → x ≠ old → ¬ SharesKey x new := by
        intro x hx hne hshares
        obtain ⟨k, hk⟩ := hshares
        cases k with
        | hash => exact (hdraws x hx).2 (hk.trans hhash)
        | id => exact (hdraws x hx).1 (hk.trans hid)
        | flow => exact hne (hx.eq_of_key hold (k := .flow) (hk.trans hf))
      obtain ⟨t', hupdate, htabled⟩ := h.updateWhere hold hnew
      have hmemory : MemoryRenewableTokenStore.update s (m.hash refreshToken) new =
          (.ok (), (s.erase old).save new) :=
        update_eq hg hk
      have hpostgres : PostgresRenewableTokenStore.update t (m.hash refreshToken) new =
          (.ok (), t') := by
        rw [← show old.hashedRefreshToken = m.hash refreshToken from hk]
        exact hupdate
      simp only [hmemory, hpostgres]
      exact ⟨trivial, htabled⟩

theorem Tabled.removeByFlowId (h : Tabled s t) (flowId : String) :
    (s.removeByFlowId flowId).1 = (t.deleteByFlowId flowId).1 ∧
      Tabled (s.removeByFlowId flowId).2 (t.deleteByFlowId flowId).2 := by
  have hrows : t.rows.filter (·.flowId = flowId) = [] ↔ s.entriesByFlowId.get flowId = none :=
    h.filter_eq_nil .flow flowId
  rcases removeByFlowId_cases s flowId with ⟨hg, he⟩ | ⟨old, hg, -⟩
  · rw [RenewableTokens.deleteByFlowId, if_pos (hrows.mpr hg), he]
    exact ⟨rfl, h⟩
  · obtain ⟨hf, hold⟩ := h.consistent .flow flowId old hg
    have hsome : ¬ t.rows.filter (·.flowId = flowId) = [] := by
      rw [hrows, hg]
      simp
    rw [RenewableTokens.deleteByFlowId, if_neg hsome, removeByFlowId_eq hg hf]
    refine ⟨rfl, ?_⟩
    rw [← show old.flowId = flowId from hf]
    exact h.delete hold

theorem Tabled.validateToken (h : Tabled s t) (audience token : String) :
    MemoryRenewableTokenStore.validateToken env s audience token =
      PostgresRenewableTokenStore.validateToken env t audience token := by
  have hfind : ∀ jti, PostgresRenewableTokenStore.findById t jti =
      MemoryRenewableTokenStore.findById s jti :=
    fun jti => h.select .id jti
  unfold RenewableTokenStore.validateToken
  simp only [hfind]

theorem Tabled.step (h : Tabled s t) (call : CallEnv × ManagerCall) (hflow : NewFlow s call)
    (hdraws : UnusedDraws m s call) :
    ((MemoryRenewableTokenStore.manager m InnerStore.empty).step s call).1 =
        ((PostgresRenewableTokenStore.manager m RenewableTokens.empty).step t call).1 ∧
      Tabled ((MemoryRenewableTokenStore.manager m InnerStore.empty).step s call).2
        ((PostgresRenewableTokenStore.manager m RenewableTokens.empty).step t call).2 := by
  obtain ⟨env, call⟩ := call
  cases call with
  | generatePair pc subject claims flowId =>
    obtain ⟨hreply, hnext⟩ :=
      h.generatePair pc subject claims (hflow pc subject claims flowId rfl) (hdraws rfl)
    exact ⟨congrArg ManagerReply.pair hreply, hnext⟩
  | renew boundToken refreshToken =>
    obtain ⟨hreply, hnext⟩ := h.renew boundToken refreshToken (hdraws rfl)
    exact ⟨congrArg ManagerReply.pair hreply, hnext⟩
  | revokeToken pc flowId =>
    obtain ⟨hreply, hnext⟩ := h.removeByFlowId flowId
    exact ⟨congrArg ManagerReply.revoked hreply, hnext⟩
  | validateToken audience token =>
    exact ⟨congrArg ManagerReply.validated (h.validateToken audience token), h⟩

end Runs

/-- The manager gives the same replies over either store. -/
theorem renewable_stores_interchangeable (m : JwtTokenManager)
    (calls : List (CallEnv × ManagerCall))
    (h : (MemoryRenewableTokenStore.manager m InnerStore.empty).Along
      (fun s call => NewFlow s call ∧ UnusedDraws m s call) InnerStore.empty calls) :
    (MemoryRenewableTokenStore.manager m InnerStore.empty).replies InnerStore.empty calls =
      (PostgresRenewableTokenStore.manager m RenewableTokens.empty).replies
        RenewableTokens.empty calls :=
  Service.replies_eq (fun _ _ call htabled hok => htabled.step call hok.1 hok.2) tabled_empty h

def newFlowCheck (s : InnerStore) (call : CallEnv × ManagerCall) : Bool :=
  match call.2 with
  | .generatePair _ _ _ flowId => (s.entriesByFlowId.get flowId).isNone
  | _ => true

def unusedDrawsCheck (m : JwtTokenManager) (s : InnerStore) (call : CallEnv × ManagerCall) : Bool :=
  s.entriesByHash.entries.all fun e =>
    decide (e.2.id ≠ call.1.jti ∧ e.2.hashedRefreshToken ≠ m.hash call.1.refreshToken)

theorem newFlow_of_check {s : InnerStore} {call : CallEnv × ManagerCall}
    (h : newFlowCheck s call = true) : NewFlow s call := by
  intro pc subject claims flowId hcall
  simpa [newFlowCheck, hcall] using h

theorem unusedDraws_of_check {m : JwtTokenManager} {s : InnerStore} {call : CallEnv × ManagerCall}
    (h : unusedDrawsCheck m s call = true) : UnusedDraws m s call := by
  intro _ x hx
  have hmem := s.entriesByHash.get_eq_some_iff.mp (hx .hash)
  simpa using List.all_eq_true.mp h _ hmem

/-- A pair is generated, renewed and revoked; then the flow starts again. -/
def pairLifecycle : List (CallEnv × ManagerCall) :=
  [(demoEnv "j1" "r1", .generatePair demoContext "consumer" HashMap.empty "flow"),
    (demoEnv "j2" "r2", .renew "j1" "r1"), (demoEnv "" "", .validateToken "anonymous" "j2"),
    (demoEnv "" "", .revokeToken demoContext "flow"),
    (demoEnv "j3" "r3", .generatePair demoContext "consumer" HashMap.empty "flow")]

theorem stores_interchangeable_on_lifecycle :
    (MemoryRenewableTokenStore.manager demoManager InnerStore.empty).replies
      InnerStore.empty pairLifecycle =
        (PostgresRenewableTokenStore.manager demoManager RenewableTokens.empty).replies
          RenewableTokens.empty
        pairLifecycle := by
  apply renewable_stores_interchangeable
  refine @Service.along_of_check _ _ _ _ _
    (fun s call => newFlowCheck s call && unusedDrawsCheck demoManager s call) ?_ _ _ ?_
  · intro s call hcheck
    rw [Bool.and_eq_true] at hcheck
    exact ⟨newFlow_of_check hcheck.1, unusedDraws_of_check hcheck.2⟩
  · decide

end Facet.Renewable
