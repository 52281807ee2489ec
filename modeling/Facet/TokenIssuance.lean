import Facet.TokenManager
import Facet.Machine

/-!
# Issued tokens and revocation

A ledger relates the store to everything that was ever issued: ids and refresh
tokens are used once, and a live entry is an issued one. It is stated with a
family of prepared entries that are not stored yet, so that it serves sequential
calls here and interleaved ones later. Revocation is then studied on runs of whole
calls.
-/
namespace Facet.Renewable
open InnerStore

/-- A stored entry together with the refresh token whose hash it carries. -/
structure Issue where
  entry : RenewableTokenEntry
  refreshToken : String

/-- `pending c` is what call `c` has drawn and prepared but not stored. -/
structure Ledger {ι : Type*} (hash : String → String) (store : InnerStore) (issued : List Issue)
    (pending : ι → Option Issue) (jtis refreshTokens : List String) : Prop where
  synced : store.Synced
  live_issued : ∀ x, store.Live x → ∃ i ∈ issued, i.entry = x
  issued_ok : ∀ i ∈ issued, i.entry.hashedRefreshToken = hash i.refreshToken ∧
    i.entry.id ∈ jtis ∧ i.refreshToken ∈ refreshTokens
  pending_ok : ∀ c i, pending c = some i → i.entry.hashedRefreshToken = hash i.refreshToken ∧
    i.entry.id ∈ jtis ∧ i.refreshToken ∈ refreshTokens
  issued_unique : ∀ i ∈ issued, ∀ j ∈ issued,
    i.entry.id = j.entry.id ∨ i.refreshToken = j.refreshToken → i = j
  pending_new : ∀ c i, pending c = some i → ∀ j ∈ issued,
    i.entry.id ≠ j.entry.id ∧ i.refreshToken ≠ j.refreshToken
  pending_apart : ∀ c d i j, pending c = some i → pending d = some j → c ≠ d →
    i.entry.id ≠ j.entry.id ∧ i.refreshToken ≠ j.refreshToken

namespace Ledger
variable {ι : Type*} [DecidableEq ι] {hash : String → String} {store store' : InnerStore}
  {issued : List Issue} {pending : ι → Option Issue} {jtis refreshTokens : List String}

omit [DecidableEq ι] in
theorem initial : Ledger hash InnerStore.empty [] (fun _ : ι => none) jtis refreshTokens where
  synced := synced_empty
  live_issued := by simp [Live, InnerStore.empty]
  issued_ok := by simp
  pending_ok := by simp
  issued_unique := by simp
  pending_new := by simp
  pending_apart := by simp

omit [DecidableEq ι] in
theorem fresh (h : Ledger hash store issued pending jtis refreshTokens)
    (hinj : Function.Injective hash) {c : ι} {i : Issue} (hc : pending c = some i) :
    store.Fresh i.entry := by
  constructor
  · intro x hx he
    obtain ⟨j, hj, rfl⟩ := h.live_issued x hx
    rw [(h.issued_ok j hj).1, (h.pending_ok c i hc).1] at he
    exact (h.pending_new c i hc j hj).2 (hinj he).symm
  · intro x hx he
    obtain ⟨j, hj, rfl⟩ := h.live_issued x hx
    exact (h.pending_new c i hc j hj).1 he.symm

theorem draw (h : Ledger hash store issued pending jtis refreshTokens) (c : ι) {i : Issue}
    (hhash : i.entry.hashedRefreshToken = hash i.refreshToken) (hid : i.entry.id ∉ jtis)
    (hr : i.refreshToken ∉ refreshTokens) :
    Ledger hash store issued (Function.update pending c (some i)) (i.entry.id :: jtis)
      (i.refreshToken :: refreshTokens) where
  synced := h.synced
  live_issued := h.live_issued
  issued_ok := by
    intro j hj
    obtain ⟨h1, h2, h3⟩ := h.issued_ok j hj
    exact ⟨h1, by simp [h2], by simp [h3]⟩
  pending_ok := by
    intro d j hd
    by_cases hdc : d = c
    · subst hdc
      simp only [Function.update_self, Option.some.injEq] at hd
      subst hd
      exact ⟨hhash, by simp, by simp⟩
    · rw [Function.update_of_ne hdc] at hd
      obtain ⟨h1, h2, h3⟩ := h.pending_ok d j hd
      exact ⟨h1, by simp [h2], by simp [h3]⟩
  issued_unique := h.issued_unique
  pending_new := by
    intro d j hd k hk
    by_cases hdc : d = c
    · subst hdc
      simp only [Function.update_self, Option.some.injEq] at hd
      subst hd
      obtain ⟨-, h2, h3⟩ := h.issued_ok k hk
      exact ⟨fun he => hid (he ▸ h2), fun he => hr (he ▸ h3)⟩
    · rw [Function.update_of_ne hdc] at hd
      exact h.pending_new d j hd k hk
  pending_apart := by
    have hnew : ∀ d j, pending d = some j → i.entry.id ≠ j.entry.id ∧
        i.refreshToken ≠ j.refreshToken := by
      intro d j hd
      obtain ⟨-, h2, h3⟩ := h.pending_ok d j hd
      exact ⟨fun he => hid (he ▸ h2), fun he => hr (he ▸ h3)⟩
    intro d e j k hd he hne
    by_cases hdc : d = c <;> by_cases hec : e = c
    · exact absurd (hdc.trans hec.symm) hne
    · subst hdc
      rw [Function.update_of_ne hec] at he
      simp only [Function.update_self, Option.some.injEq] at hd
      subst hd
      exact hnew e k he
    · subst hec
      rw [Function.update_of_ne hdc] at hd
      simp only [Function.update_self, Option.some.injEq] at he
      subst he
      exact ⟨(hnew d j hd).1.symm, (hnew d j hd).2.symm⟩
    · rw [Function.update_of_ne hdc] at hd
      rw [Function.update_of_ne hec] at he
      exact h.pending_apart d e j k hd he hne

omit [DecidableEq ι] in
/-- Calls may give up what they prepared, and entries may go. -/
theorem shrink (h : Ledger hash store issued pending jtis refreshTokens)
    {pending' : ι → Option Issue} {jtis' refreshTokens' : List String} (hs : store'.Synced)
    (hlive : ∀ x, store'.Live x → store.Live x)
    (hp : ∀ c i, pending' c = some i → pending c = some i) (hj : jtis ⊆ jtis')
    (hr : refreshTokens ⊆ refreshTokens') :
    Ledger hash store' issued pending' jtis' refreshTokens' where
  synced := hs
  live_issued := fun x hx => h.live_issued x (hlive x hx)
  issued_ok := by
    intro i hi
    obtain ⟨h1, h2, h3⟩ := h.issued_ok i hi
    exact ⟨h1, hj h2, hr h3⟩
  pending_ok := by
    intro c i hc
    obtain ⟨h1, h2, h3⟩ := h.pending_ok c i (hp c i hc)
    exact ⟨h1, hj h2, hr h3⟩
  issued_unique := h.issued_unique
  pending_new := fun c i hc => h.pending_new c i (hp c i hc)
  pending_apart := fun c d i j hc hd => h.pending_apart c d i j (hp c i hc) (hp d j hd)

theorem commit (h : Ledger hash store issued pending jtis refreshTokens) {c : ι} {i : Issue}
    (hc : pending c = some i) (hs : store'.Synced)
    (hlive : ∀ x, store'.Live x → x = i.entry ∨ store.Live x) :
    Ledger hash store' (i :: issued) (Function.update pending c none) jtis refreshTokens where
  synced := hs
  live_issued := by
    intro x hx
    rcases hlive x hx with rfl | hx
    · exact ⟨i, by simp, rfl⟩
    · obtain ⟨j, hj, he⟩ := h.live_issued x hx
      exact ⟨j, by simp [hj], he⟩
  issued_ok := by
    intro j hj
    rcases List.mem_cons.mp hj with rfl | hj
    · exact h.pending_ok c j hc
    · exact h.issued_ok j hj
  pending_ok := by
    intro d j hd
    by_cases hdc : d = c
    · simp [hdc] at hd
    · rw [Function.update_of_ne hdc] at hd
      exact h.pending_ok d j hd
  issued_unique := by
    intro j hj k hk he
    have hnew := h.pending_new c i hc
    rcases List.mem_cons.mp hj with rfl | hj' <;> rcases List.mem_cons.mp hk with rfl | hk'
    · rfl
    · rcases he with he | he
      · exact absurd he (hnew k hk').1
      · exact absurd he (hnew k hk').2
    · rcases he with he | he
      · exact absurd he.symm (hnew j hj').1
      · exact absurd he.symm (hnew j hj').2
    · exact h.issued_unique j hj' k hk' he
  pending_new := by
    intro d j hd k hk
    by_cases hdc : d = c
    · simp [hdc] at hd
    · rw [Function.update_of_ne hdc] at hd
      rcases List.mem_cons.mp hk with rfl | hk
      · exact h.pending_apart d c j k hd hc hdc
      · exact h.pending_new d j hd k hk
  pending_apart := by
    intro d e j k hd he hne
    by_cases hdc : d = c
    · simp [hdc] at hd
    · by_cases hec : e = c
      · simp [hec] at he
      · rw [Function.update_of_ne hdc] at hd
        rw [Function.update_of_ne hec] at he
        exact h.pending_apart d e j k hd he hne

omit [DecidableEq ι] in
/-- The entry found under an issued hash is the issued one. -/
theorem entry_of_hash (h : Ledger hash store issued pending jtis refreshTokens)
    (hinj : Function.Injective hash) {i : Issue} (hi : i ∈ issued) {x : RenewableTokenEntry}
    (hx : store.entriesByHash.get (hash i.refreshToken) = some x) : x = i.entry ∧ store.Live x := by
  have hk := (h.synced.byHash _ x hx).1
  have hl : store.Live x := by rw [Live, hk, hx]
  obtain ⟨j, hj, rfl⟩ := h.live_issued x hl
  have hr : j.refreshToken = i.refreshToken := hinj ((h.issued_ok j hj).1.symm.trans hk)
  exact ⟨by rw [h.issued_unique j hj i hi (Or.inr hr)], hl⟩

omit [DecidableEq ι] in
theorem entry_of_id (h : Ledger hash store issued pending jtis refreshTokens) {i : Issue}
    (hi : i ∈ issued) {x : RenewableTokenEntry}
    (hx : store.entriesById.get i.entry.id = some x) : x = i.entry ∧ store.Live x := by
  obtain ⟨hid, hl⟩ := h.synced.byId _ x hx
  obtain ⟨j, hj, rfl⟩ := h.live_issued x hl
  exact ⟨by rw [h.issued_unique j hj i hi (Or.inl hid)], hl⟩

end Ledger
/-! ## What whole calls do to the store -/

namespace JwtTokenManager
variable {m : JwtTokenManager} {env : CallEnv} {store : InnerStore}

theorem renewLookup_eq_ok {refreshToken : String} {entry : RenewableTokenEntry} :
    m.renewLookup store refreshToken = .ok entry ↔
      store.entriesByHash.get (m.hash refreshToken) = some entry := by
  rw [← lookup_eq_ok]
  unfold renewLookup findByRenewal
  cases lookup store.entriesByHash (m.hash refreshToken) <;> simp

/-- A refresh token without an entry is refused before anything is verified. -/
theorem renew_of_get_none {boundToken refreshToken : String}
    (h : store.entriesByHash.get (m.hash refreshToken) = none) :
    m.renew env store boundToken refreshToken =
      (.error (.notAuthorized "Invalid refresh token"), store) := by
  simp [renew, renewLookup, findByRenewal, lookup_of_get_none h]

/-- A token whose jti has no entry is refused even when its signature verifies. -/
theorem validateToken_of_get_none {audience token jti : String} {claims : TokenClaims}
    (hv : env.providerVerifier audience token = .ok claims)
    (hj : claims.custom.get "jti" = some (.string jti)) (h : store.entriesById.get jti = none) :
    m.validateToken env store audience token = .error (.notAuthorized "Token not found") := by
  simp [validateToken, hv, liftVerification, hj, Value.asStr, findById, lookup_of_get_none h,
    bind, Except.bind, throw, throwThe, MonadExceptOf.throw]

theorem validateToken_of_get_some {audience token jti : String} {claims : TokenClaims}
    {entry : RenewableTokenEntry} (hv : env.providerVerifier audience token = .ok claims)
    (hj : claims.custom.get "jti" = some (.string jti))
    (h : store.entriesById.get jti = some entry) :
    m.validateToken env store audience token = .ok claims := by
  simp [validateToken, hv, liftVerification, hj, Value.asStr, findById, lookup_eq_ok.mpr h,
    bind, Except.bind, pure, Except.pure]

variable (m env store) in
theorem generatePair_cases (pc : ParticipantContext) (subject : String)
    (claims : HashMap String Value) (flowId : String) :
    (∃ e, m.preparePair env pc subject claims flowId = .error e ∧
        m.generatePair env store pc subject claims flowId = (.error e, store)) ∨
      ∃ entry pair, m.preparePair env pc subject claims flowId = .ok (entry, pair) ∧
        m.generatePair env store pc subject claims flowId = (.ok pair, store.save entry) := by
  unfold generatePair
  cases h : m.preparePair env pc subject claims flowId with
  | error e => exact Or.inl ⟨e, rfl, rfl⟩
  | ok r => exact Or.inr ⟨r.1, r.2, rfl, rfl⟩

variable (m env store) in
/-- A whole `renew` call either changes nothing or exchanges the entry it found. -/
theorem renew_cases (boundToken refreshToken : String) :
    (∃ e, m.renew env store boundToken refreshToken = (.error e, store)) ∨
      ∃ old new pair, store.entriesByHash.get (m.hash refreshToken) = some old ∧
        m.renewPrepare env old boundToken = .ok (new, pair) ∧
        m.renew env store boundToken refreshToken =
          (.ok pair, (store.update (m.hash refreshToken) new).2) := by
  cases hl : m.renewLookup store refreshToken with
  | error e => exact Or.inl ⟨e, by simp [renew, hl]⟩
  | ok old =>
    cases hp : m.renewPrepare env old boundToken with
    | error e => exact Or.inl ⟨e, by simp [renew, hl, hp]⟩
    | ok r =>
      have hg := renewLookup_eq_ok.mp hl
      rcases update_cases store (m.hash refreshToken) r.1 with ⟨hnone, -⟩ | ⟨old', -, hu⟩
      · exact absurd (hnone.symm.trans hg) (by simp)
      · exact Or.inr ⟨old, r.1, r.2, hg, hp, by simp [renew, hl, hp, renewUpdate, hu]⟩

end JwtTokenManager

/-! ## Runs of whole calls -/

/-- `issued` lists every pair ever handed out; `jtis` and `refreshTokens` every value drawn. -/
structure State where
  store : InnerStore
  issued : List Issue
  jtis : List String
  refreshTokens : List String

inductive Label
  | generatePair (env : CallEnv) (pc : ParticipantContext) (subject : String)
      (claims : HashMap String Value) (flowId : String)
  | renew (env : CallEnv) (boundToken refreshToken : String)
  | revokeToken (pc : ParticipantContext) (flowId : String)

def Label.generatesFor (flowId : String) : Label → Prop
  | .generatePair _ _ _ _ f => f = flowId
  | _ => False

/-- The issue of a successful `renew`, from the entry it found. -/
def renewIssue (m : JwtTokenManager) (env : CallEnv) (store : InnerStore)
    (boundToken refreshToken : String) : Option Issue :=
  match m.renewLookup store refreshToken with
  | .error _ => none
  | .ok entry =>
    match m.renewPrepare env entry boundToken with
    | .error _ => none
    | .ok (newEntry, pair) => some ⟨newEntry, pair.refreshToken⟩

def next (m : JwtTokenManager) (s : State) : Label → Option State
  | .generatePair env pc subject claims flowId => some {
      store := (m.generatePair env s.store pc subject claims flowId).2
      issued :=
        match m.preparePair env pc subject claims flowId with
        | .ok (entry, pair) => ⟨entry, pair.refreshToken⟩ :: s.issued
        | .error _ => s.issued
      jtis := env.jti :: s.jtis
      refreshTokens := env.refreshToken :: s.refreshTokens }
  | .renew env boundToken refreshToken => some {
      store := (m.renew env s.store boundToken refreshToken).2
      issued := (renewIssue m env s.store boundToken refreshToken).toList ++ s.issued
      jtis := env.jti :: s.jtis
      refreshTokens := env.refreshToken :: s.refreshTokens }
  | .revokeToken pc flowId => some { s with store := (m.revokeToken s.store pc flowId).2 }

def machine (m : JwtTokenManager) : Machine State Label where
  init s := s.store = InnerStore.empty ∧ s.issued = []
  next := next m

/-- Random values never repeat. -/
def FreshDraws (s : State) : Label → Prop
  | .generatePair env _ _ _ _ => env.jti ∉ s.jtis ∧ env.refreshToken ∉ s.refreshTokens
  | .renew env _ _ => env.jti ∉ s.jtis ∧ env.refreshToken ∉ s.refreshTokens
  | .revokeToken _ _ => True

/-- Fresh values, and `generate_pair` for the flow only while its index is empty. -/
def OnePairAtATime (flowId : String) (s : State) (l : Label) (_ : State) : Prop :=
  FreshDraws s l ∧ (l.generatesFor flowId → s.store.entriesByFlowId.get flowId = none)

def State.Ledger (m : JwtTokenManager) (s : State) : Prop :=
  Renewable.Ledger m.hash s.store s.issued (fun _ : Unit => none) s.jtis s.refreshTokens

section Steps
variable {m : JwtTokenManager} {s t : State} {l : Label}

/-- What one call does: nothing to the store, one entry saved, one entry exchanged, or a
revocation. -/
theorem next_cases (h : next m s l = some t) :
    (t.store = s.store ∧ t.issued = s.issued ∧ s.jtis ⊆ t.jtis ∧
      s.refreshTokens ⊆ t.refreshTokens) ∨
      (∃ (env : CallEnv) (i : Issue), env.jti :: s.jtis = t.jtis ∧
        env.refreshToken :: s.refreshTokens = t.refreshTokens ∧
        (FreshDraws s l → env.jti ∉ s.jtis ∧ env.refreshToken ∉ s.refreshTokens) ∧
        i.entry.id = env.jti ∧ i.refreshToken = env.refreshToken ∧
        i.entry.hashedRefreshToken = m.hash i.refreshToken ∧ t.issued = i :: s.issued ∧
        ((l.generatesFor i.entry.flowId ∧ t.store = s.store.save i.entry) ∨
          ∃ k old, s.store.entriesByHash.get k = some old ∧ i.entry.flowId = old.flowId ∧
            t.store = (s.store.update k i.entry).2)) ∨
      ∃ pc f, l = .revokeToken pc f ∧ t = { s with store := (s.store.removeByFlowId f).2 } := by
  cases l with
  | generatePair env pc subject claims flowId =>
    simp only [next, Option.some.injEq] at h
    subst h
    rcases m.generatePair_cases env s.store pc subject claims flowId with
      ⟨e, hp, hg⟩ | ⟨entry, pair, hp, hg⟩
    · exact Or.inl ⟨by simp [hg], by simp [hp], by simp, by simp⟩
    · obtain ⟨h1, h2, h3, -, h5, -⟩ := JwtTokenManager.preparePair_ok hp
      refine Or.inr
        (Or.inl ⟨env, ⟨entry, pair.refreshToken⟩, rfl, rfl, id, h1, h5, ?_, by simp [hp], ?_⟩)
      · rw [h2, h5]
      · exact Or.inl ⟨h3.symm, by simp [hg]⟩
  | renew env boundToken refreshToken =>
    simp only [next, Option.some.injEq] at h
    subst h
    rcases m.renew_cases env s.store boundToken refreshToken with
      ⟨e, hr⟩ | ⟨old, new, pair, hg, hp, hr⟩
    · have hi : renewIssue m env s.store boundToken refreshToken = none := by
        unfold renewIssue
        cases hl : m.renewLookup s.store refreshToken with
        | error e => rfl
        | ok entry =>
          cases hp : m.renewPrepare env entry boundToken with
          | error e => simp [hp]
          | ok r =>
            rcases update_cases s.store (m.hash refreshToken) r.1 with ⟨hnone, -⟩ | ⟨old', -, hu⟩
            · exact absurd (hnone.symm.trans (JwtTokenManager.renewLookup_eq_ok.mp hl)) (by simp)
            · simp [JwtTokenManager.renew, hl, hp, JwtTokenManager.renewUpdate, hu] at hr
      exact Or.inl ⟨by simp [hr], by simp [hi], by simp, by simp⟩
    · obtain ⟨h1, h2, h3, -, h5, -⟩ := JwtTokenManager.renewPrepare_ok hp
      have hi : renewIssue m env s.store boundToken refreshToken =
          some ⟨new, pair.refreshToken⟩ := by
        simp [renewIssue, JwtTokenManager.renewLookup_eq_ok.mpr hg, hp]
      refine Or.inr
        (Or.inl ⟨env, ⟨new, pair.refreshToken⟩, rfl, rfl, id, h1, h5, ?_, by simp [hi], ?_⟩)
      · rw [h2, h5]
      · exact Or.inr ⟨m.hash refreshToken, old, hg, h3, by simp [hr]⟩
  | revokeToken pc f =>
    simp only [next, Option.some.injEq] at h
    exact Or.inr (Or.inr ⟨pc, f, rfl, h.symm⟩)

/-- The prepared entry of a step that draws fresh values is new to the store. -/
theorem State.Ledger.fresh_draw (hinj : Function.Injective m.hash) (hL : s.Ledger m) {env : CallEnv}
    {i : Issue} (hdraw : env.jti ∉ s.jtis ∧ env.refreshToken ∉ s.refreshTokens)
    (hid : i.entry.id = env.jti) (hrt : i.refreshToken = env.refreshToken)
    (hhash : i.entry.hashedRefreshToken = m.hash i.refreshToken) : s.store.Fresh i.entry := by
  have hD := Ledger.draw hL () hhash (by rw [hid]; exact hdraw.1) (by rw [hrt]; exact hdraw.2)
  exact hD.fresh hinj (c := ()) (i := i) (by simp)

theorem ledger_step (hinj : Function.Injective m.hash) (hL : s.Ledger m) (hn : next m s l = some t)
    (hfresh : FreshDraws s l) : t.Ledger m := by
  rcases next_cases hn with ⟨hst, his, hj, hr⟩ | ⟨env, i, hj, hr, hdraw, hid, hrt, hhash, his,
    hkind⟩ | ⟨pc, g, -, rfl⟩
  · unfold State.Ledger
    rw [hst, his]
    exact hL.shrink hL.synced (fun x hx => hx) (fun c i hc => hc) hj hr
  · have hF := hL.fresh_draw hinj (hdraw hfresh) hid hrt hhash
    have hD :=
      Ledger.draw hL () hhash (by rw [hid]; exact (hdraw hfresh).1)
        (by rw [hrt]; exact (hdraw hfresh).2)
    have hcommit : t.store.Synced → (∀ x, t.store.Live x → x = i.entry ∨ s.store.Live x) →
        t.Ledger m := by
      intro hs hl
      have hC := hD.commit (c := ()) (i := i) (by simp) hs hl
      unfold State.Ledger
      rw [his, ← hj, ← hr, ← hid, ← hrt]
      exact hC.shrink hs (fun x hx => hx) (fun c j hc => by simp at hc) (by simp) (by simp)
    rcases hkind with ⟨hgen, hst⟩ | ⟨k, old, hg, hflow, hst⟩
    · rw [hst] at hcommit
      exact hcommit (hL.synced.save hF) fun x hx => (live_save hF).mp hx
    · rw [hst] at hcommit
      refine hcommit (hL.synced.update hF ?_) fun x hx => ?_
      · intro old' hg'
        obtain rfl := Option.some.inj (hg.symm.trans hg')
        exact hflow
      · rcases (live_update hL.synced hg hF).mp hx with rfl | ⟨hx, -⟩
        · exact Or.inl rfl
        · exact Or.inr hx
  · apply hL.shrink (hL.synced.remove g) ?_ (fun c i hc => hc) (fun x hx => hx) (fun x hx => hx)
    intro x hx
    rcases removeByFlowId_cases s.store g with ⟨-, he⟩ | ⟨e, hg, -⟩
    · rwa [he] at hx
    · exact ((live_remove hL.synced hg).mp hx).1

theorem sole_step {f : String} (hinj : Function.Injective m.hash) (hL : s.Ledger m)
    (hS : s.store.Sole f) (hn : next m s l = some t) (hok : OnePairAtATime f s l t) :
    t.store.Sole f := by
  rcases next_cases hn with ⟨hst, -, -, -⟩ | ⟨env, i, -, -, hdraw, hid, hrt, hhash, -,
    hkind⟩ | ⟨pc, g, -, rfl⟩
  · rw [hst]
    exact hS
  · have hF := hL.fresh_draw hinj (hdraw hok.1) hid hrt hhash
    rcases hkind with ⟨hgen, hst⟩ | ⟨k, old, hg, hflow, hst⟩
    · rw [hst]
      exact hS.save hF fun hf => hok.2 (hf ▸ hgen)
    · rw [hst]
      refine hS.update hL.synced hF ?_
      intro old' hg'
      obtain rfl := Option.some.inj (hg.symm.trans hg')
      exact hflow
  · exact hS.remove hL.synced g

/-- Without a `generate_pair` for it, a flow without live entries stays so. -/
theorem no_live_step {f : String} (hinj : Function.Injective m.hash) (hL : s.Ledger m)
    (hnone : ∀ x, s.store.Live x → x.flowId ≠ f) (hn : next m s l = some t)
    (hfresh : FreshDraws s l) (hgen : ¬ l.generatesFor f) : ∀ x, t.store.Live x → x.flowId ≠ f := by
  intro x hx
  rcases next_cases hn with ⟨hst, -, -, -⟩ | ⟨env, i, -, -, hdraw, hid, hrt, hhash, -,
    hkind⟩ | ⟨pc, g, -, rfl⟩
  · exact hnone x (hst ▸ hx)
  · have hF := hL.fresh_draw hinj (hdraw hfresh) hid hrt hhash
    rcases hkind with ⟨hg, hst⟩ | ⟨k, old, hg, hflow, hst⟩
    · rw [hst, live_save hF] at hx
      rcases hx with rfl | hx
      · exact fun hf => hgen (hf ▸ hg)
      · exact hnone x hx
    · rw [hst, live_update hL.synced hg hF] at hx
      rcases hx with rfl | ⟨hx, -⟩
      · rw [hflow]
        apply hnone old
        rw [Live, (hL.synced.byHash k old hg).1, hg]
      · exact hnone x hx
  · rcases removeByFlowId_cases s.store g with ⟨-, he⟩ | ⟨e, hg, -⟩
    · exact hnone x (by simpa [he] using hx)
    · exact hnone x ((live_remove hL.synced hg).mp hx).1

end Steps

theorem ledger_of_init {m : JwtTokenManager} {s : State} (h : (machine m).init s) : s.Ledger m := by
  obtain ⟨hs, hi⟩ := h
  unfold State.Ledger
  rw [hs, hi]
  exact Ledger.initial

theorem ledger_of_reach {m : JwtTokenManager} (hinj : Function.Injective m.hash) {s : State}
    (h : Machine.Reach (machine m) (fun s l _ => FreshDraws s l) s) : s.Ledger m :=
  h.invariant (fun _ hi => ledger_of_init hi) fun _ _ _ ha hn hok => ledger_step hinj ha hn hok

theorem sole_of_reach {m : JwtTokenManager} (hinj : Function.Injective m.hash) {f : String}
    {s : State} (h : Machine.Reach (machine m) (OnePairAtATime f) s) :
    s.Ledger m ∧ s.store.Sole f := by
  refine h.invariant (P := fun s => s.Ledger m ∧ s.store.Sole f)
    (fun s₀ hi => ⟨ledger_of_init hi, ?_⟩)
    fun a l b ha hn hok => ⟨ledger_step hinj ha.1 hn hok.1, sole_step hinj ha.1 ha.2 hn hok⟩
  intro x hx
  rw [hi.1] at hx
  simp [Live, InnerStore.empty] at hx

/-- Complete revocation, for runs that keep one pair at a time for the flow. -/
theorem revoked_flow_rejects {m : JwtTokenManager} (hinj : Function.Injective m.hash) {f : String}
    {pc : ParticipantContext} {s₀ s₁ s₂ : State} {ls : List Label}
    (h₀ : Machine.Reach (machine m) (OnePairAtATime f) s₀)
    (hrev : (machine m).next s₀ (.revokeToken pc f) = some s₁)
    (hok : (m.revokeToken s₀.store pc f).1 = .ok ())
    (hpath : Machine.Path (machine m) (OnePairAtATime f) s₁ ls s₂)
    (hgen : ∀ l ∈ ls, ¬ l.generatesFor f) :
    ∀ i ∈ s₂.issued, i.entry.flowId = f →
      (∀ env audience token claims, env.providerVerifier audience token = .ok claims →
        claims.custom.get "jti" = some (.string i.entry.id) →
        m.validateToken env s₂.store audience token = .error (.notAuthorized "Token not found")) ∧
      ∀ env boundToken, (m.renew env s₂.store boundToken i.refreshToken).1 =
        .error (.notAuthorized "Invalid refresh token") := by
  have hn : next m s₀ (.revokeToken pc f) = some s₁ := hrev
  obtain ⟨hL₀, hS₀⟩ := sole_of_reach hinj h₀
  have hL₁ := ledger_step hinj hL₀ hn trivial
  have hnone₁ : ∀ x, s₁.store.Live x → x.flowId ≠ f := by
    simp only [next, Option.some.injEq] at hn
    subst hn
    exact hS₀.no_live_after_remove hL₀.synced hok
  obtain ⟨hL₂, hnone₂⟩ : s₂.Ledger m ∧ ∀ x, s₂.store.Live x → x.flowId ≠ f := by
    refine hpath.preserves (P := fun s => s.Ledger m ∧ ∀ x, s.store.Live x →
      x.flowId ≠ f) ⟨hL₁, hnone₁⟩ ?_
    intro a l b hl hstep hgood ha
    exact ⟨ledger_step hinj ha.1 hstep hgood.1, no_live_step hinj ha.1 ha.2
      hstep hgood.1 (hgen l hl)⟩
  intro i hi hf
  constructor
  · intro env audience token claims hv hj
    apply JwtTokenManager.validateToken_of_get_none hv hj
    cases hg : s₂.store.entriesById.get i.entry.id with
    | none => rfl
    | some x =>
      obtain ⟨rfl, hl⟩ := hL₂.entry_of_id hi hg
      exact absurd hf (hnone₂ _ hl)
  · intro env boundToken
    rw [JwtTokenManager.renew_of_get_none]
    cases hg : s₂.store.entriesByHash.get (m.hash i.refreshToken) with
    | none => rfl
    | some x =>
      obtain ⟨rfl, hl⟩ := hL₂.entry_of_hash hinj hi hg
      exact absurd hf (hnone₂ _ hl)

/-! A manager with a toy signer (the token text is its jti) for the concrete runs below. -/

def demoManager : JwtTokenManager where
  issuer := "did:web:provider"
  issuerId := none
  refreshEndpoint := "https://provider/token"
  serverSecret := ⟨List.replicate 32 0, by decide⟩
  hmacSha256 := fun _ token => token

def demoEnv (jti refreshToken : String) : CallEnv where
  now := 0
  jti := jti
  refreshToken := refreshToken
  generateToken := fun _ _ => .ok jti
  clientVerifier := fun aud token =>
    .ok { sub := "consumer", aud := aud, exp := 300, custom :=
      HashMap.empty.insert "token" (.string token) }
  providerVerifier := fun aud token =>
    .ok { sub := "consumer", aud := aud, exp := 3600, custom :=
      HashMap.empty.insert "jti" (.string token) }

def demoContext : ParticipantContext := { id := "pc" }

def demoGenerate (jti refreshToken : String) : Label :=
  .generatePair (demoEnv jti refreshToken) demoContext "consumer" HashMap.empty "flow"

def demoIssue (jti refreshToken : String) : Issue where
  entry := {
    id := jti
    token := jti
    hashedRefreshToken := refreshToken
    expiresAt := 172800
    subject := "consumer"
    claims := HashMap.empty
    participantContextId := "pc"
    audience := "anonymous"
    flowId := "flow" }
  refreshToken := refreshToken

def demoStart : State := ⟨InnerStore.empty, [], [], []⟩

def freshCheck (s : State) : Label → Bool
  | .generatePair env _ _ _ _ => decide (env.jti ∉ s.jtis ∧ env.refreshToken ∉ s.refreshTokens)
  | .renew env _ _ => decide (env.jti ∉ s.jtis ∧ env.refreshToken ∉ s.refreshTokens)
  | .revokeToken _ _ => true

theorem freshDraws_of_check (s : State) (l : Label) (h : freshCheck s l = true) :
    FreshDraws s l := by
  cases l with
  | generatePair env pc subject claims flowId => simpa [freshCheck, FreshDraws] using h
  | renew env boundToken refreshToken => simpa [freshCheck, FreshDraws] using h
  | revokeToken pc flowId => trivial

def onePairCheck (s : State) (l : Label) (_ : State) : Bool :=
  freshCheck s l && (match l with
    | .generatePair _ _ _ _ _ => decide (s.store.entriesByFlowId.get "flow" |>.isNone)
    | _ => true)

theorem onePairAtATime_of_check (s : State) (l : Label) (t : State)
    (h : onePairCheck s l t = true) : OnePairAtATime "flow" s l t := by
  simp only [onePairCheck, Bool.and_eq_true] at h
  refine ⟨freshDraws_of_check s l h.1, fun hg => ?_⟩
  cases l with
  | generatePair env pc subject claims flowId => simpa using h.2
  | renew env boundToken refreshToken => exact hg.elim
  | revokeToken pc flowId => exact hg.elim

/-- One pair, renewed once; then the flow is revoked and the old refresh token tried again. -/
def renewedState : State := (machine demoManager).final onePairCheck demoStart
  [demoGenerate "j1" "r1", .renew (demoEnv "j2" "r2") "j1" "r1"]

def revokedState : State :=
  (machine demoManager).final onePairCheck renewedState [.revokeToken demoContext "flow"]

def retry : List Label := [.renew (demoEnv "j3" "r3") "j2" "r2"]

def retriedState : State := (machine demoManager).final onePairCheck revokedState retry

theorem revoked_flow_rejects_renewed_pair :
    retriedState.issued = [demoIssue "j2" "r2", demoIssue "j1" "r1"] ∧
      (demoManager.renew (demoEnv "j4" "r4") renewedState.store "j2" "r2").1 =
        .ok ⟨"j4", "r4", 172800, "https://provider/token"⟩ ∧
      (demoManager.renew (demoEnv "j4" "r4") retriedState.store "j2" "r2").1 =
        .error (.notAuthorized "Invalid refresh token") := by
  have hinj : Function.Injective demoManager.hash := fun a b h => h
  have h₀ : Machine.Reach (machine demoManager) (OnePairAtATime "flow") renewedState :=
    ⟨demoStart, _, ⟨rfl, rfl⟩, Machine.path_final onePairAtATime_of_check (by decide)⟩
  have hp :
      Machine.Path (machine demoManager) (OnePairAtATime "flow") revokedState retry retriedState :=
    Machine.path_final onePairAtATime_of_check (by decide)
  have hrev : next demoManager renewedState (.revokeToken demoContext "flow") =
      some revokedState := rfl
  have hmain := revoked_flow_rejects hinj h₀ hrev rfl hp (by simp [retry, Label.generatesFor])
  have hissued : retriedState.issued = [demoIssue "j2" "r2", demoIssue "j1" "r1"] := rfl
  exact ⟨hissued, rfl, (hmain (demoIssue "j2" "r2") (by simp [hissued]) rfl).2 _ "j2"⟩

/-- Two pairs for one flow: the revocation finds only the second. -/
def doubledState : State := (machine demoManager).final (fun s l _ => freshCheck s l) demoStart
  [demoGenerate "j1" "r1", demoGenerate "j2" "r2"]

def halfRevokedState : State :=
  (machine demoManager).final (fun s l _ =>
    freshCheck s l) doubledState [.revokeToken demoContext "flow"]

theorem first_pair_survives_revocation :
    ¬ ∀ (m : JwtTokenManager) (f : String) (pc : ParticipantContext) (s₀ s₁ s₂ : State)
      (ls : List Label), Function.Injective m.hash →
      Machine.Reach (machine m) (fun s l _ => FreshDraws s l) s₀ →
      (machine m).next s₀ (.revokeToken pc f) = some s₁ →
      (m.revokeToken s₀.store pc f).1 = .ok () →
      Machine.Path (machine m) (fun s l _ => FreshDraws s l) s₁ ls s₂ →
      (∀ l ∈ ls, ¬ l.generatesFor f) →
      ∀ i ∈ s₂.issued, i.entry.flowId = f →
        (∀ env audience token claims claims', env.providerVerifier audience token = .ok claims →
          claims.custom.get "jti" = some (.string i.entry.id) →
          m.validateToken env s₂.store audience token ≠ .ok claims') ∧
        ∀ env boundToken pair, (m.renew env s₂.store boundToken i.refreshToken).1 ≠ .ok pair := by
  intro h
  have hinj : Function.Injective demoManager.hash := fun a b h => h
  have h₀ : Machine.Reach (machine demoManager) (fun s l _ => FreshDraws s l) doubledState :=
    ⟨demoStart, _,
      ⟨rfl, rfl⟩, Machine.path_final (fun s l _ => freshDraws_of_check s l) (by decide)⟩
  have hissued : halfRevokedState.issued = [demoIssue "j2" "r2", demoIssue "j1" "r1"] := rfl
  have hmain := h demoManager "flow"
    demoContext doubledState halfRevokedState halfRevokedState [] hinj h₀
    rfl rfl (Machine.Path.nil _) (by simp) (demoIssue "j1" "r1") (by simp [hissued]) rfl
  exact hmain.1 (demoEnv "j3" "r3") "anonymous" "j1" _ _ rfl rfl rfl

end Facet.Renewable
