import Facet.TokenIssuance

/-!
# Tenants of the token manager

Every participant context issues its tokens through one store, and flow ids are chosen
per context. A call made with one context should be invisible to the tokens of the
others. Saving always is; a revocation is as long as the flow index leads to an entry of
the revoking context.
-/
namespace Facet.Renewable
open InnerStore JwtTokenManager

def Label.context : Label → Option ParticipantContext
  | .generatePair _ pc _ _ _ => some pc
  | .revokeToken pc _ => some pc
  | .renew .. => none

/-- All that the holder of an issued pair can see: how its tokens validate and renew. -/
structure SameAnswers (m : JwtTokenManager) (s t : State) (i : Issue) : Prop where
  validate : ∀ env audience token claims, env.providerVerifier audience token = .ok claims →
    claims.custom.get "jti" = some (.string i.entry.id) →
    m.validateToken env t.store audience token = m.validateToken env s.store audience token
  renew : ∀ env boundToken, (m.renew env t.store boundToken i.refreshToken).1 =
    (m.renew env s.store boundToken i.refreshToken).1

/-- A revocation of `f` finds an entry of its own context, or none. -/
def OwnFlow (s : State) : Label → Prop
  | .revokeToken pc f => ∀ e, s.store.entriesByFlowId.get f = some e →
      e.participantContextId = pc.id
  | _ => True

/-- The call is not one of the context `b`, nor a renewal of one of its refresh tokens. -/
def Foreign (m : JwtTokenManager) (b : String) (s : State) : Label → Prop
  | .renew _ _ refreshToken =>
    ∀ e, s.store.entriesByHash.get (m.hash refreshToken) = some e → e.participantContextId ≠ b
  | .generatePair _ pc _ _ _ => pc.id ≠ b
  | .revokeToken pc _ => pc.id ≠ b

section Answers
variable {m : JwtTokenManager} {s t u : State} {i : Issue}

theorem SameAnswers.refl : SameAnswers m s s i := ⟨fun _ _ _ _ _ _ => rfl, fun _ _ => rfl⟩

theorem SameAnswers.trans (h : SameAnswers m s t i) (g : SameAnswers m t u i) :
    SameAnswers m s u i where
  validate := fun env audience token claims hv hj =>
    (g.validate env audience token claims hv hj).trans (h.validate env audience token claims hv hj)
  renew := fun env boundToken => (g.renew env boundToken).trans (h.renew env boundToken)

theorem sameAnswers_of_get
    (hid : t.store.entriesById.get i.entry.id = s.store.entriesById.get i.entry.id)
    (hhash : t.store.entriesByHash.get (m.hash i.refreshToken) =
      s.store.entriesByHash.get (m.hash i.refreshToken)) :
    SameAnswers m s t i where
  validate := by
    intro env audience token claims hv hj
    cases hg : s.store.entriesById.get i.entry.id with
    | none =>
      rw [validateToken_of_get_none hv hj (hid.trans hg), validateToken_of_get_none hv hj hg]
    | some e =>
      rw [validateToken_of_get_some hv hj (hid.trans hg), validateToken_of_get_some hv hj hg]
  renew := by
    intro env boundToken
    cases hg : s.store.entriesByHash.get (m.hash i.refreshToken) with
    | none => rw [renew_of_get_none (hhash.trans hg), renew_of_get_none hg]
    | some e =>
      have ht := hhash.trans hg
      cases hp : m.renewPrepare env e boundToken with
      | error e' =>
        simp [JwtTokenManager.renew, renewLookup_eq_ok.mpr hg, renewLookup_eq_ok.mpr ht, hp]
      | ok r =>
        simp [JwtTokenManager.renew, renewLookup_eq_ok.mpr hg, renewLookup_eq_ok.mpr ht,
          hp, renewUpdate, InnerStore.update, hg, ht]

end Answers

section Steps
variable {m : JwtTokenManager} {s t : State} {l : Label}

theorem State.Ledger.keys_ne (hinj : Function.Injective m.hash) (hL : s.Ledger m) {i : Issue}
    (hi : i ∈ s.issued) {e : RenewableTokenEntry} (he : s.store.Live e)
    (hne : e.participantContextId ≠ i.entry.participantContextId) :
    i.entry.id ≠ e.id ∧ m.hash i.refreshToken ≠ e.hashedRefreshToken := by
  obtain ⟨j, hj, rfl⟩ := hL.live_issued e he
  have hij : i ≠ j := by
    intro hij
    rw [hij] at hne
    exact hne rfl
  refine ⟨fun hid => hij (hL.issued_unique i hi j hj (Or.inl hid)), fun hh => ?_⟩
  rw [(hL.issued_ok j hj).1] at hh
  exact hij (hL.issued_unique i hi j hj (Or.inr (hinj hh)))

theorem State.Ledger.drawn_ne (hinj : Function.Injective m.hash) (hL : s.Ledger m) {i : Issue}
    (hi : i ∈ s.issued) {env : CallEnv}
    (hdraw : env.jti ∉ s.jtis ∧ env.refreshToken ∉ s.refreshTokens) :
    i.entry.id ≠ env.jti ∧ m.hash i.refreshToken ≠ m.hash env.refreshToken := by
  obtain ⟨-, hid, hr⟩ := hL.issued_ok i hi
  exact ⟨fun h => hdraw.1 (h ▸ hid), fun h => hdraw.2 (hinj h ▸ hr)⟩

theorem sameAnswers_step (hinj : Function.Injective m.hash) (hL : s.Ledger m) {b : String}
    (hn : next m s l = some t) (hfresh : FreshDraws s l) (hown : OwnFlow s l)
    (hforeign : Foreign m b s l) {i : Issue} (hi : i ∈ s.issued)
    (hb : i.entry.participantContextId = b) : SameAnswers m s t i := by
  cases l with
  | generatePair env pc subject claims flowId =>
    simp only [next, Option.some.injEq] at hn
    subst hn
    obtain ⟨hid, hhash⟩ := hL.drawn_ne hinj hi hfresh
    rcases m.generatePair_cases env s.store pc subject claims flowId with
      ⟨e, -, hg⟩ | ⟨entry, pair, hp, hg⟩
    · exact sameAnswers_of_get (by simp [hg]) (by simp [hg])
    · obtain ⟨h1, h2, -⟩ := preparePair_ok hp
      exact sameAnswers_of_get (by simp [hg, InnerStore.save, h1, hid])
        (by simp [hg, InnerStore.save, h2, hhash])
  | renew env boundToken refreshToken =>
    simp only [next, Option.some.injEq] at hn
    subst hn
    obtain ⟨hid, hhash⟩ := hL.drawn_ne hinj hi hfresh
    rcases m.renew_cases env s.store boundToken refreshToken with
      ⟨e, hr⟩ | ⟨old, new, pair, hg, hp, hr⟩
    · exact sameAnswers_of_get (by simp [hr]) (by simp [hr])
    · obtain ⟨h1, h2, -⟩ := renewPrepare_ok hp
      have hkey := (hL.synced.byHash _ old hg).1
      have hlive : s.store.Live old := by rw [Live, hkey, hg]
      obtain ⟨hold, holdHash⟩ := hL.keys_ne hinj hi hlive (by rw [hb]; exact hforeign old hg)
      rw [hkey] at holdHash
      exact sameAnswers_of_get (by simp [hr, InnerStore.update, hg, h1, hid, hold])
        (by simp [hr, InnerStore.update, hg, h2, hhash, holdHash])
  | revokeToken pc f =>
    simp only [next, Option.some.injEq] at hn
    subst hn
    rcases removeByFlowId_cases s.store f with ⟨-, hr⟩ | ⟨e, hg, hr⟩
    · exact sameAnswers_of_get (by simp [revokeToken, hr]) (by simp [revokeToken, hr])
    · have hpc : e.participantContextId ≠ i.entry.participantContextId := by
        rw [hown e hg, hb]
        exact hforeign
      obtain ⟨hid, hhash⟩ := hL.keys_ne hinj hi (hL.synced.byFlow f e hg).2 hpc
      exact sameAnswers_of_get (by simp [revokeToken, hr, hid]) (by simp [revokeToken, hr, hhash])

theorem issued_mono (hn : next m s l = some t) {i : Issue} (hi : i ∈ s.issued) : i ∈ t.issued := by
  rcases next_cases hn with ⟨-, his, -⟩ | ⟨env, j, -, -, -, -, -, -, his, -⟩ | ⟨pc, g, -, rfl⟩
  · exact his ▸ hi
  · rw [his]
    exact List.mem_cons_of_mem j hi
  · exact hi

theorem not_sameAnswers_of_revoke (hL : s.Ledger m) {pc : ParticipantContext} {f : String}
    {i : Issue} (hg : s.store.entriesByFlowId.get f = some i.entry)
    (hn : next m s (.revokeToken pc f) = some t) : ¬ SameAnswers m s t i := by
  intro h
  simp only [next, Option.some.injEq] at hn
  subst hn
  let claims : TokenClaims :=
    { sub := "", aud := "", exp := 0, custom := HashMap.empty.insert "jti" (.string i.entry.id) }
  let env : CallEnv :=
    ⟨0, 0, "", "", fun _ _ => .ok "", fun _ _ => .ok claims, fun _ _ => .ok claims⟩
  have hj : claims.custom.get "jti" = some (.string i.entry.id) := by simp [claims]
  have hsame := h.validate env "" "" claims rfl hj
  have hlive := hL.synced.live_iff_id.mp (hL.synced.byFlow f i.entry hg).2
  have hgone : (m.revokeToken s.store pc f).2.entriesById.get i.entry.id = none := by
    simp [revokeToken, removeByFlowId, hg]
  rw [validateToken_of_get_some rfl hj hlive, validateToken_of_get_none rfl hj hgone] at hsame
  exact absurd hsame (by simp)

end Steps

/-- Isolation of tenants. In every reachable state a call leaves the tokens of the other contexts as
they were exactly when it does not revoke a flow whose index leads to one of them; and a run of
calls that all do so, and none of which is the context's own, keeps every answer about its
tokens. -/
theorem issued_tokens_isolated {m : JwtTokenManager} (hinj : Function.Injective m.hash) {s : State}
    (h : Machine.Reach (machine m) (fun s l _ => FreshDraws s l) s) :
    (∀ pc l t, l.context = some pc → (machine m).next s l = some t → FreshDraws s l →
      ((∀ i ∈ s.issued, i.entry.participantContextId ≠ pc.id → SameAnswers m s t i) ↔
        OwnFlow s l)) ∧
    ∀ b ls t, Machine.Path (machine m) (fun s l _ => FreshDraws s l ∧ OwnFlow s l ∧
      Foreign m b s l) s ls t →
      ∀ i ∈ s.issued, i.entry.participantContextId = b → SameAnswers m s t i := by
  have hL := ledger_of_reach hinj h
  refine ⟨fun pc l t hpc hn hfresh => ⟨fun hsame => ?_, fun hown i hi hne => ?_⟩,
    fun b ls t hpath i hi hb => ?_⟩
  · cases l with
    | revokeToken pc' f =>
      obtain rfl := Option.some.inj hpc
      intro e hg
      by_contra hne
      obtain ⟨i, hi, rfl⟩ := hL.live_issued e (hL.synced.byFlow f e hg).2
      exact not_sameAnswers_of_revoke hL hg hn (hsame i hi hne)
    | generatePair env pc' subject claims flowId => trivial
    | renew env boundToken refreshToken => trivial
  · refine sameAnswers_step hinj hL hn hfresh hown ?_ hi rfl
    cases l with
    | renew env boundToken refreshToken => simp [Label.context] at hpc
    | generatePair env pc' subject claims flowId =>
      obtain rfl := Option.some.inj hpc
      exact fun he => hne he.symm
    | revokeToken pc' f =>
      obtain rfl := Option.some.inj hpc
      exact fun he => hne he.symm
  · suffices hkept : t.Ledger m ∧ i ∈ t.issued ∧ SameAnswers m s t i from hkept.2.2
    refine hpath.preserves (P := fun u => u.Ledger m ∧ i ∈ u.issued ∧ SameAnswers m s u i)
      ⟨hL, hi, .refl⟩ ?_
    intro u l v _ hn hok hu
    obtain ⟨hfresh, hown, hforeign⟩ := hok
    obtain ⟨hLu, hiu, hsame⟩ := hu
    exact ⟨ledger_step hinj hLu hn hfresh, issued_mono hn hiu,
      hsame.trans (sameAnswers_step hinj hLu hn hfresh hown hforeign hiu hb)⟩

/-! Two tenants of the manager above: `pc` and a second one. -/

def demoTenant : ParticipantContext := { id := "pc2" }

def demoTenantGenerate (jti refreshToken flowId : String) : Label :=
  .generatePair (demoEnv jti refreshToken) demoTenant "consumer" HashMap.empty flowId

def tenantsState (flowId : String) : State :=
  (machine demoManager).final (fun s l _ => freshCheck s l) demoStart
    [demoGenerate "j1" "r1", demoTenantGenerate "j2" "r2" flowId]

def demoTenantIssue (flowId : String) : Issue where
  entry := { (demoIssue "j2" "r2").entry with participantContextId := "pc2", flowId := flowId }
  refreshToken := "r2"

theorem reach_tenantsState (flowId : String) :
    Machine.Reach (machine demoManager) (fun s l _ => FreshDraws s l) (tenantsState flowId) :=
  ⟨demoStart, _, ⟨rfl, rfl⟩, Machine.path_final (fun s l _ => freshDraws_of_check s l) (by rfl)⟩

/-- With flow ids of their own the tenants do not meet: the first pair survives the revocation of
the second. -/
theorem issued_tokens_isolated_own_flow :
    ∃ i ∈ (tenantsState "flow2").issued, i.refreshToken = "r1" ∧
      (demoManager.renew (demoEnv "j3" "r3") (tenantsState "flow2").store "j1" "r1").1 =
        .ok ⟨"j3", "r3", 172800, "https://provider/token"⟩ ∧
      (demoManager.renew (demoEnv "j3" "r3")
        (demoManager.revokeToken (tenantsState "flow2").store demoTenant "flow2").2 "j1" "r1").1 =
        .ok ⟨"j3", "r3", 172800, "https://provider/token"⟩ := by
  have hinj : Function.Injective demoManager.hash := fun a b h => h
  have hmain := (issued_tokens_isolated hinj (reach_tenantsState "flow2")).1 demoTenant
    (.revokeToken demoTenant "flow2") _ rfl rfl trivial
  have hown : OwnFlow (tenantsState "flow2") (.revokeToken demoTenant "flow2") := by
    intro e he
    obtain rfl := Option.some.inj he
    rfl
  have hissued : demoIssue "j1" "r1" ∈ (tenantsState "flow2").issued :=
    List.mem_cons_of_mem _ List.mem_cons_self
  have hsame := hmain.mpr hown (demoIssue "j1" "r1") hissued (by decide)
  exact ⟨demoIssue "j1" "r1", hissued, rfl, rfl, (hsame.renew (demoEnv "j3" "r3") "j1").trans rfl⟩

/-- One flow id in two contexts: the revocation by the first takes away the pair of the second. -/
theorem tenant_revokes_foreign_pair :
    ¬ ∀ (m : JwtTokenManager) (s t : State) (a : ParticipantContext) (f : String),
      Function.Injective m.hash → Machine.Reach (machine m) (fun s l _ => FreshDraws s l) s →
        (machine m).next s (.revokeToken a f) = some t →
      ∀ i ∈ s.issued, i.entry.participantContextId ≠ a.id → SameAnswers m s t i := by
  intro h
  have hsame :=
    h demoManager (tenantsState "flow") _ demoContext "flow" (fun a b h => h)
      (reach_tenantsState "flow")
      rfl (demoTenantIssue "flow") List.mem_cons_self (by decide)
  have hrenew := hsame.renew (demoEnv "j3" "r3") "j2"
  exact absurd hrenew (by decide)

end Facet.Renewable
