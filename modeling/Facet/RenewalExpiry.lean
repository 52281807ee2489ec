import Facet.TokenTenancy

/-!
# Expiry of refresh tokens

An entry is stored with the instant `renewal_expiration` computes for it. Neither the
lookup by hash nor `renew` nor the update reads that instant, so a refresh token ends
with its entry and not with its expiry.
-/
namespace Facet.Renewable
open InnerStore JwtTokenManager

/-- The clock reading of a call. -/
def Label.time : Label → Option ℤ
  | .generatePair env _ _ _ _ => some env.now
  | .renew env _ _ => some env.now
  | .revokeToken _ _ => none

def times (ls : List Label) : List ℤ := ls.filterMap Label.time

/-- A refresh token is spent or revoked when its entry has left the store. -/
def Gone (m : JwtTokenManager) (s : State) (i : Issue) : Prop :=
  s.store.entriesByHash.get (m.hash i.refreshToken) = none

section Steps
variable {m : JwtTokenManager} {s t : State} {l : Label} {i : Issue}

theorem Gone.step (h : Gone m s i) (hinj : Function.Injective m.hash) (hL : s.Ledger m)
    (hi : i ∈ s.issued) (hn : next m s l = some t) (hfresh : FreshDraws s l) : Gone m t i := by
  rcases next_cases hn with ⟨hst, -, -, -⟩ | ⟨env, j, -, -, hdraw, -, hrt, hhash, -,
    hkind⟩ | ⟨pc, g, -, rfl⟩
  · rw [Gone, hst]
    exact h
  · have hne : m.hash i.refreshToken ≠ j.entry.hashedRefreshToken := by
      rw [hhash, hrt]
      exact (hL.drawn_ne hinj hi (hdraw hfresh)).2
    rcases hkind with ⟨-, hst⟩ | ⟨k, old, hg, -, hst⟩
    · rw [Gone, hst]
      simp only [InnerStore.save, HashMap.get_insert, if_neg hne]
      exact h
    · rw [Gone, hst]
      simp only [InnerStore.update, hg, HashMap.get_insert, HashMap.get_remove, if_neg hne]
      split_ifs
      · rfl
      · exact h
  · rcases removeByFlowId_cases s.store g with ⟨-, hr⟩ | ⟨e, -, hr⟩
    · rw [Gone, hr]
      exact h
    · rw [Gone, hr]
      simp only [HashMap.get_remove]
      split_ifs
      · rfl
      · exact h

theorem Gone.path {ls : List Label} (h : Gone m s i) (hinj : Function.Injective m.hash)
    (hL : s.Ledger m) (hi : i ∈ s.issued)
    (hpath : Machine.Path (machine m) (fun s l _ => FreshDraws s l) s ls t) : Gone m t i := by
  suffices hkept : t.Ledger m ∧ i ∈ t.issued ∧ Gone m t i from hkept.2.2
  refine hpath.preserves (P := fun u => u.Ledger m ∧ i ∈ u.issued ∧ Gone m u i) ⟨hL, hi, h⟩ ?_
  intro u l v _ hn hfresh hu
  obtain ⟨hLu, hiu, hg⟩ := hu
  exact ⟨ledger_step hinj hLu hn hfresh, issued_mono hn hiu, hg.step hinj hLu hiu hn hfresh⟩

theorem exists_fresh (xs : List String) : ∃ x, x ∉ xs := by
  obtain ⟨x, hx⟩ := Infinite.exists_notMem_finset xs.toFinset
  exact ⟨x, by simpa using hx⟩

theorem exists_renewal {e : RenewableTokenEntry} {refreshToken : String}
    (hg : s.store.entriesByHash.get (m.hash refreshToken) = some e) {now expiresAt : ℤ}
    (hexp : m.renewalExpiration now = .ok expiresAt) :
    ∃ env boundToken pair, env.now = now ∧ FreshDraws s (.renew env boundToken refreshToken) ∧
      (m.renew env s.store boundToken refreshToken).1 = .ok pair := by
  obtain ⟨jti, hjti⟩ := exists_fresh s.jtis
  obtain ⟨fresh, hrefresh⟩ := exists_fresh s.refreshTokens
  let proof : TokenClaims :=
    { sub := e.subject, aud := e.audience, exp := now,
      custom := HashMap.empty.insert "token" (.string e.token) }
  let env : CallEnv :=
    ⟨now, now, jti, fresh, fun _ _ => .ok jti, fun _ _ => .ok proof, fun _ _ => .ok proof⟩
  have hp : m.renewPrepare env e "" = .ok (_, ⟨jti, fresh, expiresAt, m.refreshEndpoint⟩) :=
    renewPrepare_eq_ok.mpr ⟨proof, jti, expiresAt, rfl, rfl, by simp [proof], hexp, rfl, rfl, rfl⟩
  refine ⟨env, "", ⟨jti, fresh, expiresAt, m.refreshEndpoint⟩, rfl, ⟨hjti, hrefresh⟩, ?_⟩
  simp [JwtTokenManager.renew, renewLookup_eq_ok.mpr hg, hp, renewUpdate,
    InnerStore.update, hg, env]

end Steps

/-- After its expiry a refresh token is dead exactly when it was spent or revoked before, or when no
new expiry can be represented; once spent or revoked it is dead for good. How the clock moved during
the run makes no difference. -/
theorem renewal_dead_iff_gone {m : JwtTokenManager} (hinj : Function.Injective m.hash)
    {s₀ s : State} {ls : List Label} (h₀ : (machine m).init s₀)
    (hpath : Machine.Path (machine m) (fun s l _ => FreshDraws s l) s₀ ls s) {i : Issue}
    (hi : i ∈ s.issued) : (∀ now, i.entry.expiresAt ≤ now →
      ((∀ env boundToken pair, env.now = now → FreshDraws s (.renew env boundToken i.refreshToken) →
          (m.renew env s.store boundToken i.refreshToken).1 ≠ .ok pair) ↔
        Gone m s i ∨ ∀ expiresAt, m.renewalExpiration now ≠ .ok expiresAt)) ∧
    ∀ ms t, Gone m s i → Machine.Path (machine m) (fun s l _ => FreshDraws s l) s ms t →
      ∀ env boundToken, (m.renew env t.store boundToken i.refreshToken).1 =
        .error (.notAuthorized "Invalid refresh token") := by
  have hL := ledger_of_reach hinj ⟨s₀, ls, h₀, hpath⟩
  refine ⟨fun now _ => ⟨fun hdead => ?_, fun hgone env boundToken pair hnow _ hok => ?_⟩,
    fun ms t hgone hms => ?_⟩
  · cases hg : s.store.entriesByHash.get (m.hash i.refreshToken) with
    | none => exact Or.inl hg
    | some e =>
      refine Or.inr fun expiresAt hexp => ?_
      obtain ⟨env, boundToken, pair, hnow, hfresh, hok⟩ := exists_renewal hg hexp
      exact hdead env boundToken pair hnow hfresh hok
  · rcases hgone with hgone | hnone
    · rw [renew_of_get_none hgone] at hok
      exact absurd hok (by simp)
    · rcases m.renew_cases env s.store boundToken i.refreshToken with
        ⟨e, hr⟩ | ⟨old, new, pair', -, hp, -⟩
      · rw [hr] at hok
        exact absurd hok (by simp)
      · obtain ⟨-, -, expiresAt, -, -, -, hexp, -⟩ := renewPrepare_eq_ok.mp hp
        exact hnone expiresAt (hnow ▸ hexp)
  · intro env boundToken
    rw [renew_of_get_none (hgone.path hinj hL hi hms)]

def demoEnvAt (now : ℤ) (jti refreshToken : String) : CallEnv :=
  { demoEnv jti refreshToken with now := now, claimsNow := now }

def spending : List Label := [demoGenerate "j1" "r1", .renew (demoEnvAt 100 "j2" "r2") "j1" "r1"]

def spentState : State :=
  (machine demoManager).final (fun s l _ => freshCheck s l) demoStart spending

/-- The first refresh token is spent at 100 and dead at its expiry 172800. -/
theorem renewal_dead_of_spent :
    (demoManager.renew (demoEnvAt 172800 "j3" "r3") spentState.store "j1" "r1").1 ≠
      .ok ⟨"j3", "r3", 345600, "https://provider/token"⟩ := by
  have hpath : Machine.Path (machine demoManager) (fun s l _ => FreshDraws s l) demoStart
      spending spentState :=
    Machine.path_final (fun s l _ => freshDraws_of_check s l) (by decide)
  have hissued : demoIssue "j1" "r1" ∈ spentState.issued :=
    List.mem_cons_of_mem _ (List.mem_singleton.mpr rfl)
  have hinj : Function.Injective demoManager.hash := fun a b h => h
  have hmain := (renewal_dead_iff_gone hinj ⟨rfl, rfl⟩ hpath hissued).1 172800 (by decide)
  exact hmain.mpr (Or.inl (by rfl)) (demoEnvAt 172800 "j3" "r3") "j1" _ rfl
    (freshDraws_of_check _ _ (by decide))

/-- Nobody spends the token: it is exchanged a day after its expiry. -/
theorem expired_renewal_succeeds :
    ¬ ∀ (m : JwtTokenManager) (s₀ s : State) (ls : List Label) (i : Issue) (env : CallEnv)
      (boundToken : String) (pair : RenewableTokenPair), Function.Injective m.hash →
        (machine m).init s₀ →
      Machine.Path (machine m) (fun s l _ => FreshDraws s l) s₀ ls s → (times ls).Pairwise (· ≤ ·) →
      i ∈ s.issued → FreshDraws s (.renew env boundToken i.refreshToken) →
      (∀ earlier ∈ times ls, earlier ≤ env.now) → i.entry.expiresAt ≤ env.now →
      (m.renew env s.store boundToken i.refreshToken).1 ≠ .ok pair := by
  intro h
  have hpath : Machine.Path (machine demoManager) (fun s l _ => FreshDraws s l) demoStart
      [demoGenerate "j1" "r1"]
      ((machine demoManager).final (fun s l _ => freshCheck s l) demoStart
        [demoGenerate "j1" "r1"]) :=
    Machine.path_final (fun s l _ => freshDraws_of_check s l) (by decide)
  exact h demoManager demoStart _ _ (demoIssue "j1" "r1") (demoEnvAt 259200 "j3" "r3") "j1"
    ⟨"j3", "r3", 432000, "https://provider/token"⟩ (fun a b h => h) ⟨rfl, rfl⟩ hpath (by decide)
    (List.mem_singleton.mpr rfl) (freshDraws_of_check _ _ (by decide)) (by decide) (by decide) rfl

end Facet.Renewable
