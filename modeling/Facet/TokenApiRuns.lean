import Facet.ManagementApi
import Facet.TokenApi

/-!
# Runs of the token API

Who is told what over a run: a participant the same as without the others, and nobody a token
without having presented one for the API.
-/
namespace Facet.Siglet.TokenApi
open Client Lock
open Server (JsonWebToken AuthError Jwk AuthState Outcome Presents HasEntry pathParamPcId inject
  buildTokenApiAuthLayer enabledHttpRequireToken call call_inner_some verifyJwt_eq_ok demoLibrary
  demoLibrary_checks demoToken demoKey demoState demoPayload demo_presents)

/-! ## Steps -/

/-- The layer lets the request through. -/
def Request.Admitted {lib : JsonWebToken} (cfg : TokenApiAuthConfig)
    (request : Request lib) : Prop :=
  ∃ injected, call lib request.now (buildTokenApiAuthLayer (fun _ _ => request.fetchJwks) cfg)
    (.ok request.route.params) request.authorization = .inner injected

/-- Calls are made for admitted requests only and none of them saves a token; the authentication
answers with errors. -/
structure Inv (admitted : ℕ → Route → Prop) (s : State) : Prop where
  calls : ∀ c call, s.client.calls.get c = some call →
    ∃ route, s.routes.get c = some route ∧ admitted c route ∧ call.owner = route.id ∧
      call.phase.toSave = none
  events : ∀ ev ∈ s.client.history, ∃ route, s.routes.get ev.call = some route ∧
    admitted ev.call route
  refused : ∀ c answer, (c, answer) ∈ s.refused → (∃ route, s.routes.get c = some route) ∧
    400 ≤ answer.status

section Runs
variable {lib : JsonWebToken} {h : TokenApiHandler} {cfg : TokenApiAuthConfig} {s t s' : State}
  {admitted : ℕ → Route → Prop}

theorem Inv.savesHere (hs : Inv admitted s) (api : TokenClientApi) : SavesHere api s.client := by
  intro c call data hcall hsave
  obtain ⟨-, -, -, -, hnone⟩ := hs.calls c call hcall
  exact absurd (hnone.symm.trans hsave) (by simp)

/-- What the client does to the calls that it has. -/
theorem Inv.client (hs : Inv admitted s) {api : TokenClientApi} {l : Client.Label}
    {client : Client.State} (hl : l.starts = none)
    (hstep : Client.next api s.client l = some client) :
    Inv admitted { s with client := client } := by
  have hm := next_move (hs.savesHere api) hstep
  refine ⟨fun c call' hcall => ?_, fun ev hev => ?_, hs.refused⟩
  · obtain ⟨call, hcall, howner, hsave⟩ := calls_of_move hm hl hcall
    obtain ⟨route, hroute, hadmitted, hid, hnone⟩ := hs.calls c call hcall
    exact ⟨route, hroute, hadmitted, howner.trans hid, hsave hnone⟩
  · rcases event_of_move hm hl hev with hev | ⟨call, hcall⟩
    · exact hs.events ev hev
    · obtain ⟨route, hroute, hadmitted, -⟩ := hs.calls ev.call call hcall
      exact ⟨route, hroute, hadmitted⟩

theorem Inv.arrive (hs : Inv admitted s) {c : ℕ} (hc : s.routes.get c = none)
    (request : Request lib) (hadmitted : request.Admitted cfg → admitted c request.route) :
    Inv admitted (TokenApi.arrive cfg s c request) := by
  have hkept : ∀ {d : ℕ} {route : Route}, s.routes.get d = some route →
      (s.routes.insert c request.route).get d = some route := by
    intro d route hroute
    have hne : d ≠ c := by
      rintro rfl
      exact absurd (hc.symm.trans hroute) (by simp)
    rw [HashMap.get_insert, if_neg hne, hroute]
  have hcalls : ∀ d call, s.client.calls.get d = some call → ∃ route,
      (s.routes.insert c request.route).get d = some route ∧ admitted d route ∧
        call.owner = route.id ∧
        call.phase.toSave = none := by
    intro d call hcall
    obtain ⟨route, hroute, hrest⟩ := hs.calls d call hcall
    exact ⟨route, hkept hroute, hrest⟩
  have hevents : ∀ ev ∈ s.client.history, ∃ route,
      (s.routes.insert c request.route).get ev.call = some route ∧
      admitted ev.call route := by
    intro ev hev
    obtain ⟨route, hroute, hrest⟩ := hs.events ev hev
    exact ⟨route, hkept hroute, hrest⟩
  have hrefused : ∀ d answer, (d, answer) ∈ s.refused →
      (∃ route, (s.routes.insert c request.route).get d = some route) ∧ 400 ≤ answer.status := by
    intro d answer hd
    obtain ⟨⟨route, hroute⟩, hstatus⟩ := hs.refused d answer hd
    exact ⟨⟨route, hkept hroute⟩, hstatus⟩
  unfold TokenApi.arrive
  dsimp only
  split
  case h_1 status message hcall =>
    refine ⟨hcalls, hevents, fun d answer hd => ?_⟩
    rcases List.mem_cons.mp hd with heq | hd
    · obtain ⟨rfl, rfl⟩ := Prod.mk.inj heq
      exact ⟨⟨request.route, by simp⟩, call_refused hcall⟩
    · exact hrefused d answer hd
  case h_2 injected hcall =>
    refine ⟨fun d call hd => ?_, hevents, hrefused⟩
    rcases HashMap.get_insert_eq_some hd with ⟨rfl, rfl⟩ | ⟨-, hd⟩
    · refine ⟨request.route, by simp, hadmitted ⟨injected, hcall⟩, rfl, ?_⟩
      cases request.handler <;> rfl
    · exact hcalls d call hd

theorem Inv.step (hs : Inv admitted s) {l : Label lib} (hstep : next h cfg s l = some s')
    (hadmitted : ∀ c request, l = .arrive c request → request.Admitted cfg →
      admitted c request.route) :
    Inv admitted s' := by
  cases l with
  | arrive c request =>
    rw [next, Option.ite_none_left_eq_some] at hstep
    obtain ⟨hc, hstep⟩ := hstep
    have hget : s.routes.get c = none := by
      simpa [HashMap.containsKey] using hc
    exact Option.some.inj hstep ▸ hs.arrive hget request (hadmitted c request rfl)
  | step c =>
    obtain ⟨route, -, hmap⟩ := Option.bind_eq_some_iff.mp hstep
    obtain ⟨client, hclient, rfl⟩ := Option.map_eq_some_iff.mp hmap
    exact hs.client rfl hclient
  | answered c result =>
    obtain ⟨route, -, hmap⟩ := Option.bind_eq_some_iff.mp hstep
    obtain ⟨client, hclient, rfl⟩ := Option.map_eq_some_iff.mp hmap
    exact hs.client rfl hclient
  | unlock identifier =>
    obtain ⟨client, hclient, rfl⟩ := Option.map_eq_some_iff.mp hstep
    exact hs.client rfl hclient
  | tick elapsed => exact Option.some.inj hstep ▸ ⟨hs.calls, hs.events, hs.refused⟩
  | saved data => exact Option.some.inj hstep ▸ ⟨hs.calls, hs.events, hs.refused⟩
  | removed pc identifier => exact Option.some.inj hstep ▸ ⟨hs.calls, hs.events, hs.refused⟩

theorem Inv.of_init (hs : (machine lib h cfg).init s) : Inv admitted s := by
  obtain ⟨-, hcalls, hhistory, -, hrefused⟩ := hs
  refine ⟨fun c call hcall => ?_, fun ev hev => ?_, fun c answer hmem => ?_⟩
  · rw [hcalls] at hcall
    exact absurd hcall (by simp)
  · rw [hhistory] at hev
    exact absurd hev (by simp)
  · rw [hrefused] at hmem
    exact absurd hmem (by simp)

/-- The request is for a token of the participant. -/
def Own (p : String) (s : State) (c : ℕ) : Prop := ∃ id, s.routes.get c = some ⟨p, id⟩

/-- `t` is the part of `s` that the participant sees. -/
structure Alike (p : String) (s t : State) : Prop where
  shadow : Shadow p (Own p s) s.client t.client
  routes : ∀ c route, t.routes.get c = some route ↔ s.routes.get c = some route ∧
    route.participantContextId = p
  refused : ∀ c answer, (c, answer) ∈ t.refused ↔ (c, answer) ∈ s.refused ∧ Own p s c

/-- The step is of the run of the participant: not the arrival of another one's request, nor a write
of its tokens. -/
def Label.Concerns (p : String) : Label lib → Prop
  | .arrive _ request => request.route.participantContextId = p
  | .saved data => data.participantContext = p
  | .removed pc _ => pc = p
  | _ => True

variable {p : String}

theorem own_insert {c : ℕ} {route : Route} (hc : s.routes.get c = none)
    (hs' : s'.routes = s.routes.insert c route) (d : ℕ) :
    Own p s' d ↔ Own p s d ∨ (d = c ∧ route.participantContextId = p) := by
  obtain ⟨pc, id⟩ := route
  unfold Own
  rw [hs']
  simp only [HashMap.get_insert]
  by_cases hd : d = c
  · subst hd
    simp [hc]
  · simp [hd]

theorem own_iff {c : ℕ} {route : Route} (hroute : s.routes.get c = some route) :
    Own p s c ↔ route.participantContextId = p := by
  obtain ⟨pc, id⟩ := route
  simp [Own, hroute]

theorem Alike.of_client (ha : Alike p s t) {client client' : Client.State}
    (hshadow : Shadow p (Own p s) client client') :
    Alike p { s with client := client } { t with client := client' } :=
  ⟨hshadow, ha.routes, ha.refused⟩

theorem Alike.arrive_own (ha : Alike p s t) (hs : Inv admitted s) (ht : Inv admitted t) {c : ℕ}
    (hc : s.routes.get c = none) {request : Request lib}
    (hp : request.route.participantContextId = p) :
    t.routes.get c = none ∧
      Alike p (TokenApi.arrive cfg s c request) (TokenApi.arrive cfg t c request) := by
  have htc : t.routes.get c = none := by
    refine Option.eq_none_iff_forall_ne_some.mpr fun route hroute => ?_
    exact absurd (hc.symm.trans ((ha.routes c route).mp hroute).1) (by simp)
  have hfresh : ∀ {r : State}, Inv admitted r → r.routes.get c = none →
      r.client.calls.get c = none := by
    intro r hr hrc
    refine Option.eq_none_iff_forall_ne_some.mpr fun call hcall => ?_
    obtain ⟨route, hroute, -⟩ := hr.calls c call hcall
    exact absurd (hrc.symm.trans hroute) (by simp)
  have hevents : ∀ ev ∈ s.client.history, ev.call ≠ c := by
    rintro ev hev rfl
    obtain ⟨route, hroute, -⟩ := hs.events ev hev
    exact absurd (hc.symm.trans hroute) (by simp)
  have hown : ∀ {r : State}, r.routes = s.routes.insert c request.route → ∀ d, Own p r d ↔
      Own p s d ∨ d = c := by
    intro r hr d
    rw [own_insert hc hr, hp]
    simp
  have hroutes : ∀ d route, (t.routes.insert c request.route).get d = some route ↔
      (s.routes.insert c request.route).get d = some route ∧ route.participantContextId = p := by
    intro d route
    simp only [HashMap.get_insert]
    split_ifs with hd
    · constructor
      · rintro heq
        exact ⟨heq, Option.some.inj heq ▸ hp⟩
      · exact fun heq => heq.1
    · exact ha.routes d route
  refine ⟨htc, ?_⟩
  unfold TokenApi.arrive
  dsimp only
  split
  · refine ⟨ha.shadow.widen (hown rfl) hevents (hfresh hs hc) (hfresh ht htc),
      hroutes, fun d answer => ?_⟩
    rw [hown rfl]
    simp only [List.mem_cons, ha.refused, Prod.mk.injEq]
    constructor
    · rintro (⟨rfl, rfl⟩ | ⟨hmem, hd⟩)
      · exact ⟨Or.inl ⟨rfl, rfl⟩, Or.inr rfl⟩
      · exact ⟨Or.inr hmem, Or.inl hd⟩
    · rintro ⟨hnew | hmem, hd⟩
      · exact Or.inl hnew
      · rcases hd with hd | rfl
        · exact Or.inr ⟨hmem, hd⟩
        · obtain ⟨⟨route, hroute⟩, -⟩ := hs.refused d answer hmem
          exact absurd (hc.symm.trans hroute) (by simp)
  · refine ⟨(ha.shadow.widen (hown rfl) hevents (hfresh hs hc) (hfresh ht htc)).goto c _ _,
      hroutes, fun d answer => ?_⟩
    rw [hown rfl, ha.refused]
    constructor
    · rintro ⟨hmem, hd⟩
      exact ⟨hmem, Or.inl hd⟩
    · rintro ⟨hmem, hd | rfl⟩
      · exact ⟨hmem, hd⟩
      · obtain ⟨⟨route, hroute⟩, -⟩ := hs.refused d answer hmem
        exact absurd (hc.symm.trans hroute) (by simp)

theorem Alike.arrive_other (ha : Alike p s t) {c : ℕ} (hc : s.routes.get c = none)
    {request : Request lib} (hp : request.route.participantContextId ≠ p) :
    Alike p (TokenApi.arrive cfg s c request) t := by
  have hown : ∀ {r : State}, r.routes = s.routes.insert c request.route → Own p r = Own p s := by
    intro r hr
    funext d
    rw [own_insert hc hr]
    simp [hp]
  have hshadow : ∀ {r : State} {client : Client.State}, r.routes = s.routes.insert c request.route →
      Shadow p (Own p s) client t.client → Shadow p (Own p r) client t.client := by
    intro r client hr hs
    rw [hown hr]
    exact hs
  have hiff : ∀ {r : State}, r.routes = s.routes.insert c request.route → ∀ d, Own p r d ↔
      Own p s d := by
    intro r hr d
    rw [hown hr]
  have hnot : ¬ Own p s c := by
    rintro ⟨id, hroute⟩
    exact absurd (hc.symm.trans hroute) (by simp)
  have hroutes : ∀ d route, t.routes.get d = some route ↔
      (s.routes.insert c request.route).get d = some route ∧ route.participantContextId = p := by
    intro d route
    rw [ha.routes, HashMap.get_insert]
    split_ifs with hd
    · subst hd
      simp only [hc, Option.some.injEq]
      refine iff_of_false (by simp) ?_
      rintro ⟨rfl, hroute⟩
      exact hp hroute
    · rfl
  unfold TokenApi.arrive
  dsimp only
  split
  · refine ⟨hshadow rfl ha.shadow, hroutes, fun d answer => ?_⟩
    rw [hiff rfl, ha.refused]
    simp only [List.mem_cons, Prod.mk.injEq]
    constructor
    · rintro ⟨hmem, hd⟩
      exact ⟨Or.inr hmem, hd⟩
    · rintro ⟨⟨rfl, -⟩ | hmem, hd⟩
      · exact absurd hd hnot
      · exact ⟨hmem, hd⟩
  · refine ⟨hshadow rfl (ha.shadow.goto_left hnot _ _), hroutes, fun d answer => ?_⟩
    rw [hiff rfl]
    exact ha.refused d answer

theorem Alike.step (ha : Alike p s t) (hs : Inv admitted s) (ht : Inv admitted t) {l : Label lib}
    (hstep : next h cfg s l = some s') :
    (l.Concerns p ∧ ∃ t', next h cfg t l = some t' ∧ Alike p s' t') ∨ Alike p s' t := by
  cases l with
  | arrive c request =>
    rw [next, Option.ite_none_left_eq_some] at hstep
    obtain ⟨hc, hstep⟩ := hstep
    have hget : s.routes.get c = none := by
      simpa [HashMap.containsKey] using hc
    rw [← Option.some.inj hstep]
    by_cases hp : request.route.participantContextId = p
    · obtain ⟨htc, halike⟩ := ha.arrive_own hs ht hget hp
      exact Or.inl ⟨hp, _, by simp [next, HashMap.containsKey, htc], halike⟩
    · exact Or.inr (ha.arrive_other hget hp)
  | step c =>
    obtain ⟨route, hroute, hmap⟩ := Option.bind_eq_some_iff.mp hstep
    obtain ⟨client, hclient, rfl⟩ := Option.map_eq_some_iff.mp hmap
    simp only [Client.next] at hclient
    cases hcall : s.client.calls.get c with
    | none => simp [hcall] at hclient
    | some call =>
      simp only [hcall] at hclient
      obtain ⟨route', hroute', -, howner, hsave⟩ := hs.calls c call hcall
      obtain rfl : route = route' := Option.some.inj (hroute.symm.trans hroute')
      by_cases hp : route.participantContextId = p
      · have hown : Own p s c := (own_iff hroute).mpr hp
        obtain ⟨client', hclient', hshadow⟩ := own_step ha.shadow hown hp howner hsave _ hclient
        refine Or.inl ⟨trivial, { t with client := client' }, ?_, ha.of_client hshadow⟩
        simp only [next, (ha.routes c route).mpr ⟨hroute, hp⟩, Option.bind_some, Client.next,
          ha.shadow.calls c hown, hcall, hclient', Option.map_some]
      · have hown : ¬ Own p s c := fun ho => hp ((own_iff hroute).mp ho)
        exact Or.inr (ha.of_client (other_step ha.shadow hown hp howner hsave hclient))
  | answered c result =>
    obtain ⟨route, hroute, hmap⟩ := Option.bind_eq_some_iff.mp hstep
    obtain ⟨client, hclient, rfl⟩ := Option.map_eq_some_iff.mp hmap
    by_cases hp : route.participantContextId = p
    · have hown : Own p s c := (own_iff hroute).mpr hp
      obtain ⟨client', hclient', hshadow⟩ := own_answered ha.shadow hown hclient
      refine Or.inl ⟨trivial, { t with client := client' }, ?_, ha.of_client hshadow⟩
      simp only [next, (ha.routes c route).mpr ⟨hroute, hp⟩, Option.bind_some, hclient',
        Option.map_some]
    · have hown : ¬ Own p s c := fun ho => hp ((own_iff hroute).mp ho)
      exact Or.inr (ha.of_client (other_answered ha.shadow hown hclient))
  | unlock identifier =>
    obtain ⟨client, hclient, rfl⟩ := Option.map_eq_some_iff.mp hstep
    simp only [Client.next, Option.ite_none_right_eq_some, Option.some.injEq] at hclient
    obtain ⟨-, rfl⟩ := hclient
    have hlocks := selfOwned_unlock ha.shadow.locks identifier
    by_cases hpending : identifier ∈ t.client.pendingUnlocks
    · refine Or.inl ⟨trivial, { t with client := { t.client with
        locks := (unlock t.client.locks identifier identifier).2
        pendingUnlocks := t.client.pendingUnlocks.erase identifier } }, ?_, ?_⟩
      · simp only [next, Client.next, if_pos hpending, Option.map_some]
        rfl
      · exact ha.of_client { ha.shadow with
          locks := hlocks, locks' := selfOwned_unlock ha.shadow.locks' identifier }
    · exact Or.inr (ha.of_client { ha.shadow with locks := hlocks })
  | tick elapsed =>
    refine Or.inl ⟨trivial, _, rfl, ?_⟩
    rw [← Option.some.inj hstep]
    exact ha.of_client { ha.shadow with now := by simp only [ha.shadow.now] }
  | saved data =>
    rw [← Option.some.inj hstep]
    by_cases hp : data.participantContext = p
    · refine Or.inl ⟨hp, _, rfl, ha.of_client (ha.shadow.stored fun id => ?_)⟩
      rw [MemoryTokenStore.dataAt_saveToken, MemoryTokenStore.dataAt_saveToken, ha.shadow.tokens]
    · refine Or.inr (ha.of_client (ha.shadow.stored_left fun id => ?_))
      rw [MemoryTokenStore.dataAt_saveToken, if_neg fun he => hp (Prod.mk.inj he).1.symm]
  | removed pc identifier =>
    rw [← Option.some.inj hstep]
    by_cases hp : pc = p
    · refine Or.inl ⟨hp, _, rfl, ha.of_client (ha.shadow.stored fun id => ?_)⟩
      rw [dataAt_removeToken, dataAt_removeToken, ha.shadow.tokens]
    · refine Or.inr (ha.of_client (ha.shadow.stored_left fun id => ?_))
      rw [dataAt_removeToken, if_neg fun he => hp (Prod.mk.inj he).1.symm]

theorem Alike.of_init (hs : (machine lib h cfg).init s) : Alike p s s := by
  obtain ⟨hlocks, -, hhistory, hroutes, hrefused⟩ := hs
  have hself : SelfOwned s.client.locks := by
    rw [hlocks]
    exact fun id record hrecord => absurd hrecord (by simp)
  refine ⟨⟨rfl, fun _ => rfl, fun _ _ => rfl, fun ev => ?_, hself, hself⟩, fun c route =>
    ?_, fun c answer => ?_⟩
  · simp [hhistory]
  · simp [hroutes]
  · simp [hrefused]

theorem Alike.answered_iff (ha : Alike p s t) {c : ℕ} (hc : Own p s c) (answer : Response) :
    t.Answered c answer ↔ s.Answered c answer := by
  unfold State.Answered
  rw [ha.refused]
  constructor
  · rintro (⟨hmem, -⟩ | ⟨ev, hev, hrest⟩)
    · exact Or.inl hmem
    · exact Or.inr ⟨ev, ((ha.shadow.history ev).mp hev).1, hrest⟩
  · rintro (hmem | ⟨ev, hev, rfl, hresponse⟩)
    · exact Or.inl ⟨hmem, hc⟩
    · exact Or.inr ⟨ev, (ha.shadow.history ev).mpr ⟨hev, hc⟩, rfl, hresponse⟩

/-- The requests of a participant are answered as if there were no other: without the requests of
the others, and the writes of their tokens, there is a run in which every one of its requests gets
the same answers and after which its tokens are the same. -/
theorem requests_undisturbed (h : TokenApiHandler) (cfg : TokenApiAuthConfig) {start s : State}
    {ls : List (Label lib)} (hinit : (machine lib h cfg).init start)
    (hpath : Machine.Path (machine lib h cfg) Machine.Any start ls s) (p : String) :
    ∃ ls' t, ls'.Sublist ls ∧ (∀ l ∈ ls', l.Concerns p) ∧
      Machine.Path (machine lib h cfg) Machine.Any start ls' t ∧
      (∀ c id, s.routes.get c = some ⟨p, id⟩ → ∀ answer, t.Answered c answer ↔
        s.Answered c answer) ∧
      ∀ id, t.client.tokens.dataAt (p, id) = s.client.tokens.dataAt (p, id) := by
  have hinv : ∀ {a b : State} {l : Label lib}, next h cfg a l = some b → Inv (fun _ _ => True) a →
      Inv (fun _ _ => True) b := fun hn ha => ha.step hn fun _ _ _ _ => trivial
  obtain ⟨ls', t, hsublist, hconcerns, hrun, halike, -, -⟩ := hpath.erase (Label.Concerns p)
    (R := fun s t => Alike p s t ∧ Inv (fun _ _ => True) s ∧ Inv (fun _ _ => True) t) (by
      rintro s t l s' ⟨ha, hs, ht⟩ hn
      rcases ha.step hs ht hn with ⟨hl, t', hn', ha'⟩ | ha'
      · exact Or.inl ⟨hl, t', hn', ha', hinv hn hs, hinv hn' ht⟩
      · exact Or.inr ⟨ha', hinv hn hs, ht⟩)
          ⟨Alike.of_init hinit, Inv.of_init hinit, Inv.of_init hinit⟩
  exact ⟨ls', t, hsublist, hconcerns, hrun, fun c id hc =>
    halike.answered_iff ⟨id, hc⟩, halike.shadow.tokens⟩

/-! Two participants with a token of the same identifier: one is refreshed while the other one is
deleted. -/

def sharedData (pc : String) : TokenData where
  identifier := "flow-1"
  participantContext := pc
  participantId := "did:web:" ++ pc
  counterPartyId := "did:web:provider"
  token := "access-" ++ pc
  refreshToken := "refresh-" ++ pc
  expiresAt := 1000
  refreshEndpoint := "https://provider.example/refresh"
  endpoint := "https://provider.example/data"

def sharedStart : State where
  client :=
    { tokens := (HashMap.empty.insert ("alice", "flow-1")
      ((sharedData "alice").record 0)).insert ("bob", "flow-1")
        ((sharedData "bob").record 0)
      locks := HashMap.empty
      now := 2000
      calls := HashMap.empty
      guards := []
      pendingUnlocks := []
      history := []
      nextCall := 0 }
  routes := HashMap.empty
  refused := []

def openRequest (handler : Handler) (pc : String) : Request (demoLibrary demoToken demoKey) where
  handler := handler
  route := ⟨pc, "flow-1"⟩
  authorization := none
  now := 0
  fetchJwks _ := .error (.jwksFetch "unreachable")

def sharedRun : List (Label (demoLibrary demoToken demoKey)) :=
  [.arrive 0 (openRequest .getToken "alice"), .step 0, .step 0,
    .arrive 1 (openRequest .deleteToken "bob"), .step 1, .step 0, .step 1, .step 0, .step 0,
    .answered 0 (.ok ⟨"access-2", "refresh-2", 9000, "https://provider.example/refresh"⟩),
    .unlock "flow-1", .step 0, .step 0]

def sharedAnswer : Response := ⟨200, .token "access-2" "https://provider.example/data"⟩

def sharedState : State :=
  (machine (demoLibrary demoToken demoKey) ⟨30000, 5000⟩ .disabled).final (fun _ _ _ =>
    true) sharedStart sharedRun

theorem refresh_undisturbed : ∃ ls' t, ls'.Sublist sharedRun ∧ (∀ l ∈ ls', l.Concerns "alice") ∧
    Machine.Path (machine (demoLibrary demoToken demoKey) ⟨30000, 5000⟩ .disabled) Machine.Any
      sharedStart ls' t ∧
    t.Answered 0 sharedAnswer := by
  have hpath :
      Machine.Path (machine (demoLibrary demoToken demoKey) ⟨30000, 5000⟩ .disabled)
        Machine.Any sharedStart
      sharedRun sharedState := by
    unfold sharedState
    exact Machine.path_final (fun _ _ _ _ => trivial) rfl
  have hanswered : sharedState.Answered 0 sharedAnswer := Or.inr ⟨_, List.mem_cons_self, rfl, rfl⟩
  obtain ⟨ls', t, hsublist, hconcerns, hrun, hsame, -⟩ :=
    requests_undisturbed ⟨30000, 5000⟩ .disabled
      ⟨rfl, rfl, rfl, rfl, rfl⟩ hpath "alice"
  exact ⟨ls', t, hsublist, hconcerns, hrun, (hsame 0 "flow-1" rfl sharedAnswer).mpr hanswered⟩

/-! ## Who is answered -/

/-- Only who may is answered: every answer without an error is to a request that presented a valid
token with the scope of the API, and the token is the participant's own or has the admin scope. -/
theorem answered_requests_authorized (hlib : lib.ChecksAsConfigured) (h : TokenApiHandler)
    (jwksUrl : String) (cacheTtl : UInt64) (audience requiredScope : String)
    (adminScope : Option String) {start s : State} {ls : List (Label lib)}
    (hinit : (machine lib h (.enabled jwksUrl cacheTtl audience requiredScope adminScope)).init
      start)
    (hpath : Machine.Path
      (machine lib h (.enabled jwksUrl cacheTtl audience requiredScope adminScope))
      Machine.Any start ls s)
    (c : ℕ) (answer : Response) (hanswer : s.Answered c answer) (hstatus : answer.status < 400) :
    ∃ request, .arrive c request ∈ ls ∧ s.routes.get c = some request.route ∧ ∃ payload,
      Presents lib request.now ⟨request.fetchJwks, audience, requiredScope,
        adminScope, .requireToken⟩
        request.authorization payload ∧ HasEntry payload.scope requiredScope ∧
      (payload.sub = request.route.participantContextId ∨
        ∃ admin, adminScope = some admin ∧ HasEntry payload.scope admin) := by
  have hinv :=
    hpath.preserves (P := Inv fun c route => ∃ request : Request lib, .arrive c request ∈ ls ∧
      request.route = route ∧
        request.Admitted (.enabled jwksUrl cacheTtl audience requiredScope adminScope))
    (Inv.of_init hinit) fun a l b hl hn _ ha => ha.step hn fun c request hlabel hadmitted =>
      ⟨request, hlabel ▸ hl, rfl, hadmitted⟩
  rcases hanswer with hrefused | ⟨ev, hev, rfl, -⟩
  · exact absurd (hinv.refused c answer hrefused).2 (by omega)
  · obtain ⟨route, hroute, request, harrive, rfl, hadmitted⟩ := hinv.events ev hev
    refine ⟨request, harrive, hroute, ?_⟩
    have hparam : request.route.params.get pathParamPcId =
        some request.route.participantContextId := by
      simp [Route.params, pathParamPcId]
    obtain ⟨injected, hcall⟩ := hadmitted
    have hinjected : injected = some (inject request.route.participantContextId) := by
      simp only [buildTokenApiAuthLayer, enabledHttpRequireToken, call, hparam] at hcall
      split at hcall
      · simp [AuthError.intoResponse] at hcall
      · exact (Outcome.inner.inj hcall).symm
    rw [hinjected] at hcall
    obtain ⟨-, hverified⟩ := call_inner_some.mp hcall
    obtain ⟨payload, hpresents, hscope, hsubject⟩ := (verifyJwt_eq_ok hlib).mp hverified
    exact ⟨payload, hpresents, hscope, hsubject _ rfl⟩

end Runs

/-! A participant that reads its token with a token for the API. -/

section OneRequest
variable (token : String)

def bearerRequest : Request (demoLibrary token demoKey) where
  handler := .getToken
  route := ⟨"pc1", "flow-1"⟩
  authorization := some ("Bearer " ++ token)
  now := 1700000000
  fetchJwks _ := .ok [⟨some "k1", some .edDSA, demoKey⟩]

def ownStart : State :=
  { sharedStart with client :=
      { sharedStart.client with
        tokens := HashMap.empty.insert ("pc1", "flow-1") ((sharedData "pc1").record 0)
        now := -9000 } }

theorem bearerRequest_admitted (htext : token.toList.all isHeaderText = true) :
    call (demoLibrary token demoKey) 1700000000 (.enabled (demoState token demoKey))
      (.ok (bearerRequest token).route.params) (some ("Bearer " ++ token)) =
        .inner (some (inject "pc1")) := by
  have hscope : HasEntry demoPayload.scope "siglet-token-api" :=
    ⟨_, rfl, Text.mem_words_iff.mp (by decide)⟩
  exact call_inner_some.mpr ⟨⟨_, rfl, rfl⟩, (verifyJwt_eq_ok demoLibrary_checks).mpr
    ⟨demoPayload, demo_presents htext, hscope, fun p hp => Or.inl (Option.some.inj hp)⟩⟩

def ownApi : TokenApiAuthConfig :=
  .enabled "https://idp.example/jwks" 300 "siglet" "siglet-token-api"
    (some "siglet-token-api:admin")

theorem exists_own_run (htext : token.toList.all isHeaderText = true) : ∃ s : State,
    Machine.Path (machine (demoLibrary token demoKey) ⟨30000, 5000⟩ ownApi) Machine.Any ownStart
      [.arrive 0 (bearerRequest token), .step 0, .step 0] s ∧
    s.Answered 0 ⟨200, .token "access-pc1" "https://provider.example/data"⟩ := by
  have harrive : arrive ownApi ownStart 0 (bearerRequest token) =
      { ownStart with
        routes := ownStart.routes.insert 0 ⟨"pc1", "flow-1"⟩
        client := ownStart.client.goto 0 "flow-1" .fetching } := by
    have hcall := bearerRequest_admitted token htext
    unfold arrive
    simp only [ownApi, buildTokenApiAuthLayer, enabledHttpRequireToken, bearerRequest] at hcall ⊢
    rw [show demoState token demoKey = ⟨fun _ => .ok [⟨some "k1", some .edDSA, demoKey⟩],
      "siglet", "siglet-token-api", some "siglet-token-api:admin", .requireToken⟩ from rfl] at hcall
    rw [hcall]
    rfl
  exact ⟨_, .cons (congrArg some harrive) trivial (.cons rfl trivial (.cons rfl trivial (.nil _))),
    Or.inr ⟨_, List.mem_cons_self, rfl, rfl⟩⟩

end OneRequest

theorem own_request_authorized :
    ∃ s : State, s.Answered 0 ⟨200, .token "access-pc1" "https://provider.example/data"⟩ ∧
    ∃ payload, Presents (demoLibrary demoToken demoKey) 1700000000 (demoState demoToken demoKey)
      (some ("Bearer " ++ demoToken)) payload ∧
    (payload.sub = "pc1" ∨ ∃ admin, some "siglet-token-api:admin" = some admin ∧
      HasEntry payload.scope admin) := by
  obtain ⟨s, hpath, hanswered⟩ := exists_own_run demoToken (by decide +kernel)
  obtain ⟨request, hmem, -, payload, hpresents, -, hsubject⟩ :=
    answered_requests_authorized demoLibrary_checks
      ⟨30000, 5000⟩ "https://idp.example/jwks" 300 "siglet"
      "siglet-token-api" (some "siglet-token-api:admin")
      ⟨rfl, rfl, rfl, rfl, rfl⟩ hpath 0 _ hanswered (by decide)
  obtain rfl : request = bearerRequest demoToken := by simpa using hmem
  exact ⟨s, hanswered, payload, hpresents, hsubject⟩

end Facet.Siglet.TokenApi
