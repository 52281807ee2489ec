import Facet.AuthMiddleware
import Facet.Machine

/-!
# The key sets that the middleware gets

`HttpKeyProvider`: the last key set is used until it is older than the cache lifetime, and a `kid`
that it lacks forces one request more. Calls interleave with each other and with what the endpoint
publishes. A request is two steps, the response of the endpoint and the write of it into the cache;
the instant noted there is that of the write, and a write of an older response may come last.
-/
namespace Facet.Server
namespace HttpKeyProvider

/-- A key set, with the instant at which the endpoint gave it out, which no code reads. -/
structure Served (P : Type) where
  jwkSet : List (Jwk P)
  servedAt : ℕ

structure CachedJwks (P : Type) where
  fetchedAt : ℕ
  jwkSet : Served P

/-- How a request goes: it fails, or there is a response, whose body may be malformed. -/
inductive Exchange
  | failed (error : String)
  | response (status : ℕ) (statusText : String) (malformed : Option String)

variable {P : Type}

/-- `HttpKeyProvider::fetch`, where the endpoint gives out `published`. -/
def fetch (published : Served P) : Exchange → Except AuthError (Served P)
  | .failed e => .error (.jwksFetch e)
  | .response status statusText malformed =>
    if 200 ≤ status ∧ status < 300 then
      match malformed with
      | some e => .error (.jwksFetch ("Failed to parse JWKS: " ++ e))
      | none => .ok published
    else .error (.jwksFetch ("JWKS endpoint returned status " ++ statusText))

/-- The cached set, while it is younger than the lifetime. -/
def lookup (ttl now : ℕ) (cache : Option (CachedJwks P)) : Option (Served P) :=
  (cache.filter fun cached => decide (now - cached.fetchedAt < ttl)).map CachedJwks.jwkSet

/-- A `fetch_jwks` call that is making a request; `forced` is the one for a `kid` that was
missing. -/
structure Request where
  kid : String
  began : ℕ
  requests : ℕ
  forced : Bool

inductive Call (P : Type)
  | fetching (request : Request)
  | writing (request : Request) (fresh : Served P)

structure Returned (P : Type) where
  kid : String
  began : ℕ
  requests : ℕ
  result : Except AuthError (Served P)

/-- The newest result comes first. -/
structure State (P : Type) where
  clock : ℕ
  published : List (Jwk P)
  cache : Option (CachedJwks P)
  calls : HashMap ℕ (Call P)
  returned : List (Returned P)

inductive Label (P : Type)
  | tick (elapsed : ℕ)
  | publish (keys : List (Jwk P))
  | fetchJwks (call : ℕ) (kid : String)
  | respond (call : ℕ) (exchange : Exchange)
  | write (call : ℕ)
  | abandon (call : ℕ)

def State.current (s : State P) : Served P := ⟨s.published, s.clock⟩

def State.enter (s : State P) (call : ℕ) (phase : Call P) : State P :=
  { s with calls := s.calls.insert call phase }

def State.record (s : State P) (r : Returned P) : State P := { s with returned := r :: s.returned }

def State.finish (s : State P) (call : ℕ) (r : Request)
    (result : Except AuthError (Served P)) : State P :=
  { s with calls := s.calls.remove call }.record ⟨r.kid, r.began, r.requests, result⟩

/-- The write of `force_refresh`. -/
def State.cached (s : State P) (fresh : Served P) : State P :=
  { s with cache := some ⟨s.clock, fresh⟩ }

/-- The key set has a key of that `kid`. -/
def has (jwkSet : List (Jwk P)) (kid : String) : Bool := (find jwkSet kid).isSome

def next (ttl : ℕ) (s : State P) : Label P → Option (State P)
  | .tick elapsed => some { s with clock := s.clock + elapsed }
  | .publish keys => some { s with published := keys }
  | .fetchJwks call kid =>
    match s.calls.get call with
    | some _ => none
    | none =>
      match lookup ttl s.clock s.cache with
      | some jwks =>
        if has jwks.jwkSet kid then some (s.record ⟨kid, s.clock, 0, .ok jwks⟩)
        else some (s.enter call (.fetching ⟨kid, s.clock, 1, true⟩))
      | none => some (s.enter call (.fetching ⟨kid, s.clock, 1, false⟩))
  | .respond call exchange =>
    match s.calls.get call with
    | some (.fetching r) =>
      match fetch s.current exchange with
      | .error e => some (s.finish call r (.error e))
      | .ok fresh => some (s.enter call (.writing r fresh))
    | _ => none
  | .write call =>
    match s.calls.get call with
    | some (.writing r fresh) =>
      -- `jwks` looks for the `kid` again in what it has just fetched
      if r.forced || has fresh.jwkSet r.kid then some ((s.cached fresh).finish call r (.ok fresh))
      else some
        ((s.cached fresh).enter call
          (.fetching { r with requests := r.requests + 1, forced := true }))
    | _ => none
  | .abandon call => some { s with calls := s.calls.remove call }

def machine (ttl : ℕ) : Machine (State P) (Label P) where
  init s := s.cache = none ∧ s.calls = HashMap.empty ∧ s.returned = []
  next := next ttl

/-- A response is in the cache at most `delay` after the endpoint gave it out. -/
def Prompt (delay : ℕ) (s : State P) (l : Label P) (_ : State P) : Prop :=
  ∀ call r fresh, l = .write call → s.calls.get call = some (.writing r fresh) →
    s.clock ≤ fresh.servedAt + delay

/-! ## What a step can do -/

/-- The set is cached, on its way into the cache, or was returned. -/
inductive State.Holds (s : State P) (served : Served P) : Prop
  | cached {fetchedAt : ℕ} (cache : s.cache = some ⟨fetchedAt, served⟩)
  | writing {call : ℕ} {r : Request} (phase : s.calls.get call = some (.writing r served))
  | returned {r : Returned P} (mem : r ∈ s.returned) (result : r.result = .ok served)

/-- Time passes, calls come and go, and one kind of step writes the cache. -/
inductive Effect (ttl : ℕ) (s : State P) : Label P → State P → Prop
  | ticked (elapsed : ℕ) : Effect ttl s (.tick elapsed) { s with clock := s.clock + elapsed }
  | published (keys : List (Jwk P)) : Effect ttl s (.publish keys) { s with published := keys }
  | hit {call : ℕ} {kid : String} {jwks : Served P} (fresh : lookup ttl s.clock s.cache = some jwks)
      (found : has jwks.jwkSet kid = true) :
    Effect ttl s (.fetchJwks call kid) (s.record ⟨kid, s.clock, 0, .ok jwks⟩)
  | missed {call : ℕ} {kid : String} (forced : Bool) :
    Effect ttl s (.fetchJwks call kid) (s.enter call (.fetching ⟨kid, s.clock, 1, forced⟩))
  | failed {call : ℕ} {exchange : Exchange} {r : Request} (message : String)
      (phase : s.calls.get call = some (.fetching r)) :
    Effect ttl s (.respond call exchange) (s.finish call r (.error (.jwksFetch message)))
  | responded {call : ℕ} {exchange : Exchange} {r : Request}
      (phase : s.calls.get call = some (.fetching r)) :
    Effect ttl s (.respond call exchange) (s.enter call (.writing r s.current))
  | returned {call : ℕ} {r : Request} {fresh : Served P}
      (phase : s.calls.get call = some (.writing r fresh)) :
    Effect ttl s (.write call) ((s.cached fresh).finish call r (.ok fresh))
  | repeated {call : ℕ} {r : Request} {fresh : Served P}
      (phase : s.calls.get call = some (.writing r fresh)) (first : r.forced = false) :
    Effect ttl s (.write call)
      ((s.cached fresh).enter call
        (.fetching { r with requests := r.requests + 1, forced := true }))
  | abandoned (call : ℕ) : Effect ttl s (.abandon call) { s with calls := s.calls.remove call }

theorem fetch_eq_ok {published fresh : Served P} {exchange : Exchange}
    (h : fetch published exchange = .ok fresh) : fresh = published := by
  cases exchange with
  | failed e => exact absurd h (by simp [fetch])
  | response status statusText malformed =>
    simp only [fetch] at h
    split_ifs at h
    cases malformed with
    | some e => exact absurd h (by simp)
    | none => exact (Except.ok.inj h).symm

theorem fetch_eq_error {published : Served P} {exchange : Exchange} {e : AuthError}
    (h : fetch published exchange = .error e) : ∃ message, e = .jwksFetch message := by
  cases exchange with
  | failed e => exact ⟨_, (Except.error.inj h).symm⟩
  | response status statusText malformed =>
    simp only [fetch] at h
    split_ifs at h
    · cases malformed with
      | some e => exact ⟨_, (Except.error.inj h).symm⟩
      | none => exact absurd h (by simp)
    · exact ⟨_, (Except.error.inj h).symm⟩

theorem lookup_eq_some {ttl now : ℕ} {cache : Option (CachedJwks P)} {jwks : Served P} :
    lookup ttl now cache = some jwks ↔ ∃ fetchedAt, cache = some ⟨fetchedAt, jwks⟩ ∧
      now - fetchedAt < ttl := by
  unfold lookup
  rw [Option.map_eq_some_iff]
  constructor
  · intro h
    obtain ⟨⟨fetchedAt, set⟩, hfilter, rfl⟩ := h
    obtain ⟨hcache, hage⟩ := Option.filter_eq_some_iff.mp hfilter
    exact ⟨fetchedAt, hcache, of_decide_eq_true hage⟩
  · intro h
    obtain ⟨fetchedAt, rfl, hage⟩ := h
    exact ⟨⟨fetchedAt, jwks⟩, Option.filter_eq_some_iff.mpr ⟨rfl, decide_eq_true hage⟩, rfl⟩

section Steps
variable {ttl delay : ℕ} {s t : State P} {l : Label P}

theorem effect_of_next (hn : next ttl s l = some t) : Effect ttl s l t := by
  cases l with
  | tick elapsed => exact Option.some.inj hn ▸ Effect.ticked elapsed
  | publish keys => exact Option.some.inj hn ▸ Effect.published keys
  | fetchJwks call kid =>
    simp only [next] at hn
    cases hcall : s.calls.get call with
    | some phase => simp [hcall] at hn
    | none =>
      cases hlookup : lookup ttl s.clock s.cache with
      | none =>
        simp only [hcall, hlookup, Option.some.injEq] at hn
        exact hn ▸ Effect.missed false
      | some jwks =>
        simp only [hcall, hlookup] at hn
        split_ifs at hn with hfound
        · exact Option.some.inj hn ▸ Effect.hit hlookup hfound
        · exact Option.some.inj hn ▸ Effect.missed true
  | respond call exchange =>
    simp only [next] at hn
    split at hn
    · rename_i r hcall
      cases hfetch : fetch s.current exchange with
      | error e =>
        obtain ⟨message, rfl⟩ := fetch_eq_error hfetch
        simp only [hfetch, Option.some.injEq] at hn
        exact hn ▸ Effect.failed message hcall
      | ok fresh =>
        obtain rfl := fetch_eq_ok hfetch
        simp only [hfetch, Option.some.injEq] at hn
        exact hn ▸ Effect.responded hcall
    · exact absurd hn (by simp)
  | write call =>
    simp only [next] at hn
    split at hn
    · rename_i r fresh hcall
      split_ifs at hn with hdone
      · exact Option.some.inj hn ▸ Effect.returned hcall
      · have hfirst : r.forced = false := by
          cases hforced : r.forced with
          | false => rfl
          | true => simp [hforced] at hdone
        exact Option.some.inj hn ▸ Effect.repeated hcall hfirst
    · exact absurd hn (by simp)
  | abandon call => exact Option.some.inj hn ▸ Effect.abandoned call

theorem State.Holds.of_enter_fetching {call : ℕ} {r : Request} {served : Served P}
    (h : (s.enter call (.fetching r)).Holds served) : s.Holds served := by
  cases h with
  | cached hcache => exact .cached hcache
  | @writing other r' hphase =>
    rcases HashMap.get_insert_eq_some hphase with ⟨-, hnone⟩ | ⟨-, hold⟩
    · exact absurd hnone (by simp)
    · exact .writing hold
  | returned hmem hresult => exact .returned hmem hresult

theorem State.Holds.of_finish {call : ℕ} {r : Request} {result : Except AuthError (Served P)}
    {served : Served P} (h : (s.finish call r result).Holds served) :
    s.Holds served ∨ result = .ok served := by
  cases h with
  | cached hcache => exact Or.inl (.cached hcache)
  | @writing other r' hphase => exact Or.inl (.writing (HashMap.get_remove_eq_some hphase).2)
  | returned hmem hresult =>
    rcases List.mem_cons.mp hmem with rfl | hmem
    · exact Or.inr hresult
    · exact Or.inl (.returned hmem hresult)

theorem State.Holds.of_cached {call : ℕ} {r : Request} {fresh served : Served P}
    (hphase : s.calls.get call = some (.writing r fresh)) (h : (s.cached fresh).Holds served) :
    s.Holds served := by
  cases h with
  | cached hcache =>
    obtain rfl := congrArg CachedJwks.jwkSet (Option.some.inj hcache)
    exact .writing hphase
  | writing hother => exact .writing hother
  | returned hmem hresult => exact .returned hmem hresult

theorem Effect.holds (he : Effect ttl s l t) {served : Served P} (h : t.Holds served) :
    s.Holds served ∨ served = s.current := by
  cases he with
  | ticked elapsed =>
    cases h with
    | cached hcache => exact Or.inl (.cached hcache)
    | writing hphase => exact Or.inl (.writing hphase)
    | returned hmem hresult => exact Or.inl (.returned hmem hresult)
  | published keys =>
    cases h with
    | cached hcache => exact Or.inl (.cached hcache)
    | writing hphase => exact Or.inl (.writing hphase)
    | returned hmem hresult => exact Or.inl (.returned hmem hresult)
  | hit hfresh hfound =>
    cases h with
    | cached hcache => exact Or.inl (.cached hcache)
    | writing hphase => exact Or.inl (.writing hphase)
    | returned hmem hresult =>
      rcases List.mem_cons.mp hmem with rfl | hmem
      · obtain ⟨fetchedAt, hcache, -⟩ := lookup_eq_some.mp hfresh
        obtain rfl := Except.ok.inj hresult
        exact Or.inl (.cached hcache)
      · exact Or.inl (.returned hmem hresult)
  | missed forced => exact Or.inl h.of_enter_fetching
  | failed message hphase =>
    rcases h.of_finish with hold | herror
    · exact Or.inl hold
    · exact absurd herror (by simp)
  | @responded call exchange r hphase =>
    cases h with
    | cached hcache => exact Or.inl (.cached hcache)
    | @writing other r' hwriting =>
      rcases HashMap.get_insert_eq_some hwriting with ⟨-, hnew⟩ | ⟨-, hold⟩
      · exact Or.inr (Call.writing.inj hnew).2
      · exact Or.inl (.writing hold)
    | returned hmem hresult => exact Or.inl (.returned hmem hresult)
  | returned hphase =>
    rcases h.of_finish with hold | hsame
    · exact Or.inl (hold.of_cached hphase)
    · obtain rfl := Except.ok.inj hsame
      exact Or.inl (.writing hphase)
  | repeated hphase hfirst => exact Or.inl (h.of_enter_fetching.of_cached hphase)
  | abandoned call =>
    cases h with
    | cached hcache => exact Or.inl (.cached hcache)
    | writing hphase => exact Or.inl (.writing (HashMap.get_remove_eq_some hphase).2)
    | returned hmem hresult => exact Or.inl (.returned hmem hresult)

end Steps

/-! ## What holds over a run -/

/-- One request at first, and one more when it is forced after the first. -/
def Request.Counted (r : Request) : Prop := 1 ≤ r.requests ∧ r.requests ≤ if r.forced then 2 else 1

/-- The set was given out after the call began, or it is cached, has the `kid`, and is not too
old. -/
inductive Returned.Recent (ttl delay : ℕ) (r : Returned P) (served : Served P) : Prop
  | fetched (after : r.began ≤ served.servedAt)
  | cached (found : has served.jwkSet r.kid = true) (age : r.began < served.servedAt + delay + ttl)

/-- Without a request there is an answer with the `kid`; an error is that of a request. -/
structure Returned.Sound (ttl delay : ℕ) (r : Returned P) : Prop where
  bounded : r.requests ≤ 2
  unasked : r.requests = 0 → ∃ served, r.result = .ok served ∧ has served.jwkSet r.kid = true
  failed : ∀ e, r.result = .error e → ∃ message, e = .jwksFetch message
  recent : ∀ served, r.result = .ok served → r.Recent ttl delay served

structure Inv (ttl delay : ℕ) (s : State P) : Prop where
  past : ∀ served, s.Holds served → served.servedAt ≤ s.clock
  cache : ∀ fetchedAt jwks, s.cache = some ⟨fetchedAt, jwks⟩ → fetchedAt ≤ jwks.servedAt + delay
  fetching : ∀ call r, s.calls.get call = some (.fetching r) → r.began ≤ s.clock ∧ r.Counted
  writing : ∀ call r fresh, s.calls.get call = some (.writing r fresh) →
    r.began ≤ fresh.servedAt ∧ r.Counted
  returned : ∀ r ∈ s.returned, r.Sound ttl delay

section Run
variable {ttl delay : ℕ} {s t : State P} {l : Label P}

theorem Effect.clock_le (he : Effect ttl s l t) : s.clock ≤ t.clock := by
  cases he with
  | ticked elapsed => exact Nat.le_add_right _ _
  | _ => exact le_rfl

theorem Inv.past_step (h : Inv ttl delay s) (he : Effect ttl s l t) (served : Served P)
    (hholds : t.Holds served) : served.servedAt ≤ t.clock := by
  have hclock := he.clock_le
  rcases he.holds hholds with hold | rfl
  · exact (h.past served hold).trans hclock
  · exact hclock

theorem Inv.cache_step (h : Inv ttl delay s) (he : Effect ttl s l t) (hprompt : Prompt delay s l t)
    (fetchedAt : ℕ) (jwks : Served P) (hcache : t.cache = some ⟨fetchedAt, jwks⟩) :
    fetchedAt ≤ jwks.servedAt + delay := by
  have hwritten : ∀ {call r fresh}, l = .write call → s.calls.get call = some (.writing r fresh) →
      some (⟨s.clock, fresh⟩ : CachedJwks P) = some ⟨fetchedAt, jwks⟩ →
        fetchedAt ≤ jwks.servedAt + delay := by
    intro call r fresh hl hphase hsame
    obtain ⟨rfl, rfl⟩ := CachedJwks.mk.inj (Option.some.inj hsame)
    exact hprompt call r fresh hl hphase
  cases he with
  | returned hphase => exact hwritten rfl hphase hcache
  | repeated hphase hfirst => exact hwritten rfl hphase hcache
  | _ => exact h.cache fetchedAt jwks hcache

theorem Inv.fetching_step (h : Inv ttl delay s) (he : Effect ttl s l t) (call : ℕ) (r : Request)
    (hcall : t.calls.get call = some (.fetching r)) : r.began ≤ t.clock ∧ r.Counted := by
  cases he with
  | ticked elapsed =>
    have hold := h.fetching call r hcall
    exact ⟨hold.1.trans (Nat.le_add_right _ _), hold.2⟩
  | missed forced =>
    rcases HashMap.get_insert_eq_some hcall with ⟨-, hnew⟩ | ⟨-, hold⟩
    · obtain rfl := Call.fetching.inj hnew
      refine ⟨le_rfl, le_rfl, ?_⟩
      cases forced with
      | false => exact le_rfl
      | true => exact Nat.le_succ 1
    · exact h.fetching call r hold
  | repeated hphase hfirst =>
    rcases HashMap.get_insert_eq_some hcall with ⟨-, hnew⟩ | ⟨-, hold⟩
    · obtain rfl := Call.fetching.inj hnew
      obtain ⟨hbegan, hcount⟩ := h.writing _ _ _ hphase
      refine ⟨hbegan.trans (h.past _ (.writing hphase)), Nat.le_add_left _ _, ?_⟩
      have hbound := hcount.2
      simp only [hfirst] at hbound
      exact Nat.succ_le_succ hbound
    · exact h.fetching call r hold
  | responded hphase =>
    rcases HashMap.get_insert_eq_some hcall with ⟨-, hnew⟩ | ⟨-, hold⟩
    · exact absurd hnew (by simp)
    · exact h.fetching call r hold
  | failed message hphase => exact h.fetching call r (HashMap.get_remove_eq_some hcall).2
  | returned hphase => exact h.fetching call r (HashMap.get_remove_eq_some hcall).2
  | abandoned call' => exact h.fetching call r (HashMap.get_remove_eq_some hcall).2
  | published keys => exact h.fetching call r hcall
  | hit hfresh hfound => exact h.fetching call r hcall

theorem Inv.writing_step (h : Inv ttl delay s) (he : Effect ttl s l t) (call : ℕ) (r : Request)
    (fresh : Served P) (hcall : t.calls.get call = some (.writing r fresh)) :
    r.began ≤ fresh.servedAt ∧ r.Counted := by
  cases he with
  | responded hphase =>
    rcases HashMap.get_insert_eq_some hcall with ⟨-, hnew⟩ | ⟨-, hold⟩
    · obtain ⟨rfl, rfl⟩ := Call.writing.inj hnew
      exact h.fetching _ _ hphase
    · exact h.writing call r fresh hold
  | missed forced =>
    rcases HashMap.get_insert_eq_some hcall with ⟨-, hnew⟩ | ⟨-, hold⟩
    · exact absurd hnew (by simp)
    · exact h.writing call r fresh hold
  | repeated hphase hfirst =>
    rcases HashMap.get_insert_eq_some hcall with ⟨-, hnew⟩ | ⟨-, hold⟩
    · exact absurd hnew (by simp)
    · exact h.writing call r fresh hold
  | failed message hphase => exact h.writing call r fresh (HashMap.get_remove_eq_some hcall).2
  | returned hphase => exact h.writing call r fresh (HashMap.get_remove_eq_some hcall).2
  | abandoned call' => exact h.writing call r fresh (HashMap.get_remove_eq_some hcall).2
  | ticked elapsed => exact h.writing call r fresh hcall
  | published keys => exact h.writing call r fresh hcall
  | hit hfresh hfound => exact h.writing call r fresh hcall

theorem Request.Counted.le_two {r : Request} (h : r.Counted) : 1 ≤ r.requests ∧ r.requests ≤ 2 := by
  obtain ⟨hlow, hhigh⟩ := h
  split_ifs at hhigh <;> omega

theorem Inv.returned_step (h : Inv ttl delay s) (he : Effect ttl s l t) :
    ∀ r ∈ t.returned, r.Sound ttl delay := by
  cases he with
  | @hit call kid jwks hfresh hfound =>
    intro r hr
    rcases List.mem_cons.mp hr with rfl | hold
    · refine ⟨Nat.zero_le _, fun _ => ⟨jwks, rfl, hfound⟩, fun e he => absurd he (by simp), ?_⟩
      intro served hserved
      obtain rfl := Except.ok.inj hserved
      obtain ⟨fetchedAt, hcache, hage⟩ := lookup_eq_some.mp hfresh
      have hwritten := h.cache fetchedAt jwks hcache
      refine .cached hfound ?_
      show s.clock < jwks.servedAt + delay + ttl
      omega
    · exact h.returned r hold
  | @failed call exchange request message hphase =>
    intro r hr
    rcases List.mem_cons.mp hr with rfl | hold
    · have hcount := (h.fetching _ _ hphase).2.le_two
      have hpos : request.requests ≠ 0 := by omega
      refine ⟨hcount.2, fun hzero => absurd hzero hpos, fun e he =>
        ⟨message, (Except.error.inj he).symm⟩, ?_⟩
      exact fun served hserved => absurd hserved (by simp)
    · exact h.returned r hold
  | @returned call request fresh hphase =>
    intro r hr
    rcases List.mem_cons.mp hr with rfl | hold
    · obtain ⟨hbegan, hcounted⟩ := h.writing _ _ _ hphase
      have hcount := hcounted.le_two
      have hpos : request.requests ≠ 0 := by omega
      refine ⟨hcount.2, fun hzero => absurd hzero hpos, fun e he => absurd he (by simp), ?_⟩
      intro served hserved
      obtain rfl := Except.ok.inj hserved
      exact .fetched hbegan
    · exact h.returned r hold
  | _ => exact h.returned

theorem Inv.step (h : Inv ttl delay s) (hn : next ttl s l = some t) (hprompt : Prompt delay s l t) :
    Inv ttl delay t where
  past := h.past_step (effect_of_next hn)
  cache := h.cache_step (effect_of_next hn) hprompt
  fetching := h.fetching_step (effect_of_next hn)
  writing := h.writing_step (effect_of_next hn)
  returned := h.returned_step (effect_of_next hn)

theorem Inv.of_init (h : (machine ttl).init s) : Inv ttl delay s := by
  obtain ⟨hcache, hcalls, hreturned⟩ := h
  refine ⟨?_, ?_, ?_, ?_, ?_⟩
  · intro served hholds
    cases hholds with
    | cached hold => simp [hcache] at hold
    | writing hold => simp [hcalls] at hold
    | returned hold => simp [hreturned] at hold
  · simp [hcache]
  · simp [hcalls]
  · simp [hcalls]
  · simp [hreturned]

theorem Inv.of_reach (h : (machine ttl).Reach (Prompt delay) s) : Inv ttl delay s :=
  h.invariant (fun _ => Inv.of_init) fun _ _ _ hinv hn hprompt => hinv.step hn hprompt

/-- What the endpoint gives out along a run has a property. -/
def Publishes (p : List (Jwk P) → Prop) (_ : State P) (l : Label P) (_ : State P) : Prop :=
  ∀ keys, l = .publish keys → p keys

theorem published_since {p : List (Jwk P) → Prop} {ls : List (Label P)} (hinv : Inv ttl delay s)
    (hpath : (machine ttl).Path (Publishes p) s ls t) (hp : p s.published) :
    ∀ served, t.Holds served → s.clock < served.servedAt → p served.jwkSet := by
  suffices hall : (s.clock ≤ t.clock ∧ p t.published) ∧
      ∀ served, t.Holds served → s.clock < served.servedAt → p served.jwkSet from hall.2
  refine hpath.invariant (P := fun u => (s.clock ≤ u.clock ∧ p u.published) ∧
    ∀ served, u.Holds served → s.clock < served.servedAt → p served.jwkSet) ⟨⟨le_rfl, hp⟩, ?_⟩ ?_
  · intro served hholds hlater
    exact absurd (hinv.past served hholds) (by omega)
  · intro a l b ha hn hok
    obtain ⟨⟨hclock, hpublished⟩, hsets⟩ := ha
    have he := effect_of_next hn
    refine ⟨⟨hclock.trans he.clock_le, ?_⟩, ?_⟩
    · cases he with
      | published keys => exact hok keys rfl
      | _ => exact hpublished
    · intro served hholds hlater
      rcases he.holds hholds with hold | rfl
      · exact hsets served hold hlater
      · exact hpublished

end Run

/-! ## Withdrawn and new keys -/

/-- The answer of the provider to one call, for the middleware. -/
def Returned.answer (r : Returned P) (_kid : String) : Except AuthError (List (Jwk P)) :=
  r.result.map Served.jwkSet

/-- The state of the middleware for a request whose call for a key set returned `r`. -/
def AuthState.withAnswer {lib : JsonWebToken} (state : AuthState lib)
    (r : Returned lib.KeyParameters) : AuthState lib :=
  { state with fetchJwks := r.answer }

/-- The bearer token of the request names the `kid` of the call. -/
def Asks (lib : JsonWebToken) (authorization : Option String)
    (r : Returned lib.KeyParameters) : Prop :=
  ∀ token header, extractBearer authorization = .ok token → lib.decodeHeader token = .ok header →
    header.kid = some r.kid

theorem has_of_verified {lib : JsonWebToken} {now : ℤ} {state : AuthState lib}
    {r : Returned lib.KeyParameters} {authorization expectedPcId : Option String}
    (hasks : Asks lib authorization r)
    (h : verifyJwt now (AuthState.withAnswer state r) authorization expectedPcId = .ok ()) :
    ∃ served, r.result = .ok served ∧ has served.jwkSet r.kid = true := by
  simp only [verifyJwt, bind_eq_ok, mapError_eq_ok, okOr_eq_ok] at h
  obtain ⟨token, htoken, header, hheader, kid, hkid, -, -, jwks, hjwks, jwk, hjwk, -⟩ := h
  obtain rfl : r.kid = kid := Option.some.inj ((hasks token header htoken hheader).symm.trans hkid)
  cases hresult : r.result with
  | error e => simp [AuthState.withAnswer, Returned.answer, hresult, Except.map] at hjwks
  | ok served =>
    refine ⟨served, rfl, ?_⟩
    obtain rfl : served.jwkSet = jwks := by
      simpa [AuthState.withAnswer, Returned.answer, hresult, Except.map] using hjwks
    exact Option.isSome_iff_exists.mpr ⟨jwk, hjwk⟩

theorem missing_of_kidNotInJwks {lib : JsonWebToken} {now : ℤ} {state : AuthState lib}
    {authorization expectedPcId : Option String} {kid : String}
    (h : verifyJwt now state authorization expectedPcId = .error (.kidNotInJwks kid)) :
    ∃ token header kid', extractBearer authorization = .ok token ∧
      lib.decodeHeader token = .ok header ∧
      header.kid = some kid' ∧ (state.fetchJwks kid' = .error (.kidNotInJwks kid) ∨
        ∃ jwks, state.fetchJwks kid' = .ok jwks ∧ find jwks kid' = none) := by
  have hbearer : extractBearer authorization ≠ .error (.kidNotInJwks kid) := by
    simp [extractBearer, bind_eq_error, okOr_eq_error, ensure_eq_error, pure, Except.pure]
  have hkeyAlg : ∀ jwkAlg alg, checkKeyAlg jwkAlg alg ≠ .error (.kidNotInJwks kid) := by
    intro jwkAlg alg
    cases jwkAlg <;> simp [checkKeyAlg, ensure_eq_error]
  have hsubject : ∀ claims, state.bindSubject claims expectedPcId ≠ .error (.kidNotInJwks kid) := by
    intro claims
    cases expectedPcId with
    | none => simp [AuthState.bindSubject]
    | some p =>
      unfold AuthState.bindSubject
      split_ifs <;> simp [ensure_eq_error]
  simp only [verifyJwt, bind_eq_error, mapError_eq_error, mapError_eq_ok, okOr_eq_error,
    okOr_eq_ok, ensure_eq_error, hbearer, hkeyAlg, hsubject, reduceCtorEq, and_false, exists_false,
    false_or, or_false] at h
  obtain ⟨token, htoken, header, hheader, kid', hkid, -, -, hjwks⟩ := h
  refine ⟨token, header, kid', htoken, hheader, hkid, ?_⟩
  rcases hjwks with herror | ⟨jwks, hjwks, hfind, -⟩
  · exact Or.inl herror
  · exact Or.inr ⟨jwks, hjwks, hfind⟩

theorem prompt_of_path {ttl : ℕ} {s t : State P} {ls : List (Label P)}
    (h : (machine ttl).Path Machine.Any s ls t) :
    s.clock ≤ t.clock ∧ (machine ttl).Path (Prompt t.clock) s ls t := by
  induction h with
  | nil s => exact ⟨le_rfl, .nil s⟩
  | cons hn _ _ ih =>
    have hclock := (effect_of_next hn).clock_le.trans ih.1
    exact ⟨hclock, .cons hn (fun _ _ fresh _ _ => hclock.trans (Nat.le_add_left _ _)) ih.2⟩

theorem Inv.of_path {ttl : ℕ} {s t : State P} {ls : List (Label P)}
    (hs : (machine ttl).Reach Machine.Any s) (hpath : (machine ttl).Path Machine.Any s ls t) :
    ∃ delay, Inv ttl delay s ∧ Inv ttl delay t := by
  obtain ⟨s₀, ms, hinit, hbefore⟩ := hs
  obtain ⟨hclock, hprompt⟩ := prompt_of_path hpath
  have hbefore' : (machine ttl).Path (Prompt t.clock) s₀ ms s :=
    (prompt_of_path hbefore).2.mono fun _ _ _ hlocal call r fresh hl hphase =>
      (hlocal call r fresh hl hphase).trans (Nat.add_le_add_left hclock _)
  exact ⟨t.clock, Inv.of_reach ⟨s₀, ms, hinit, hbefore'⟩,
    Inv.of_reach ⟨s₀, _, hinit, hbefore'.append hprompt⟩⟩

/-- A key that the endpoint has withdrawn is refused to every request whose call for the key set
begins later than the lifetime of the cache and the delay of a write after the withdrawal. -/
theorem withdrawn_key_refused (ttl delay : ℕ) (lib : JsonWebToken) {s t : State lib.KeyParameters}
    {ls : List (Label lib.KeyParameters)} {kid : String} (hs : (machine ttl).Reach (Prompt delay) s)
    (hgone : has s.published kid = false)
    (hpath : (machine ttl).Path
      (fun s l t => Prompt delay s l t ∧
        Publishes (fun keys => has keys kid = false) s l t) s ls t) :
    ∀ r ∈ t.returned, r.kid = kid → s.clock + delay + ttl < r.began →
      ∀ now (state : AuthState lib) authorization expectedPcId, Asks lib authorization r →
        verifyJwt now (AuthState.withAnswer state r) authorization expectedPcId ≠ .ok () := by
  intro r hr hkid hlate now state authorization expectedPcId hasks hverified
  obtain ⟨served, hresult, hhas⟩ := has_of_verified hasks hverified
  have hinv := Inv.of_reach (hs.extend (hpath.mono fun _ _ _ hok => hok.1))
  have hlater : s.clock < served.servedAt := by
    cases (hinv.returned r hr).recent served hresult with
    | fetched hafter => omega
    | cached hfound hage => omega
  have hgone' :=
    published_since (Inv.of_reach hs) (hpath.mono fun _ _ _ hok => hok.2) hgone served
      (.returned hr hresult) hlater
  rw [hkid, hgone'] at hhas
  exact absurd hhas (by simp)

/-- A key that the endpoint gives out is found by every call that begins after it does, with two
requests at most and whatever is cached, so no token is refused for its `kid`. -/
theorem published_key_found (ttl : ℕ) (lib : JsonWebToken) {s t : State lib.KeyParameters}
    {ls : List (Label lib.KeyParameters)} {kid : String} (hs : (machine ttl).Reach Machine.Any s)
    (hthere : has s.published kid = true)
    (hpath : (machine ttl).Path (Publishes fun keys => has keys kid = true) s ls t) :
    ∀ r ∈ t.returned, r.kid = kid → s.clock < r.began →
      r.requests ≤ 2 ∧ ((∃ message, r.result = .error (.jwksFetch message)) ∧ r.requests ≠ 0 ∨
        ∃ served, r.result = .ok served ∧ has served.jwkSet kid = true) ∧
      ∀ now (state : AuthState lib) authorization expectedPcId missing, Asks lib authorization r →
        verifyJwt now (AuthState.withAnswer state r) authorization expectedPcId ≠
          .error (.kidNotInJwks missing) := by
  intro r hr hkid hlate
  have hany : (machine ttl).Path Machine.Any s ls t := hpath.mono fun _ _ _ _ => trivial
  obtain ⟨delay, hbefore, hinv⟩ := Inv.of_path hs hany
  have hsound := hinv.returned r hr
  have hfound : ∀ served, r.result = .ok served → has served.jwkSet kid = true := by
    intro served hresult
    cases hsound.recent served hresult with
    | cached hfound hage => exact hkid ▸ hfound
    | fetched hafter =>
      exact published_since hbefore hpath hthere served (.returned hr hresult) (by omega)
  refine ⟨hsound.bounded, ?_, ?_⟩
  · cases hresult : r.result with
    | ok served => exact Or.inr ⟨served, rfl, hfound served hresult⟩
    | error e =>
      obtain ⟨message, rfl⟩ := hsound.failed e hresult
      refine Or.inl ⟨⟨message, rfl⟩, fun hzero => ?_⟩
      obtain ⟨served, hok, -⟩ := hsound.unasked hzero
      exact absurd (hresult.symm.trans hok) (by simp)
  · intro now state authorization expectedPcId missing hasks hrefused
    obtain ⟨token, header, kid', htoken, hheader, hkid', hmissing⟩ :=
      missing_of_kidNotInJwks hrefused
    obtain rfl : r.kid = kid' :=
      Option.some.inj ((hasks token header htoken hheader).symm.trans hkid')
    cases hresult : r.result with
    | error e =>
      obtain ⟨message, rfl⟩ := hsound.failed e hresult
      simp [AuthState.withAnswer, Returned.answer, hresult, Except.map] at hmissing
    | ok served =>
      have hhas := hfound served hresult
      simp only [AuthState.withAnswer, Returned.answer, hresult, Except.map,
        reduceCtorEq, Except.ok.injEq, exists_eq_left', false_or] at hmissing
      rw [← hkid, has, hmissing] at hhas
      exact absurd hhas (by simp)

/-! ### An endpoint that replaces its key -/

def promptCheck (delay : ℕ) (s : State P) (l : Label P) (_ : State P) : Bool :=
  match l with
  | .write call =>
    match s.calls.get call with
    | some (.writing _ fresh) => decide (s.clock ≤ fresh.servedAt + delay)
    | _ => true
  | _ => true

theorem prompt_of_check {delay : ℕ} (s : State P) (l : Label P) (t : State P)
    (h : promptCheck delay s l t = true) : Prompt delay s l t := by
  intro call r fresh hl hphase
  subst hl
  simpa [promptCheck, hphase] using h

/-- What is published has the `kid`, or has not, as `wanted` says. -/
def publishesCheck (kid : String) (wanted : Bool) (_ : State P) (l : Label P)
    (_ : State P) : Bool :=
  match l with
  | .publish keys => decide (has keys kid = wanted)
  | _ => true

theorem publishes_of_check {kid : String} {wanted : Bool} (s : State P) (l : Label P) (t : State P)
    (h : publishesCheck kid wanted s l t = true) :
    Publishes (fun keys => has keys kid = wanted) s l t := by
  intro keys hl
  subst hl
  exact of_decide_eq_true h

def arrived : Exchange := .response 200 "200 OK" none

def jwkOf (kid key : String) : Jwk String := ⟨some kid, some .edDSA, key⟩

def rotating : State String := ⟨0, [jwkOf "k0" "old"], none, HashMap.empty, []⟩

/-- The key `k0` is cached and then replaced. -/
def replaced : State String := (machine 300).final (promptCheck 2) rotating
  [.fetchJwks 0 "k0", .respond 0 arrived, .tick 1, .write 0, .tick 1, .publish [jwkOf "k1" demoKey]]

theorem replaced_reach : (machine 300).Reach (Prompt 2) replaced :=
  ⟨rotating, _, ⟨rfl, rfl, rfl⟩, Machine.path_final prompt_of_check (by decide +kernel)⟩

/-- A token with that key after the lifetime. -/
def askedForOld : List (Label String) :=
  [.tick 303, .fetchJwks 1 "k0", .respond 1 arrived, .write 1, .respond 1 arrived, .write 1]

/-- A token with the new key while the old one is cached. -/
def askedForNew : List (Label String) := [.tick 7, .fetchJwks 2 "k1", .respond 2 arrived, .write 2]

def refusedCall : Returned String := ⟨"k0", 305, 2, .ok ⟨[jwkOf "k1" demoKey], 305⟩⟩

def foundCall : Returned String := ⟨"k1", 9, 1, .ok ⟨[jwkOf "k1" demoKey], 9⟩⟩

/-- The token, signed with the withdrawn key. -/
def oldLibrary : JsonWebToken :=
  { demoLibrary demoToken "old" with decodeHeader := fun _ => .ok ⟨.edDSA, some "k0"⟩ }

theorem old_token_refused :
    verifyJwt 1700000000 (AuthState.withAnswer
      (⟨fun _ => .ok [], "siglet", "siglet-token-api", none, .requireToken⟩ : AuthState oldLibrary)
      refusedCall) (some ("Bearer " ++ demoToken)) (some "pc1") ≠ .ok () := by
  have hpath : (machine 300).Path
      (fun s l t => Prompt 2 s l t ∧ Publishes (fun keys => has keys "k0" = false) s l t)
      replaced askedForOld
        ((machine 300).final (fun s l t => promptCheck 2 s l t && publishesCheck "k0" false s l t)
          replaced askedForOld) := by
    refine Machine.path_final ?_ (by decide +kernel)
    intro s l t hcheck
    obtain ⟨hprompt, hpublishes⟩ := Bool.and_eq_true_iff.mp hcheck
    exact ⟨prompt_of_check s l t hprompt, publishes_of_check s l t hpublishes⟩
  have hclock : replaced.clock + 2 + 300 < refusedCall.began := by decide +kernel
  refine withdrawn_key_refused 300 2 oldLibrary replaced_reach rfl hpath refusedCall
    ?_ rfl hclock _ _ _ _ ?_
  · exact List.mem_cons_self
  · intro token header htoken hheader
    obtain rfl := Except.ok.inj hheader
    rfl

theorem new_token_found :
    foundCall.requests ≤ 2 ∧
      verifyJwt 1700000000 (AuthState.withAnswer (demoState demoToken demoKey) foundCall)
      (some ("Bearer " ++ demoToken)) (some "pc1") ≠ .error (.kidNotInJwks "k1") := by
  have hpath : (machine 300).Path (Publishes fun keys => has keys "k1" = true) replaced askedForNew
      ((machine 300).final (publishesCheck "k1" true) replaced askedForNew) :=
    Machine.path_final publishes_of_check (by decide +kernel)
  have hasks : Asks (demoLibrary demoToken demoKey) (some ("Bearer " ++ demoToken)) foundCall := by
    intro token header htoken hheader
    simp only [demoLibrary, demoDecodeHeader] at hheader
    split_ifs at hheader
    obtain rfl := Except.ok.inj hheader
    rfl
  have hfound :=
    published_key_found 300 (demoLibrary demoToken demoKey)
      (replaced_reach.mono fun _ _ _ _ => trivial) rfl
      hpath foundCall List.mem_cons_self rfl (by decide +kernel)
  exact ⟨hfound.1, hfound.2.2 1700000000 _ _ _ "k1" hasks⟩

end HttpKeyProvider
end Facet.Server
