import Facet.Machine
import Facet.PostgresAuthorization
import Facet.S3Action

/-!
# The S3 proxy in front of a rule store

Requests in flight while rules are saved and removed. A request is cut up when its peer is
chosen and authorised when the request for the peer is made; what counts are the rules in
force at that second phase.
-/
namespace Facet.S3
open Auth

/-- An evaluator with the store of its rules. -/
structure AuthorizationEvaluator (E : RegexEngine) (σ : Type) where
  store : Service σ (RuleCall E) (RuleReply E)
  evaluate : σ → ParticipantContext → Auth.Operation → Except AuthorizationError Bool

def memoryEvaluator (E : RegexEngine) : AuthorizationEvaluator E (RuleMap E) where
  store := MemoryAuthorizationEvaluator E
  evaluate rules pc operation := .ok (Memory.evaluate rules pc operation)

def postgresEvaluator (E : RegexEngine) : AuthorizationEvaluator E RuleTable where
  store := PostgresAuthorizationEvaluator E
  evaluate := Postgres.evaluate E

/-- The operation as the rules see it. -/
def Operation.toRules (operation : Operation) : Auth.Operation :=
  ⟨operation.scope, operation.action, String.ofList operation.resource⟩

variable {E : RegexEngine} {σ : Type}

namespace S3Proxy
variable (proxy : S3Proxy)

/-- The proxy with an evaluator whose rules are in this state. -/
def deciding (A : AuthorizationEvaluator E σ) (rules : σ) : S3Proxy :=
  { proxy with
    authEvaluator := fun pc operation =>
      (A.evaluate rules pc operation.toRules).mapError AuthorizationError.toString }

/-- The proxy with `TrueAuthorizationEvaluator`. -/
def trusting : S3Proxy := { proxy with authEvaluator := fun _ _ => .ok true }

end S3Proxy

def unauthorizedOperation : ProxyError := clientError 403 "Unauthorized operation"

/-! ## Requests in flight -/

inductive Phase
  | accepted
  | connected (peer : HttpPeer) (ctx : S3ProxyContext)
  | forwarded (peer : HttpPeer) (upstream : RequestHeader)
  | refused (e : ProxyError)

structure Exchange where
  session : RequestHeader
  phase : Phase

namespace Gateway

structure State (σ : Type) where
  rules : σ
  exchanges : HashMap ℕ Exchange

inductive Label (E : RegexEngine)
  | rule (call : RuleCall E)
  | accept (c : ℕ) (session : RequestHeader)
  | upstreamPeer (c : ℕ)
  | upstreamRequestFilter (c : ℕ)

def Label.ruleCall : Label E → Option (RuleCall E)
  | .rule call => some call
  | _ => none

def ruleCalls (ls : List (Label E)) : List (RuleCall E) := ls.filterMap Label.ruleCall

/-- The phase after the peer was asked for. -/
def connect : Except ProxyError (HttpPeer × S3ProxyContext) → Phase
  | .ok (peer, ctx) => .connected peer ctx
  | .error e => .refused e

/-- The phase after the request for the peer was made. -/
def forward (peer : HttpPeer) : Except ProxyError RequestHeader → Phase
  | .ok upstream => .forwarded peer upstream
  | .error e => .refused e

variable (proxy : S3Proxy) (A : AuthorizationEvaluator E σ)

def next (s : State σ) : Label E → Option (State σ)
  | .rule call => some { s with rules := (A.store.step s.rules call).2 }
  | .accept c session =>
    match s.exchanges.get c with
    | none => some { s with exchanges := s.exchanges.insert c ⟨session, .accepted⟩ }
    | some _ => none
  | .upstreamPeer c =>
    match s.exchanges.get c with
    | some ⟨session, .accepted⟩ =>
      let phase := connect ((proxy.deciding A s.rules).upstreamPeer session S3Proxy.newCtx)
      some { s with exchanges := s.exchanges.insert c ⟨session, phase⟩ }
    | _ => none
  | .upstreamRequestFilter c =>
    match s.exchanges.get c with
    | some ⟨session, .connected peer ctx⟩ =>
      let phase :=
        forward peer ((proxy.deciding A s.rules).upstreamRequestFilter session session ctx)
      some { s with exchanges := s.exchanges.insert c ⟨session, phase⟩ }
    | _ => none

def machine : Machine (State σ) (Label E) where
  init s := s = ⟨A.store.init, HashMap.empty⟩
  next := next proxy A

/-! ## What a step does -/

inductive Step (s t : State σ) : Label E → Prop
  | rule (call : RuleCall E) (ht : t = ⟨(A.store.step s.rules call).2, s.exchanges⟩) :
      Step s t (.rule call)
  | accept (c : ℕ) (session : RequestHeader) (hget : s.exchanges.get c = none)
      (ht : t = ⟨s.rules, s.exchanges.insert c ⟨session, .accepted⟩⟩) : Step s t (.accept c session)
  | upstreamPeer (c : ℕ) (session : RequestHeader)
      (hget : s.exchanges.get c = some ⟨session, .accepted⟩)
      (ht : t =
        ⟨s.rules, s.exchanges.insert c
          ⟨session, connect (proxy.upstreamPeer session S3Proxy.newCtx)⟩⟩) :
      Step s t (.upstreamPeer c)
  | upstreamRequestFilter (c : ℕ) (session : RequestHeader) (peer : HttpPeer) (ctx : S3ProxyContext)
      (hget : s.exchanges.get c = some ⟨session, .connected peer ctx⟩)
      (ht : t = ⟨s.rules, s.exchanges.insert c ⟨session, forward peer
        ((proxy.deciding A s.rules).upstreamRequestFilter session session ctx)⟩⟩) :
          Step s t (.upstreamRequestFilter c)

variable {proxy A} {s t : State σ}

theorem next_iff {l : Label E} : next proxy A s l = some t ↔ Step proxy A s t l := by
  constructor
  · intro h
    cases l with
    | rule call => exact .rule call (Option.some.inj h).symm
    | accept c session =>
      cases hget : s.exchanges.get c with
      | some x => simp [next, hget] at h
      | none => exact .accept c session hget (by simpa [next, hget] using h.symm)
    | upstreamPeer c =>
      cases hget : s.exchanges.get c with
      | none => simp [next, hget] at h
      | some x =>
        obtain ⟨session, phase⟩ := x
        cases phase with
        | accepted =>
          simp only [next, hget, Option.some.injEq] at h
          exact .upstreamPeer c session hget h.symm
        | connected peer ctx => simp [next, hget] at h
        | forwarded peer upstream => simp [next, hget] at h
        | refused e => simp [next, hget] at h
    | upstreamRequestFilter c =>
      cases hget : s.exchanges.get c with
      | none => simp [next, hget] at h
      | some x =>
        obtain ⟨session, phase⟩ := x
        cases phase with
        | connected peer ctx =>
          exact .upstreamRequestFilter c session peer ctx hget (by simpa [next, hget] using h.symm)
        | accepted => simp [next, hget] at h
        | forwarded peer upstream => simp [next, hget] at h
        | refused e => simp [next, hget] at h
  · intro h
    cases h with
    | rule call ht => rw [ht]; rfl
    | accept c session hget ht => simp [next, hget, ht]
    | upstreamPeer c session hget ht => simp only [next, hget, ht]; rfl
    | upstreamRequestFilter c session peer ctx hget ht => simp [next, hget, ht]

/-! ## What the rules decide -/

/-- The rules in this state answer for a participant as a multiset of rules does. -/
def Answers (A : AuthorizationEvaluator E σ) (rules : σ) (pc : ParticipantContext)
    (granting : Multiset (Rule E)) : Prop :=
  ∀ operation, ∃ granted, A.evaluate rules pc operation = .ok granted ∧
    (granted = true ↔ Granted granting operation)

/-- The evaluator answers from the rules that the calls save and no later one drops. -/
def AnswersFrom (A : AuthorizationEvaluator E σ) (drops : RuleCall E → String → Rule E → Bool)
    (dom : RuleCall E → Prop) : Prop :=
  ∀ calls, (∀ call ∈ calls, dom call) →
    ∀ pc, Answers A (A.store.after A.store.init calls) pc (kept drops pc.id calls)

theorem memory_answersFrom : AnswersFrom (memoryEvaluator E) RuleCall.removes fun _ => True := by
  intro calls _ pc operation
  refine ⟨_, rfl, ?_⟩
  rw [← getRules_after calls pc]
  exact evaluate_iff (wellFormed_after E calls)

theorem postgres_answersFrom :
    AnswersFrom (postgresEvaluator E) RuleCall.replaces RuleCall.Storable := by
  intro calls hcalls pc operation
  obtain ⟨hloadable, hrules⟩ := loaded_after hcalls pc
  obtain ⟨granted, heval, hgranted⟩ := hloadable.evaluate_iff pc operation
  exact ⟨granted, heval, by rw [hgranted, hrules]⟩

/-- What a request asks for is granted by the rules of the participant that it is for. -/
def Allowed (proxy : S3Proxy) (rules : String → Multiset (Rule E)) (session : RequestHeader)
    (ctx : S3ProxyContext) : Prop :=
  ∃ operation, proxy.trusting.authorize session ctx = .ok operation ∧
    Granted (rules ctx.participantContext.id) operation.toRules

/-- The verdict comes after the other checks. -/
theorem authorize_deciding (rules : σ) (session : RequestHeader) (ctx : S3ProxyContext) :
    (proxy.deciding A rules).authorize session ctx = (do
      let operation ← proxy.trusting.authorize session ctx
      let isAuthorized ←
        ((proxy.deciding A rules).authEvaluator ctx.participantContext operation).mapError fun e =>
        internalError ("Authorization evaluation failed for participant " ++
          ctx.participantContext.id ++ ": " ++ e)
      if isAuthorized then .ok operation else .error unauthorizedOperation) := by
  simp only [S3Proxy.authorize, bind_assoc]
  rfl

section Filter
variable {rules : σ} {session : RequestHeader} {ctx : S3ProxyContext}
  (granting : String → Multiset (Rule E))

theorem authorize_of_operation
    (hanswers : Answers A rules ctx.participantContext (granting ctx.participantContext.id))
    {operation : Operation} (htrusting : proxy.trusting.authorize session ctx = .ok operation) :
    (proxy.deciding A rules).authorize session ctx = .ok operation ∧
      Allowed proxy granting session ctx ∨
      (proxy.deciding A rules).authorize session ctx = .error unauthorizedOperation ∧
        ¬ Allowed proxy granting session ctx := by
  obtain ⟨granted, heval, hgranted⟩ := hanswers operation.toRules
  rw [authorize_deciding, htrusting]
  cases granted with
  | true =>
    refine Or.inl ⟨?_, operation, htrusting, hgranted.mp rfl⟩
    simp [S3Proxy.deciding, heval, bind, Except.bind, Except.mapError]
  | false =>
    refine Or.inr ⟨?_, ?_⟩
    · simp [S3Proxy.deciding, heval, bind, Except.bind, Except.mapError]
    · rintro ⟨operation', htrusting', hgrants⟩
      obtain rfl : operation = operation' := Except.ok.inj (htrusting.symm.trans htrusting')
      exact absurd (hgranted.mpr hgrants) (by simp)

theorem allowed_of_authorize
    (hanswers : Answers A rules ctx.participantContext (granting ctx.participantContext.id))
    {operation : Operation} (h : (proxy.deciding A rules).authorize session ctx = .ok operation) :
    Allowed proxy granting session ctx := by
  have hchecks := h
  rw [authorize_deciding] at hchecks
  obtain ⟨operation', htrusting, -⟩ := bind_eq_ok.mp hchecks
  rcases authorize_of_operation granting hanswers htrusting with ⟨-, hallowed⟩ | ⟨hrefused, -⟩
  · exact hallowed
  · rw [h] at hrefused
    exact absurd hrefused (by simp)

theorem filter_of_allowed
    (hanswers : Answers A rules ctx.participantContext (granting ctx.participantContext.id))
    (hallowed : Allowed proxy granting session ctx) (upstream : RequestHeader) :
    (proxy.deciding A rules).upstreamRequestFilter session upstream ctx =
      proxy.trusting.upstreamRequestFilter session upstream ctx := by
  obtain ⟨operation, htrusting, -⟩ := id hallowed
  rcases authorize_of_operation granting hanswers htrusting with ⟨hauthorize, -⟩ | ⟨-, hnot⟩
  · unfold S3Proxy.upstreamRequestFilter
    rw [hauthorize, htrusting]
    rfl
  · exact absurd hallowed hnot

/-- A request that is not allowed is refused: as unauthorised, or by a check that all evaluators
have in common. -/
theorem filter_of_not_allowed
    (hanswers : Answers A rules ctx.participantContext (granting ctx.participantContext.id))
    (hnot : ¬ Allowed proxy granting session ctx) (upstream : RequestHeader) :
    ∃ e, (proxy.deciding A rules).upstreamRequestFilter session upstream ctx = .error e ∧
      (e = unauthorizedOperation ∨
        proxy.trusting.upstreamRequestFilter session upstream ctx = .error e) := by
  cases hfilter : (proxy.deciding A rules).upstreamRequestFilter session upstream ctx with
  | ok upstream' =>
    obtain ⟨parsed, -, h⟩ := bind_eq_ok.mp hfilter
    obtain ⟨rewritten, -, h⟩ := bind_eq_ok.mp h
    obtain ⟨operation, hauthorize, -⟩ := bind_eq_ok.mp h
    exact absurd (allowed_of_authorize granting hanswers hauthorize) hnot
  | error e =>
    refine ⟨e, rfl, ?_⟩
    rcases bind_eq_error.mp hfilter with hparsed | ⟨parsed, hparsed, h⟩
    · exact Or.inr (bind_eq_error.mpr (Or.inl hparsed))
    rcases bind_eq_error.mp h with hrewrite | ⟨rewritten, hrewrite, h⟩
    · exact Or.inr
        (bind_eq_error.mpr (Or.inr ⟨parsed, hparsed, bind_eq_error.mpr (Or.inl hrewrite)⟩))
    rcases bind_eq_error.mp h with hauthorize | ⟨operation, hauthorize, -⟩
    · cases htrusting : proxy.trusting.authorize session ctx with
      | error e' =>
        rw [authorize_deciding, htrusting] at hauthorize
        obtain rfl : e' = e := Except.error.inj hauthorize
        exact Or.inr (bind_eq_error.mpr (Or.inr ⟨parsed, hparsed,
          bind_eq_error.mpr (Or.inr ⟨rewritten, hrewrite, bind_eq_error.mpr (Or.inl htrusting)⟩)⟩))
      | ok operation =>
        rcases authorize_of_operation granting hanswers htrusting with ⟨-, hallowed⟩ | ⟨hrefused, -⟩
        · exact absurd hallowed hnot
        · rw [hrefused] at hauthorize
          exact Or.inl (Except.error.inj hauthorize).symm
    · exact absurd (allowed_of_authorize granting hanswers hauthorize) hnot

end Filter

/-! ## Runs -/

/-- Where a request has got to in a run: the rules that decided on it are those in force when its
filter ran. -/
inductive Handled (proxy : S3Proxy) (drops : RuleCall E → String → Rule E → Bool)
    (ls : List (Label E)) (c : ℕ) (session : RequestHeader) : Phase → Prop
  | accepted : Handled proxy drops ls c session .accepted
  | connected {peer : HttpPeer} {ctx : S3ProxyContext}
      (hpeer : proxy.upstreamPeer session S3Proxy.newCtx = .ok (peer, ctx)) :
      Handled proxy drops ls c session (.connected peer ctx)
  | forwarded {peer : HttpPeer} {ctx : S3ProxyContext} {upstream : RequestHeader}
      {before after : List (Label E)}
      (hpeer : proxy.upstreamPeer session S3Proxy.newCtx = .ok (peer, ctx))
      (hls : ls = before ++ .upstreamRequestFilter c :: after)
      (hfilter : proxy.trusting.upstreamRequestFilter session session ctx = .ok upstream)
      (hallowed : Allowed proxy (fun p => kept drops p (ruleCalls before)) session ctx) :
      Handled proxy drops ls c session (.forwarded peer upstream)
  | invalid {e : ProxyError} (hserve : proxy.trusting.serve session = .error e) :
      Handled proxy drops ls c session (.refused e)
  | unauthorized {peer : HttpPeer} {ctx : S3ProxyContext} {before after : List (Label E)}
      (hpeer : proxy.upstreamPeer session S3Proxy.newCtx = .ok (peer, ctx))
      (hls : ls = before ++ .upstreamRequestFilter c :: after)
      (hnot : ¬ Allowed proxy (fun p => kept drops p (ruleCalls before)) session ctx) :
      Handled proxy drops ls c session (.refused unauthorizedOperation)

section Runs
variable {drops : RuleCall E → String → Rule E → Bool} {dom : RuleCall E → Prop}
  {ls : List (Label E)} {c : ℕ} {session : RequestHeader} {phase : Phase}

theorem Handled.append (h : Handled proxy drops ls c session phase) (more : List (Label E)) :
    Handled proxy drops (ls ++ more) c session phase := by
  cases h with
  | accepted => exact .accepted
  | connected hpeer => exact .connected hpeer
  | forwarded hpeer hls hfilter hallowed =>
    exact .forwarded hpeer (by rw [hls, List.append_assoc]; rfl) hfilter hallowed
  | invalid hserve => exact .invalid hserve
  | unauthorized hpeer hls hnot =>
    exact .unauthorized hpeer (by rw [hls, List.append_assoc]; rfl) hnot

theorem ruleCalls_append (ls ms : List (Label E)) :
    ruleCalls (ls ++ ms) = ruleCalls ls ++ ruleCalls ms :=
  List.filterMap_append

/-- The rules are those that the calls of the run lead to, and every request is handled by them. -/
structure Inv (proxy : S3Proxy) (A : AuthorizationEvaluator E σ)
    (drops : RuleCall E → String → Rule E → Bool) (ls : List (Label E)) (s : State σ) : Prop where
  rules : s.rules = A.store.after A.store.init (ruleCalls ls)
  handled : ∀ c session phase, s.exchanges.get c = some ⟨session, phase⟩ →
    Handled proxy drops ls c session phase

theorem handled_filter {rules : σ} {peer : HttpPeer} {ctx : S3ProxyContext}
    (hanswers : Answers A rules ctx.participantContext
      (kept drops ctx.participantContext.id (ruleCalls ls)))
    (hpeer : proxy.upstreamPeer session S3Proxy.newCtx = .ok (peer, ctx)) :
    Handled proxy drops (ls ++ [.upstreamRequestFilter c]) c session
      (forward peer ((proxy.deciding A rules).upstreamRequestFilter session session ctx)) := by
  have hserve : ∀ e, proxy.trusting.upstreamRequestFilter session session ctx = .error e →
      proxy.trusting.serve session = .error e := by
    intro e he
    exact bind_eq_error.mpr (Or.inr ⟨(peer, ctx), hpeer, bind_eq_error.mpr (Or.inl he)⟩)
  by_cases hallowed : Allowed proxy (fun p => kept drops p (ruleCalls ls)) session ctx
  · rw [filter_of_allowed (fun p => kept drops p (ruleCalls ls)) hanswers hallowed]
    cases hfilter : proxy.trusting.upstreamRequestFilter session session ctx with
    | ok upstream => exact .forwarded hpeer rfl hfilter hallowed
    | error e => exact .invalid (hserve e hfilter)
  · obtain ⟨e, hfilter, he⟩ :=
      filter_of_not_allowed (fun p => kept drops p (ruleCalls ls)) hanswers hallowed session
    rw [hfilter]
    rcases he with rfl | htrusting
    · exact .unauthorized hpeer rfl hallowed
    · exact .invalid (hserve e htrusting)

theorem Inv.step (hA : AnswersFrom A drops dom) (h : Inv proxy A drops ls s)
    (hdom : ∀ call ∈ ruleCalls ls, dom call) {l : Label E} (hn : next proxy A s l = some t) :
    Inv proxy A drops (ls ++ [l]) t := by
  have hold : ∀ c session phase, s.exchanges.get c = some ⟨session, phase⟩ →
      Handled proxy drops (ls ++ [l]) c session phase :=
    fun c session phase hget => (h.handled c session phase hget).append [l]
  have hsame : l.ruleCall = none →
      A.store.after A.store.init (ruleCalls (ls ++ [l])) = s.rules := by
    intro hl
    rw [ruleCalls_append, h.rules]
    simp [ruleCalls, hl]
  have hinsert : ∀ {c : ℕ} {session : RequestHeader} {phase : Phase},
      Handled proxy drops (ls ++ [l]) c session phase →
      ∀ j session' phase', (s.exchanges.insert c ⟨session, phase⟩).get j = some ⟨session', phase'⟩ →
        Handled proxy drops (ls ++ [l]) j session' phase' := by
    intro c session phase hnew j session' phase' hget
    rcases HashMap.get_insert_eq_some hget with ⟨rfl, heq⟩ | ⟨-, hget⟩
    · obtain ⟨rfl, rfl⟩ := Exchange.mk.inj heq
      exact hnew
    · exact hold j session' phase' hget
  cases next_iff.mp hn with
  | rule call ht =>
    subst ht
    refine ⟨?_, hold⟩
    rw [ruleCalls_append, Service.after_append, ← h.rules]
    rfl
  | accept c session hget ht =>
    subst ht
    exact ⟨(hsame rfl).symm, hinsert .accepted⟩
  | upstreamPeer c session hget ht =>
    subst ht
    refine ⟨(hsame rfl).symm, hinsert ?_⟩
    cases hpeer : proxy.upstreamPeer session S3Proxy.newCtx with
    | ok result => exact .connected hpeer
    | error e => exact .invalid (bind_eq_error.mpr (Or.inl hpeer))
  | upstreamRequestFilter c session peer ctx hget ht =>
    subst ht
    refine ⟨(hsame rfl).symm, hinsert ?_⟩
    have hpeer : proxy.upstreamPeer session S3Proxy.newCtx = .ok (peer, ctx) := by
      cases h.handled c session _ hget with
      | connected hpeer => exact hpeer
    refine handled_filter ?_ hpeer
    rw [h.rules]
    exact hA (ruleCalls ls) hdom ctx.participantContext

theorem inv_of_path (hA : AnswersFrom A drops dom) {s₀ : State σ} {before ls : List (Label E)}
    (h : Machine.Path (machine proxy A) Machine.Any s₀ ls s) (h₀ : Inv proxy A drops before s₀)
    (hdom : ∀ call ∈ ruleCalls (before ++ ls), dom call) : Inv proxy A drops (before ++ ls) s := by
  induction h generalizing before with
  | nil s => simpa using h₀
  | @cons s t u l ls hn _ _ ih =>
    have hbefore : ∀ call ∈ ruleCalls before, dom call := by
      intro call hcall
      exact hdom call (by rw [ruleCalls_append]; exact List.mem_append_left _ hcall)
    have hsplit : before ++ l :: ls = before ++ [l] ++ ls := by simp
    rw [hsplit] at hdom ⊢
    exact ih (h₀.step hA hbefore hn) hdom

theorem inv_init : Inv proxy A drops [] ⟨A.store.init, HashMap.empty⟩ where
  rules := rfl
  handled c session phase hget := by simp at hget

/-- Whatever rules are saved and removed while requests are under way: a request goes upstream
exactly as a proxy that trusts everybody would send it, when at the time of its filter the rules of
its participant granted its operation, and else it is refused. Rules in memory go by `remove_rule`
and `remove_rules`, rows also by a save in their place. -/
theorem requests_follow_rules (proxy : S3Proxy) (ls : List (Label E)) :
    (∀ s, Machine.Path (machine proxy (memoryEvaluator E)) Machine.Any
        ⟨HashMap.empty, HashMap.empty⟩ ls s →
      ∀ c session phase, s.exchanges.get c = some ⟨session, phase⟩ →
        Handled proxy RuleCall.removes ls c session phase) ∧
    ∀ s, Machine.Path (machine proxy (postgresEvaluator E)) Machine.Any
        ⟨HashMap.empty, HashMap.empty⟩ ls s →
      (∀ call ∈ ruleCalls ls, call.Storable) →
      ∀ c session phase, s.exchanges.get c = some ⟨session, phase⟩ →
        Handled proxy RuleCall.replaces ls c session phase := by
  constructor
  · intro s h
    have hinv := inv_of_path memory_answersFrom h inv_init fun _ _ => trivial
    exact hinv.handled
  · intro s h hdom
    have hinv := inv_of_path postgres_answersFrom h inv_init hdom
    exact hinv.handled

end Runs

/-! Two participants with a bucket each, told apart by the path. -/

def tenantProxy : S3Proxy :=
  { demoProxy "" with
    participantContextResolver := fun path =>
      .ok { id := if "/bucket/".toList <+: path then "participant1" else "participant2" } }

def bucketRule : Rule plainPatterns :=
  ⟨"dataset-1", ["s3:GetObject"], "/bucket/", some "/bucket/".toList⟩

theorem bucketRule_storable : bucketRule.Storable := ⟨by rfl, by decide, by decide⟩

/-- The rule goes while the second of two requests is under way. -/
def removalRun : List (Label plainPatterns) :=
  [.rule (.saveRule demoParticipant bucketRule), .accept 0 demoGet, .accept 1 demoGet,
    .upstreamPeer 0, .upstreamPeer 1, .upstreamRequestFilter 0,
    .rule (.removeRule demoParticipant bucketRule), .upstreamRequestFilter 1]

def removalRows : State RuleTable :=
  (machine tenantProxy (postgresEvaluator plainPatterns)).final (fun _ _ _ => true)
    ⟨HashMap.empty, HashMap.empty⟩
    removalRun

theorem removed_rule_refuses :
    (∃ peer upstream, removalRows.exchanges.get 0 = some ⟨demoGet, .forwarded peer upstream⟩ ∧
      Handled tenantProxy RuleCall.replaces removalRun 0 demoGet (.forwarded peer upstream)) ∧
    removalRows.exchanges.get 1 = some ⟨demoGet, .refused unauthorizedOperation⟩ ∧
      Handled tenantProxy RuleCall.replaces removalRun 1 demoGet
        (.refused unauthorizedOperation) := by
  have hpath : Machine.Path (machine tenantProxy (postgresEvaluator plainPatterns)) Machine.Any
      ⟨HashMap.empty, HashMap.empty⟩ removalRun removalRows := by
    unfold removalRows
    exact Machine.path_final (fun _ _ _ _ => trivial) rfl
  have hstorable : ∀ call ∈ ruleCalls removalRun, call.Storable := by
    intro call hcall pc rule hsave
    subst hsave
    obtain ⟨-, rfl⟩ : pc = demoParticipant ∧ rule = bucketRule := by
      simpa [ruleCalls, removalRun, Label.ruleCall] using hcall
    exact bucketRule_storable
  have hhandled := (requests_follow_rules tenantProxy removalRun).2 removalRows hpath hstorable
  obtain ⟨peer, upstream, hfirst⟩ :
      ∃ peer upstream, removalRows.exchanges.get 0 = some ⟨demoGet, .forwarded peer upstream⟩ :=
        ⟨_, _, rfl⟩
  have hsecond : removalRows.exchanges.get 1 = some ⟨demoGet, .refused unauthorizedOperation⟩ := rfl
  exact ⟨⟨peer, upstream, hfirst, hhandled 0 demoGet _ hfirst⟩, hsecond,
    hhandled 1 demoGet _ hsecond⟩

/-! ## Participants apart -/

def ownCalls (p : String) (calls : List (RuleCall E)) : List (RuleCall E) :=
  calls.filter fun call => call.participant.id == p

/-- What the others save and remove has no part in what is decided for a participant. -/
def Isolates (A : AuthorizationEvaluator E σ) : Prop :=
  ∀ calls pc operation, A.evaluate (A.store.after A.store.init calls) pc operation =
    A.evaluate (A.store.after A.store.init (ownCalls pc.id calls)) pc operation

/-- The labels that a participant has a part in: its rules, and the requests that are its own. -/
def concerns (p : String) (own : ℕ → Bool) : Label E → Bool
  | .rule call => call.participant.id == p
  | .accept c _ | .upstreamPeer c | .upstreamRequestFilter c => own c

/-- The two states treat the requests of the participant alike, the second without the rules of the
others. -/
structure Alike (proxy : S3Proxy) (A : AuthorizationEvaluator E σ) (p : String) (own : ℕ → Bool)
    (calls : List (RuleCall E)) (s t : State σ) : Prop where
  rules : s.rules = A.store.after A.store.init calls
  ownRules : t.rules = A.store.after A.store.init (ownCalls p calls)
  exchanges : ∀ c, own c = true → t.exchanges.get c = s.exchanges.get c
  accepted : ∀ c session, own c = true → s.exchanges.get c = some ⟨session, .accepted⟩ →
    ∀ pc, proxy.participantContextResolver session.uri.path = .ok pc → pc.id = p
  connected : ∀ c session peer ctx, own c = true →
    s.exchanges.get c = some ⟨session, .connected peer ctx⟩ →
    ctx.participantContext.id = p

theorem filter_congr {rules rules' : σ} {session : RequestHeader} {ctx : S3ProxyContext}
    (h : ∀ operation,
      A.evaluate rules ctx.participantContext operation =
        A.evaluate rules' ctx.participantContext operation)
    (upstream : RequestHeader) :
    (proxy.deciding A rules).upstreamRequestFilter session upstream ctx =
      (proxy.deciding A rules').upstreamRequestFilter session upstream ctx := by
  have hauthorize : (proxy.deciding A rules).authorize session ctx =
      (proxy.deciding A rules').authorize session ctx := by
    rw [authorize_deciding, authorize_deciding]
    simp only [S3Proxy.deciding, h]
  unfold S3Proxy.upstreamRequestFilter
  rw [hauthorize]
  rfl

/-- The participant that a request is for is resolved when its peer is chosen. -/
theorem resolved_of_upstreamPeer {session : RequestHeader} {peer : HttpPeer} {ctx : S3ProxyContext}
    (h : proxy.upstreamPeer session S3Proxy.newCtx = .ok (peer, ctx)) :
    proxy.participantContextResolver session.uri.path = .ok ctx.participantContext := by
  obtain ⟨⟨host, path⟩, hcomponents, h⟩ := bind_eq_ok.mp h
  obtain ⟨context, hcontext, h⟩ := bind_eq_ok.mp h
  obtain ⟨parsed, -, h⟩ := bind_eq_ok.mp h
  obtain ⟨upstreamHost, -, h⟩ := bind_eq_ok.mp h
  obtain ⟨-, rfl⟩ := Prod.mk.inj (Except.ok.inj h)
  unfold S3Proxy.extractRequestComponents at hcomponents
  cases hhost : headerText session hostHeader with
  | none => simp [hhost] at hcomponents
  | some text =>
    obtain ⟨-, rfl⟩ : text = host ∧ session.uri.path = path := by simpa [hhost] using hcomponents
    exact hcontext

section Isolation
variable {p : String} {own : ℕ → Bool} {calls : List (RuleCall E)} {c : ℕ} {session : RequestHeader}
  {phase : Phase}

theorem Alike.insert_own (h : Alike proxy A p own calls s t) (hc : own c = true)
    (haccepted : phase = .accepted →
      ∀ pc, proxy.participantContextResolver session.uri.path = .ok pc → pc.id = p)
    (hconnected : ∀ peer ctx, phase = .connected peer ctx → ctx.participantContext.id = p) :
    Alike proxy A p own calls ⟨s.rules, s.exchanges.insert c ⟨session, phase⟩⟩
      ⟨t.rules, t.exchanges.insert c ⟨session, phase⟩⟩ where
  rules := h.rules
  ownRules := h.ownRules
  exchanges j hj := by
    rw [HashMap.get_insert, HashMap.get_insert, h.exchanges j hj]
  accepted j session' hj hget := by
    rcases HashMap.get_insert_eq_some hget with ⟨rfl, heq⟩ | ⟨-, hget⟩
    · obtain ⟨rfl, hphase⟩ := Exchange.mk.inj heq
      exact haccepted hphase.symm
    · exact h.accepted j session' hj hget
  connected j session' peer ctx hj hget := by
    rcases HashMap.get_insert_eq_some hget with ⟨rfl, heq⟩ | ⟨-, hget⟩
    · exact hconnected peer ctx (Exchange.mk.inj heq).2.symm
    · exact h.connected j session' peer ctx hj hget

theorem Alike.insert_other (h : Alike proxy A p own calls s t) (hc : own c = false) (x : Exchange) :
    Alike proxy A p own calls ⟨s.rules, s.exchanges.insert c x⟩ t := by
  have hget : ∀ j, own j = true → (s.exchanges.insert c x).get j = s.exchanges.get j := by
    intro j hj
    have hne : j ≠ c := by
      rintro rfl
      rw [hc] at hj
      exact absurd hj (by simp)
    rw [HashMap.get_insert, if_neg hne]
  exact {
    rules := h.rules
    ownRules := h.ownRules
    exchanges := fun j hj => (h.exchanges j hj).trans (hget j hj).symm
    accepted := fun j session hj hs => h.accepted j session hj (hget j hj ▸ hs)
    connected :=
      fun j session peer ctx hj hs => h.connected j session peer ctx hj (hget j hj ▸ hs) }

/-- Its own rules alone decide on the requests of a participant. -/
theorem Alike.filter_eq (hA : Isolates A) (h : Alike proxy A p own calls s t) {ctx : S3ProxyContext}
    (hctx : ctx.participantContext.id = p) (session : RequestHeader) :
    (proxy.deciding A t.rules).upstreamRequestFilter session session ctx =
      (proxy.deciding A s.rules).upstreamRequestFilter session session ctx := by
  refine filter_congr (fun operation => ?_) session
  rw [h.rules, h.ownRules, hA calls, hctx]

theorem path_own {l : Label E} {t' : State σ} (hl : concerns p own l = true)
    (hn : next proxy A t l = some t') :
    Machine.Path (machine proxy A) Machine.Any t ([l].filter (concerns p own)) t' := by
  rw [List.filter_cons_of_pos hl]
  exact .one hn trivial

theorem path_other {l : Label E} (hl : concerns p own l = false) :
    Machine.Path (machine proxy A) Machine.Any t ([l].filter (concerns p own)) t := by
  rw [List.filter_cons_of_neg (by simp [hl])]
  exact .nil t

/-- The second state follows a step of the first, or stays where the step is none of the
participant's. -/
def Follows (proxy : S3Proxy) (A : AuthorizationEvaluator E σ) (p : String) (own : ℕ → Bool)
    (calls : List (RuleCall E)) (l : Label E) (s' t : State σ) : Prop :=
  ∃ t', Machine.Path (machine proxy A) Machine.Any t ([l].filter (concerns p own)) t' ∧
    Alike proxy A p own calls s' t'

theorem Alike.rule (h : Alike proxy A p own calls s t) (call : RuleCall E) :
    Follows proxy A p own (calls ++ [call]) (.rule call)
      ⟨(A.store.step s.rules call).2, s.exchanges⟩ t := by
  have hrules : (A.store.step s.rules call).2 = A.store.after A.store.init (calls ++ [call]) := by
    rw [Service.after_append, ← h.rules]
    rfl
  by_cases hp : call.participant.id = p
  · have hsplit : ownCalls p (calls ++ [call]) = ownCalls p calls ++ [call] := by
      simp [ownCalls, hp]
    refine ⟨_, path_own (by simp [concerns, hp]) (next_iff.mpr (.rule call rfl)), hrules, ?_,
      h.exchanges, h.accepted, h.connected⟩
    rw [hsplit, Service.after_append, ← h.ownRules]
    rfl
  · have hsplit : ownCalls p (calls ++ [call]) = ownCalls p calls := by simp [ownCalls, hp]
    refine ⟨t, path_other (by simp [concerns, hp]), hrules, ?_, h.exchanges,
      h.accepted, h.connected⟩
    rw [hsplit, h.ownRules]

theorem Alike.accept (h : Alike proxy A p own calls s t) (hget : s.exchanges.get c = none)
    (haccept : own c = true → ∀ pc, proxy.participantContextResolver session.uri.path = .ok pc →
      pc.id = p) :
    Follows proxy A p own calls (.accept c session)
      ⟨s.rules, s.exchanges.insert c ⟨session, .accepted⟩⟩ t := by
  cases hc : own c with
  | true =>
    have hstep : Step proxy A t _ (.accept c session) :=
      .accept c session ((h.exchanges c hc).trans hget) rfl
    exact ⟨_, path_own hc (next_iff.mpr hstep), h.insert_own hc (fun _ => haccept hc) (by simp)⟩
  | false => exact ⟨t, path_other hc, h.insert_other hc _⟩

theorem Alike.upstreamPeer (h : Alike proxy A p own calls s t)
    (hget : s.exchanges.get c = some ⟨session, .accepted⟩) :
    Follows proxy A p own calls (.upstreamPeer c)
      ⟨s.rules, s.exchanges.insert c ⟨session, connect (proxy.upstreamPeer session S3Proxy.newCtx)⟩⟩
      t := by
  cases hc : own c with
  | true =>
    have hstep : Step proxy A t _ (.upstreamPeer c) :=
      .upstreamPeer c session ((h.exchanges c hc).trans hget) rfl
    refine ⟨_, path_own hc (next_iff.mpr hstep), h.insert_own hc ?_ ?_⟩
    · intro hphase
      cases hpeer : proxy.upstreamPeer session S3Proxy.newCtx <;> simp [hpeer, connect] at hphase
    · intro peer ctx hphase
      cases hpeer : proxy.upstreamPeer session S3Proxy.newCtx with
      | error e => simp [hpeer, connect] at hphase
      | ok result =>
        obtain ⟨rfl, rfl⟩ : result.1 = peer ∧ result.2 = ctx := by
          simpa [hpeer, connect] using hphase
        exact h.accepted c session hc hget _ (resolved_of_upstreamPeer hpeer)
  | false => exact ⟨t, path_other hc, h.insert_other hc _⟩

theorem Alike.upstreamRequestFilter (hA : Isolates A) (h : Alike proxy A p own calls s t)
    {peer : HttpPeer} {ctx : S3ProxyContext}
    (hget : s.exchanges.get c = some ⟨session, .connected peer ctx⟩) :
    Follows proxy A p own calls (.upstreamRequestFilter c)
      ⟨s.rules, s.exchanges.insert c ⟨session, forward peer
      ((proxy.deciding A s.rules).upstreamRequestFilter session session ctx)⟩⟩ t := by
  cases hc : own c with
  | true =>
    have hfilter := h.filter_eq hA (h.connected c session peer ctx hc hget) session
    have hstep : Step proxy A t _ (.upstreamRequestFilter c) :=
      .upstreamRequestFilter c session peer ctx ((h.exchanges c hc).trans hget) rfl
    refine ⟨_, path_own hc (next_iff.mpr hstep), ?_⟩
    rw [hfilter]
    refine h.insert_own hc ?_ ?_
    · intro hphase
      cases hout : (proxy.deciding A s.rules).upstreamRequestFilter session session ctx <;>
        simp [hout, forward] at hphase
    · intro peer' ctx' hphase
      cases hout : (proxy.deciding A s.rules).upstreamRequestFilter session session ctx <;>
        simp [hout, forward] at hphase
  | false => exact ⟨t, path_other hc, h.insert_other hc _⟩

theorem Alike.step (hA : Isolates A) (h : Alike proxy A p own calls s t) {l : Label E}
    {s' : State σ} (hn : next proxy A s l = some s')
    (haccept : ∀ c session, l = .accept c session → own c = true →
      ∀ pc, proxy.participantContextResolver session.uri.path = .ok pc → pc.id = p) :
    Follows proxy A p own (calls ++ ruleCalls [l]) l s' t := by
  cases next_iff.mp hn with
  | rule call ht => exact ht ▸ h.rule call
  | accept c session hget ht =>
    have hcalls : calls ++ ruleCalls [.accept c session] = calls := by
      simp [ruleCalls, Label.ruleCall]
    exact hcalls.symm ▸ ht ▸ h.accept hget (haccept c session rfl)
  | upstreamPeer c session hget ht =>
    have hcalls : calls ++ ruleCalls [.upstreamPeer c] = calls := by
      simp [ruleCalls, Label.ruleCall]
    exact hcalls.symm ▸ ht ▸ h.upstreamPeer hget
  | upstreamRequestFilter c session peer ctx hget ht =>
    have hcalls : calls ++ ruleCalls [.upstreamRequestFilter c] = calls := by
      simp [ruleCalls, Label.ruleCall]
    exact hcalls.symm ▸ ht ▸ h.upstreamRequestFilter hA hget

theorem Alike.path (hA : Isolates A) {ls : List (Label E)} {s' : State σ}
    (hpath : Machine.Path (machine proxy A) Machine.Any s ls s') (h : Alike proxy A p own calls s t)
    (hown : ∀ c session, .accept c session ∈ ls → own c = true →
      ∀ pc, proxy.participantContextResolver session.uri.path = .ok pc → pc.id = p) :
    ∃ t', Machine.Path (machine proxy A) Machine.Any t (ls.filter (concerns p own)) t' ∧
      ∀ c, own c = true → t'.exchanges.get c = s'.exchanges.get c := by
  induction hpath generalizing calls t with
  | nil s => exact ⟨t, .nil t, h.exchanges⟩
  | @cons s u s' l ls hn _ _ ih =>
    obtain ⟨t₁, hfirst, halike⟩ :=
      h.step hA hn fun c session hl => hown c session (hl ▸ List.mem_cons_self)
    obtain ⟨t', hrest, hagree⟩ :=
      ih halike fun c session hl => hown c session (List.mem_cons_of_mem l hl)
    refine ⟨t', ?_, hagree⟩
    rw [← List.singleton_append, List.filter_append]
    exact hfirst.append hrest

end Isolation

end Gateway
end Facet.S3
