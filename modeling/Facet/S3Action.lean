import Facet.S3Proxy

/-!
# The action authorised and the action executed

The operation is read from the request as it came in, and the request is sent on with a URI
made of bucket and key alone. The two stand for the same action exactly when the query that
is left behind selects none.
-/
namespace Facet.S3
open Text UrlSyntax

/-! ## Parameters that select an action -/

/-- The query parameter decides the action of the method. -/
def Selects (method key : String) : Prop :=
  (queryAction method key).isSome = true ∨ method = "GET" ∧ key = "delete"

/-- The action selected by the query, if any. -/
def selected (method : String) (queryPairs : List (String × String)) : Option String :=
  match queryPairs.findSome? (fun pair => queryAction method pair.1) with
  | some action => some action
  | none =>
    if method = "GET" ∧ isBucketOperation queryPairs = true then some "s3:ListBucket" else none

theorem methodAction_true {method : String} (h : method ≠ "GET") :
    methodAction method true = methodAction method false := by
  unfold methodAction
  split <;> first | rfl | exact absurd rfl h

theorem parseAction_eq_getD (method : String) (queryPairs : List (String × String)) :
    parseAction method queryPairs (isBucketOperation queryPairs) =
      (selected method queryPairs).getD (methodAction method false) := by
  unfold parseAction selected
  cases queryPairs.findSome? (fun pair => queryAction method pair.1) with
  | some action => rfl
  | none =>
    cases hb : isBucketOperation queryPairs with
    | false => simp
    | true =>
      by_cases hm : method = "GET"
      · simp [hm, methodAction]
      · simp [hm, methodAction_true hm]

theorem queryAction_ne_methodAction {method key action : String}
    (h : queryAction method key = some action) : action ≠ methodAction method false := by
  unfold queryAction at h
  split at h <;> first | (rw [← Option.some.inj h]; decide) | exact absurd h (by simp)

/-- No query selects the action that the method has without one. -/
theorem selected_ne_methodAction {method action : String} {queryPairs : List (String × String)}
    (h : selected method queryPairs = some action) : action ≠ methodAction method false := by
  unfold selected at h
  cases hf : queryPairs.findSome? (fun pair => queryAction method pair.1) with
  | some found =>
    rw [hf, Option.some.injEq] at h
    obtain ⟨pair, -, hpair⟩ := List.exists_of_findSome?_eq_some hf
    exact queryAction_ne_methodAction (h ▸ hpair)
  | none =>
    rw [hf] at h
    by_cases hget : method = "GET" ∧ isBucketOperation queryPairs = true
    · simp only [hget, and_self, if_true, Option.some.injEq] at h
      rw [← h, hget.1]
      decide
    · simp [hget] at h

theorem parseAction_eq_iff (method : String) (queryPairs queryPairs' : List (String × String)) :
    parseAction method queryPairs (isBucketOperation queryPairs) =
        parseAction method queryPairs' (isBucketOperation queryPairs') ↔
      selected method queryPairs = selected method queryPairs' := by
  rw [parseAction_eq_getD, parseAction_eq_getD]
  constructor
  · intro h
    cases hs : selected method queryPairs with
    | none =>
      cases hs' : selected method queryPairs' with
      | none => rfl
      | some action' =>
        rw [hs, hs'] at h
        exact absurd h.symm (selected_ne_methodAction hs')
    | some action =>
      cases hs' : selected method queryPairs' with
      | none =>
        rw [hs, hs'] at h
        exact absurd h (selected_ne_methodAction hs)
      | some action' =>
        rw [hs, hs'] at h
        exact congrArg some h
  · intro h
    rw [h]

/-- A query selects nothing exactly when none of its parameters does. -/
theorem selected_eq_none_iff (method : String) (queryPairs : List (String × String)) :
    selected method queryPairs = none ↔ ∀ pair ∈ queryPairs, ¬ Selects method pair.1 := by
  have hselected : selected method queryPairs = none ↔
      (∀ pair ∈ queryPairs, queryAction method pair.1 = none) ∧
        ¬ (method = "GET" ∧ isBucketOperation queryPairs = true) := by
    rw [← List.findSome?_eq_none_iff, selected]
    cases queryPairs.findSome? (fun pair => queryAction method pair.1) with
    | some action => simp
    | none => simp
  rw [hselected]
  constructor
  · rintro ⟨hnone, hbucket⟩ pair hpair (hsome | ⟨hget, hdelete⟩)
    · rw [hnone pair hpair] at hsome
      exact absurd hsome (by simp)
    · refine hbucket ⟨hget, List.any_eq_true.mpr ⟨pair, hpair, ?_⟩⟩
      rw [hdelete]
      decide
  · intro h
    refine ⟨fun pair hpair => ?_, fun ⟨hget, hbucket⟩ => ?_⟩
    · have hnot := h pair hpair
      rw [Selects, not_or] at hnot
      simpa using hnot.1
    · obtain ⟨pair, hpair, hkey⟩ := List.any_eq_true.mp hbucket
      apply h pair hpair
      rw [Selects, hget]
      simp only [List.mem_cons, List.not_mem_nil, or_false, decide_eq_true_eq] at hkey
      rcases hkey with hkey | hkey | hkey | hkey | hkey <;> rw [hkey]
      · exact Or.inl rfl
      · exact Or.inl rfl
      · exact Or.inr ⟨rfl, rfl⟩
      · exact Or.inl rfl
      · exact Or.inl rfl

/-! ## The query that is carried upstream -/

namespace S3Proxy

/-- The query in the URI sent upstream: what follows a `?` in the bucket that the Host header
names. -/
def carriedQuery (proxy : S3Proxy) (host path : List Char) : Option (List Char) :=
  match proxy.upstreamStyle, proxy.hostBucket host with
  | .pathStyle, some bucket =>
    queryOf ((bucket ++ if trimSlashes path = [] then [] else '/' :: trimSlashes path).dropWhile
      (fun c => !endsPath c))
  | _, _ => none

variable {proxy : S3Proxy}

theorem not_mem_queryOf {text : List Char} (h : '?' ∉ text) :
    queryOf (text.dropWhile (fun c => !endsPath c)) = none := by
  cases hd : text.dropWhile (fun c => !endsPath c) with
  | nil => rfl
  | cons c rest =>
    have hmem : c ∈ text := by
      apply (List.dropWhile_suffix _).subset
      rw [hd]
      exact List.mem_cons_self
    have hne : c ≠ '?' := fun he => h (he ▸ hmem)
    unfold queryOf
    split
    · rename_i heq
      exact absurd (List.cons.inj heq).1 hne
    · rfl

theorem mem_hostBucket {host bucket : List Char} (h : proxy.hostBucket host = some bucket) :
    ∀ c ∈ bucket, c ∈ host := by
  obtain ⟨domain, -, hb⟩ := Option.bind_eq_some_iff.mp h
  intro c hc
  unfold extractBucketFromHost at hb
  cases hs : stripSuffix ('.' :: domain) (host.takeWhile (· != ':')) with
  | none => simp [hs] at hb
  | some bucket' =>
    simp only [hs] at hb
    split_ifs at hb with hne
    obtain rfl := Option.some.inj hb
    apply (List.takeWhile_prefix (fun c => c != ':')).subset
    rw [stripSuffix_eq_some_iff.mp hs]
    exact List.mem_append_left _ hc

theorem mem_trimSlashes {path : List Char} {c : Char} (h : c ∈ trimSlashes path) : c ∈ path :=
  (List.dropWhile_suffix _).subset h

theorem mem_tryParsePathStyle {path : List Char} {parsed : ParsedS3Request}
    (h : tryParsePathStyle path = some parsed) {c : Char}
    (hc : c ∈ parsed.bucket ∨ c ∈ parsed.key) : c ∈ path := by
  unfold tryParsePathStyle at h
  apply mem_trimSlashes
  by_cases hempty : trimSlashes path = []
  · simp [hempty] at h
  · simp only [hempty, if_false] at h
    cases hcut : cut '/' (trimSlashes path) with
    | none =>
      simp only [hcut, Option.some.injEq] at h
      rw [← h] at hc
      simpa using hc
    | some p =>
      simp only [hcut, Option.some.injEq] at h
      rw [(cut_eq_some_iff.mp hcut).1]
      rw [← h] at hc
      simp only [List.mem_append, List.mem_cons]
      tauto

/-- What follows the slash in the URI sent upstream. -/
def upstreamRest (proxy : S3Proxy) (parsed : ParsedS3Request) : List Char :=
  match proxy.upstreamStyle with
  | .pathStyle => parsed.bucket ++ if parsed.key = [] then [] else '/' :: parsed.key
  | .virtualHosted => parsed.key

theorem buildUpstreamUriAndHost_fst (parsed : ParsedS3Request) :
    (proxy.buildUpstreamUriAndHost parsed).1 = '/' :: proxy.upstreamRest parsed := by
  unfold buildUpstreamUriAndHost upstreamRest
  cases proxy.upstreamStyle with
  | pathStyle => by_cases hkey : parsed.key = [] <;> simp [hkey]
  | virtualHosted => rfl

theorem not_mem_path {uri : Uri} {c : Char} (h : c ∈ uri.path) : endsPath c = false := by
  cases uri with
  | relative target => exact (Uri.urlPath_clean (.relative target) c h).1
  | absolute scheme host target => exact (Uri.urlPath_clean (.absolute scheme host target) c h).1
  | authority host => exact absurd h List.not_mem_nil
  | asterisk =>
    rw [List.mem_singleton.mp h]
    decide

/-- The query sent upstream does not depend on the query that came in. -/
theorem Served.query_eq {session upstream : RequestHeader} {host : List Char}
    {parsed : ParsedS3Request} {scope : String} {operation : Operation}
    (h : proxy.Served session upstream host parsed scope operation) :
    ∃ target, upstream.uri = .relative target ∧
      target.query = proxy.carriedQuery host session.uri.path := by
  have huri := h.uri_eq
  rw [buildUpstreamUriAndHost_fst] at huri
  obtain ⟨target, htarget, -, hquery⟩ := parseUri_ok huri
  refine ⟨target, htarget, hquery.trans ?_⟩
  have hmark : '?' ∉ session.uri.path := fun hmem => absurd (not_mem_path hmem) (by decide)
  have hparsed := h.parsed_eq
  unfold parseIncomingRequest at hparsed
  unfold carriedQuery upstreamRest
  cases hbucket : proxy.hostBucket host with
  | some bucket =>
    simp only [hbucket, Except.ok.injEq] at hparsed
    rw [← hparsed]
    cases proxy.upstreamStyle with
    | pathStyle => rfl
    | virtualHosted => exact not_mem_queryOf fun hmem => hmark (mem_trimSlashes hmem)
  | none =>
    simp only [hbucket] at hparsed
    cases hpath : tryParsePathStyle session.uri.path with
    | none => simp [hpath] at hparsed
    | some parsed' =>
      simp only [hpath, Except.ok.injEq] at hparsed
      rw [← hparsed]
      cases proxy.upstreamStyle with
      | pathStyle =>
        apply not_mem_queryOf
        intro hmem
        apply hmark
        apply mem_tryParsePathStyle hpath
        by_cases hkey : parsed'.key = []
        · simp only [hkey, if_true, List.append_nil] at hmem
          exact Or.inl hmem
        · simpa [hkey] using hmem
      | virtualHosted =>
        exact not_mem_queryOf fun hmem => hmark (mem_tryParsePathStyle hpath (Or.inr hmem))

theorem carriedQuery_eq_none {host path : List Char} (hhost : '?' ∉ host) (hpath : '?' ∉ path) :
    proxy.carriedQuery host path = none := by
  unfold carriedQuery
  cases proxy.upstreamStyle with
  | virtualHosted => rfl
  | pathStyle =>
    cases hbucket : proxy.hostBucket host with
    | none => rfl
    | some bucket =>
      apply not_mem_queryOf
      intro hmem
      rcases List.mem_append.mp hmem with hmem | hmem
      · exact hhost (mem_hostBucket hbucket _ hmem)
      · split_ifs at hmem
        · exact absurd hmem List.not_mem_nil
        · rcases List.mem_cons.mp hmem with hmem | hmem
          · exact absurd hmem (by decide)
          · exact hpath (mem_trimSlashes hmem)

end S3Proxy

/-- An accepted request is executed as the action it was authorised for exactly when the query that
came in selects the same action as the query that is carried upstream; without a `?` in the Host
header, exactly when no parameter of the request selects an action. -/
theorem action_executed (U : UrlCrate) (proxy : S3Proxy)
    (hparser : proxy.operationParser = parseOperation U) (session upstream : RequestHeader)
    (peer : HttpPeer) (h : proxy.serve session = .ok (peer, upstream)) :
    ∃ host parsed scope authorised executed,
      proxy.Served session upstream host parsed scope authorised ∧
        parseOperation U scope session = .ok authorised ∧
        parseOperation U scope upstream = .ok executed ∧
      (authorised.action = executed.action ↔ selected session.method (U.pairs session.uri.query) =
        selected session.method (U.pairs (proxy.carriedQuery host session.uri.path))) ∧
      ('?' ∉ host → (authorised.action = executed.action ↔
        ∀ pair ∈ U.pairs session.uri.query, ¬ Selects session.method pair.1)) := by
  obtain ⟨host, parsed, scope, authorised, hs⟩ := S3Proxy.serve_ok h
  have hauthorised := hs.operation_eq
  rw [hparser] at hauthorised
  obtain ⟨target, htarget, hquery⟩ := hs.query_eq
  obtain ⟨executed, hexecuted⟩ := exists_parseOperation U scope htarget
  have hquery' : upstream.uri.query = proxy.carriedQuery host session.uri.path := by
    rw [htarget]
    exact hquery
  have hiff : authorised.action = executed.action ↔
      selected session.method (U.pairs session.uri.query) =
      selected session.method (U.pairs (proxy.carriedQuery host session.uri.path)) := by
    rw [(parseOperation_ok hauthorised).1, (parseOperation_ok hexecuted).1, hs.method_eq,
      hquery', parseAction_eq_iff]
  refine ⟨host, parsed, scope, authorised, executed, hs, hauthorised, hexecuted,
    hiff, fun hhost => ?_⟩
  have hmark : '?' ∉ session.uri.path := fun hmem => absurd (S3Proxy.not_mem_path hmem) (by decide)
  have hnone : selected session.method (U.pairs none) = none :=
    (selected_eq_none_iff session.method []).mpr fun _ hmem => absurd hmem List.not_mem_nil
  rw [hiff, S3Proxy.carriedQuery_eq_none hhost hmark, hnone, selected_eq_none_iff]

/-! A proxy before a service at `s3.local`, for a caller who holds one action on everything. -/

/-- Query pairs without percent-encoded characters. -/
def plainPairs (query : List Char) : List (String × String) :=
  ((query.splitOn '&').filter (fun part => !part.isEmpty)).map fun part =>
    match cut '=' part with
    | some (key, value) => (String.ofList key, String.ofList value)
    | none => (String.ofList part, "")

def demoCrate : UrlCrate where
  toUrlParser := whatwg
  queryPairs := plainPairs
  parseError _ := "invalid domain character"
  accepts_dummy := rfl

def demoClaims : TokenClaims where
  sub := "caller"
  aud := "anonymous"
  exp := 300
  custom := HashMap.empty.insert "scope" (.string "dataset-1")

def demoProxy (action : String) : S3Proxy where
  useTls := false
  participantContextResolver _ := .ok { id := "anonymous" }
  credentialResolver _ := .ok ⟨"AKIA", "secret", "us-east-1"⟩
  tokenVerifier _ _ := .ok demoClaims
  authEvaluator _ operation := .ok (operation.action = action)
  operationParser := parseOperation demoCrate
  upstreamEndpoint := "s3.local:9000".toList
  proxyDomain := some "proxy.local".toList
  http := ⟨fun _ => none, fun _ => none⟩
  sign _ _ := .ok [("authorization", "AWS4-HMAC-SHA256".toList)]

def demoRequest (host target : List Char) (h : target.all (fun c => !isControlOrSpace c) = true) :
    RequestHeader where
  method := "GET"
  uri := .relative (.ofText target h)
  headers := [("host", ⟨some host⟩), ("x-amz-security-token", ⟨some "token".toList⟩)]

theorem demoTarget_clean :
    "bucket/key".toList.all (fun c => !isControlOrSpace c) = true := by decide

def demoGet : RequestHeader := demoRequest "proxy.local".toList "bucket/key".toList demoTarget_clean

def demoGetAcl : RequestHeader :=
  demoRequest "proxy.local".toList "bucket/key?acl".toList (by decide)

theorem action_executed_plain_get :
    ∃ peer upstream scope authorised executed,
      (demoProxy "s3:GetObject").serve demoGet = .ok (peer, upstream) ∧
      parseOperation demoCrate scope demoGet = .ok authorised ∧
      parseOperation demoCrate scope upstream = .ok executed ∧
      authorised.action = executed.action := by
  obtain ⟨⟨peer, upstream⟩, hserve⟩ : ∃ out, (demoProxy "s3:GetObject").serve demoGet = .ok out :=
    ⟨_, rfl⟩
  obtain ⟨host, parsed, scope, authorised, executed, hs, hauthorised, hexecuted, -, hiff⟩ :=
    action_executed demoCrate (demoProxy "s3:GetObject") rfl demoGet upstream peer hserve
  obtain rfl : "proxy.local".toList = host := Option.some.inj hs.host_eq
  refine ⟨peer, upstream, scope, authorised, executed, hserve, hauthorised, hexecuted,
    (hiff (by decide)).mpr ?_⟩
  exact fun _ hmem => absurd hmem List.not_mem_nil

/-- `GET /bucket/key?acl` is authorised as `s3:GetObjectAcl` and sent on as `GET /bucket/key`. -/
theorem acl_read_becomes_object_read :
    ¬ ∀ (U : UrlCrate) (proxy : S3Proxy) (session upstream : RequestHeader) (peer : HttpPeer)
      (scope : String) (authorised executed : Operation), proxy.operationParser = parseOperation U →
      proxy.serve session = .ok (peer, upstream) → parseOperation U scope session = .ok authorised →
      parseOperation U scope upstream = .ok executed → authorised.action = executed.action := by
  intro h
  have hsame : "s3:GetObjectAcl" = "s3:GetObject" :=
    h demoCrate (demoProxy "s3:GetObjectAcl") demoGetAcl _ _ "dataset-1" _ _ rfl rfl rfl rfl
  exact absurd hsame (by decide)

end Facet.S3
