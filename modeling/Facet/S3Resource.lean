import Facet.S3Action

/-!
# The resource authorised and the object addressed

The resource of an operation is the path of the request as the URL parser resolves it. The
object is found by a splitter of its own, which looks at the Host header first and trims
slashes. The two name the same object exactly for direct paths.
-/
namespace Facet.S3
open Text UrlSyntax

/-- `/bucket` or `/bucket/key`. -/
def ParsedS3Request.objectPath (parsed : ParsedS3Request) : List Char :=
  '/' :: parsed.bucket ++ if parsed.key = [] then [] else '/' :: parsed.key

/-- The resource is the object, up to a trailing slash behind a bucket. -/
def Denotes (resource : List Char) (parsed : ParsedS3Request) : Prop :=
  resource = parsed.objectPath ∨ parsed.key = [] ∧ resource = parsed.objectPath ++ ['/']

/-- The path spells the object: one leading slash, and no bucket in the Host header but one that
repeats the leading slashes. -/
def S3Proxy.Direct (proxy : S3Proxy) (host path : List Char) : Prop :=
  match proxy.hostBucket host with
  | none => ∃ c rest, path = '/' :: c :: rest ∧ c ≠ '/'
  | some bucket =>
    path = '/' :: bucket ++ '/' :: trimSlashes path ∨ trimSlashes path = [] ∧ path = '/' :: bucket

/-- The text names bucket and key. -/
def ParsedS3Request.Spelled (parsed : ParsedS3Request) (text : List Char) : Prop :=
  text = parsed.bucket ∧ parsed.key = [] ∨ text = parsed.bucket ++ '/' :: parsed.key

theorem denotes_iff (resource : List Char) (parsed : ParsedS3Request) :
    Denotes resource parsed ↔ ∃ text, resource = '/' :: text ∧ parsed.Spelled text := by
  unfold Denotes ParsedS3Request.objectPath ParsedS3Request.Spelled
  by_cases hkey : parsed.key = []
  · simp only [hkey, if_true, List.append_nil, true_and, and_true]
    constructor
    · rintro (rfl | rfl)
      · exact ⟨_, rfl, Or.inl rfl⟩
      · exact ⟨_, rfl, Or.inr rfl⟩
    · rintro ⟨text, rfl, rfl | rfl⟩
      · exact Or.inl rfl
      · exact Or.inr rfl
  · simp [hkey]

/-! ## Slashes -/

theorem mem_splitOn_trimSlashes {path s : List Char} (h : s ∈ path.splitOn '/') :
    s = [] ∨ s ∈ (trimSlashes path).splitOn '/' := by
  induction path with
  | nil => exact Or.inr h
  | cons c path ih =>
    by_cases hc : c = '/'
    · subst hc
      have htrim : trimSlashes ('/' :: path) = trimSlashes path := rfl
      rw [List.splitOn_cons_eq_if_modifyHead] at h
      rw [htrim]
      rcases List.mem_cons.mp h with h | h
      · exact Or.inl h
      · exact ih h
    · have htrim : trimSlashes (c :: path) = c :: path := by simp [trimSlashes, hc]
      rw [htrim]
      exact Or.inr h

theorem trimSlashes_cons {c : Char} (h : c ≠ '/') (rest : List Char) :
    trimSlashes (c :: rest) = c :: rest := by
  simp [trimSlashes, h]

theorem head_trimSlashes {path rest : List Char} {c : Char}
    (h : trimSlashes path = c :: rest) : c ≠ '/' := by
  have hhead := List.head?_dropWhile_not (fun c => c == '/') path
  unfold trimSlashes at h
  rw [h] at hhead
  simpa using hhead

theorem tryParsePathStyle_some {path : List Char} {parsed : ParsedS3Request}
    (h : tryParsePathStyle path = some parsed) :
    ∃ c rest, trimSlashes path = c :: rest ∧ c ≠ '/' ∧ '/' ∉ parsed.bucket ∧ parsed.bucket ≠ [] ∧
      parsed.Spelled (trimSlashes path) := by
  unfold tryParsePathStyle at h
  cases htrim : trimSlashes path with
  | nil => simp [htrim] at h
  | cons c rest =>
    have hc := head_trimSlashes htrim
    refine ⟨c, rest, rfl, hc, ?_⟩
    simp only [htrim, reduceCtorEq, if_false] at h
    cases hcut : cut '/' (c :: rest) with
    | none =>
      simp only [hcut, Option.some.injEq] at h
      rw [← h]
      exact ⟨cut_eq_none_iff.mp hcut, by simp, Or.inl ⟨rfl, rfl⟩⟩
    | some p =>
      obtain ⟨heq, hnot⟩ := cut_eq_some_iff.mp hcut
      simp only [hcut, Option.some.injEq] at h
      rw [← h]
      refine ⟨hnot, ?_, Or.inr heq⟩
      intro hnil
      have hnil' : p.1 = [] := hnil
      rw [hnil'] at heq
      exact hc (List.cons.inj heq).1

theorem hostBucket_ne_nil {proxy : S3Proxy} {host bucket : List Char}
    (h : proxy.hostBucket host = some bucket) : bucket ≠ [] := by
  obtain ⟨domain, -, hb⟩ := Option.bind_eq_some_iff.mp h
  unfold extractBucketFromHost at hb
  cases hs : stripSuffix ('.' :: domain) (host.takeWhile (· != ':')) with
  | none => simp [hs] at hb
  | some bucket' =>
    simp only [hs] at hb
    split_ifs at hb with hne
    rwa [← Option.some.inj hb]

/-- A bucket is never empty, and every segment of the path occurs in the object or is empty. -/
theorem parseIncomingRequest_ok {proxy : S3Proxy} {host path : List Char} {parsed : ParsedS3Request}
    (h : proxy.parseIncomingRequest host path = .ok parsed) :
    (∃ bucket, proxy.hostBucket host = some bucket ∧ parsed = ⟨bucket, trimSlashes path⟩) ∨
      proxy.hostBucket host = none ∧ tryParsePathStyle path = some parsed := by
  unfold S3Proxy.parseIncomingRequest at h
  cases hb : proxy.hostBucket host with
  | some bucket =>
    simp only [hb, Except.ok.injEq] at h
    exact Or.inl ⟨bucket, rfl, h.symm⟩
  | none =>
    simp only [hb] at h
    cases hp : tryParsePathStyle path with
    | none => simp [hp] at h
    | some parsed' =>
      simp only [hp, Except.ok.injEq] at h
      exact Or.inr ⟨rfl, by rw [h]⟩

section Segments
variable {proxy : S3Proxy} {host path : List Char} {parsed : ParsedS3Request}

theorem bucket_ne_nil (h : proxy.parseIncomingRequest host path = .ok parsed) :
    parsed.bucket ≠ [] := by
  rcases parseIncomingRequest_ok h with ⟨bucket, hb, rfl⟩ | ⟨-, hp⟩
  · exact hostBucket_ne_nil hb
  · obtain ⟨-, -, -, -, -, hne, -⟩ := tryParsePathStyle_some hp
    exact hne

theorem segment_of_spelled (h : proxy.parseIncomingRequest host path = .ok parsed)
    {text : List Char} (htext : parsed.Spelled text) {s : List Char} (hs : s ∈ path.splitOn '/') :
    s = [] ∨ s ∈ text.splitOn '/' := by
  have hspelled : ∀ {t : List Char}, parsed.Spelled t →
      t.splitOn '/' = parsed.bucket.splitOn '/' ∧ parsed.key = [] ∨
        t.splitOn '/' = parsed.bucket.splitOn '/' ++ parsed.key.splitOn '/' := by
    rintro t (⟨rfl, hkey⟩ | rfl)
    · exact Or.inl ⟨rfl, hkey⟩
    · exact Or.inr (List.splitOn_append_cons_self _ _)
  have hmem : s ∈ parsed.bucket.splitOn '/' ∨ s ∈ parsed.key.splitOn '/' →
      s = [] ∨ s ∈ text.splitOn '/' := by
    rcases hspelled htext with ⟨ht, hkey⟩ | ht
    · rw [ht, hkey]
      simp
      tauto
    · rw [ht, List.mem_append]
      exact Or.inr
  rcases mem_splitOn_trimSlashes hs with hs | hs
  · exact Or.inl hs
  · apply hmem
    rcases parseIncomingRequest_ok h with ⟨bucket, -, rfl⟩ | ⟨-, hp⟩
    · exact Or.inr hs
    · obtain ⟨-, -, -, -, -, -, htrim⟩ := tryParsePathStyle_some hp
      rcases hspelled htrim with ⟨ht, -⟩ | ht
      · exact Or.inl (ht ▸ hs)
      · exact List.mem_append.mp (ht ▸ hs)

end Segments

theorem Uri.path_eq_urlPath {uri : Uri} {rest : List Char} (h : uri.path = '/' :: rest) :
    uri.urlPath = uri.path := by
  cases uri with
  | relative target => rfl
  | absolute scheme host target => rfl
  | authority host => simp [Uri.path] at h
  | asterisk => simp [Uri.path] at h

theorem Uri.urlPath_cases (uri : Uri) : (∃ rest, uri.path = '/' :: rest) ∨ uri.urlPath = [] := by
  cases uri with
  | relative target => exact Or.inl ⟨_, rfl⟩
  | absolute scheme host target => exact Or.inl ⟨_, rfl⟩
  | authority host => exact Or.inr rfl
  | asterisk => exact Or.inr rfl

theorem direct_iff_spelled {proxy : S3Proxy} {host rest : List Char} {parsed : ParsedS3Request}
    (h : proxy.parseIncomingRequest host ('/' :: rest) = .ok parsed) :
    proxy.Direct host ('/' :: rest) ↔ parsed.Spelled rest := by
  unfold S3Proxy.Direct
  rcases parseIncomingRequest_ok h with ⟨bucket, hb, rfl⟩ | ⟨hb, hp⟩
  · simp only [hb, ParsedS3Request.Spelled, List.cons_append, List.cons.injEq, true_and]
    tauto
  · obtain ⟨c, rest', htrim, hc, hbucket, hne, hspelled⟩ := tryParsePathStyle_some hp
    have htrim' : trimSlashes ('/' :: rest) = trimSlashes rest := rfl
    simp only [hb, List.cons.injEq, true_and]
    constructor
    · rintro ⟨d, tail, rfl, hd⟩
      rwa [htrim', trimSlashes_cons hd] at hspelled
    · intro hrest
      obtain ⟨d, bucket, hd⟩ := List.exists_cons_of_ne_nil hne
      have hslash : d ≠ '/' := by
        rintro rfl
        exact hbucket (by simp [hd])
      rcases hrest with ⟨rfl, -⟩ | rfl
      · exact ⟨d, bucket, hd, hslash⟩
      · exact ⟨d, bucket ++ '/' :: parsed.key, by rw [hd]; rfl, hslash⟩

/-- The resource of an accepted request names the object sent upstream exactly when the URL parser
leaves the path as it is and the path is direct. -/
theorem denotes_iff_direct {U : UrlCrate} {proxy : S3Proxy} {session upstream : RequestHeader}
    {host : List Char} {parsed : ParsedS3Request} {scope : String} {operation : Operation}
    (hparser : proxy.operationParser = parseOperation U)
    (h : proxy.Served session upstream host parsed scope operation) :
    Denotes operation.resource parsed ↔ U.Fixed session.uri.path ∧
      proxy.Direct host session.uri.path := by
  have hop := h.operation_eq
  rw [hparser] at hop
  have hresource := (parseOperation_ok hop).2
  have hparsed := h.parsed_eq
  rcases session.uri.urlPath_cases with ⟨rest, hpath⟩ | hnone
  · rw [Uri.path_eq_urlPath hpath, hpath] at hresource
    rw [hpath] at hparsed ⊢
    rw [denotes_iff, direct_iff_spelled hparsed]
    constructor
    · rintro ⟨text, htext, hspelled⟩
      have hsegs : ∀ s ∈ rest.splitOn '/', s = [] ∨ s ∈ text.splitOn '/' := by
        intro s hs
        apply segment_of_spelled hparsed hspelled
        rw [List.splitOn_cons_eq_if_modifyHead]
        exact List.mem_cons_of_mem _ hs
      have hfixed := UrlParser.fixed_of_segments (hresource.symm.trans htext) hsegs
      rw [hfixed.resolve, htext, List.cons.injEq] at hresource
      exact ⟨hfixed, hresource.2 ▸ hspelled⟩
    · rintro ⟨hfixed, hspelled⟩
      exact ⟨rest, hresource.trans hfixed.resolve, hspelled⟩
  · have hempty : (U.resolve (segments [])).flatMap ('/' :: ·) = ['/'] :=
      UrlParser.Fixed.resolve ⟨[], rfl, by simp, fun s hs => by
        obtain rfl : s = [] := by simpa using hs
        exact ⟨fun c hc => absurd hc List.not_mem_nil, by decide⟩⟩
    rw [hnone, hempty] at hresource
    apply iff_of_false
    · rw [denotes_iff, hresource]
      rintro ⟨text, htext, hspelled⟩
      obtain rfl : text = [] := (List.cons.inj htext).2.symm
      rcases hspelled with ⟨hbucket, -⟩ | hbucket
      · exact bucket_ne_nil hparsed hbucket.symm
      · exact bucket_ne_nil hparsed (List.append_eq_nil_iff.mp hbucket.symm).1
    · rintro ⟨⟨rest, hpath, -⟩, -⟩
      rw [Uri.path_eq_urlPath hpath, hpath] at hnone
      exact absurd hnone (by simp)

/-! ## Consequences -/

theorem slashes_of_direct {proxy : S3Proxy} {host path bucket : List Char}
    (h : proxy.Direct host path) (hb : proxy.hostBucket host = some bucket) :
    ∀ c ∈ bucket, c = '/' := by
  have hsplit : path.takeWhile (· == '/') ++ trimSlashes path = path :=
    List.takeWhile_append_dropWhile
  have hslashes : ∀ c ∈ path.takeWhile (· == '/'), c = '/' := by
    intro c hc
    simpa using List.mem_takeWhile_imp hc
  simp only [S3Proxy.Direct, hb] at h
  intro c hc
  apply hslashes
  rcases h with h | ⟨hkey, h⟩
  · have hlead : path.takeWhile (· == '/') ++ trimSlashes path =
        ('/' :: bucket ++ ['/']) ++ trimSlashes path := by
      rw [hsplit, List.append_assoc]
      exact h
    rw [List.append_cancel_right hlead]
    simp [hc]
  · rw [hkey, List.append_nil] at hsplit
    rw [hsplit, h]
    exact List.mem_cons_of_mem _ hc

theorem spelled_unique {first second : ParsedS3Request} {text : List Char}
    (hfirst : '/' ∉ first.bucket) (hsecond : '/' ∉ second.bucket) (h : first.Spelled text)
    (h' : second.Spelled text) : first = second := by
  have hcut : ∀ parsed : ParsedS3Request, '/' ∉ parsed.bucket → parsed.Spelled text →
      parsed = ((cut '/' text).map fun split => ⟨split.1, split.2⟩).getD ⟨text, []⟩ := by
    rintro ⟨bucket, key⟩ hbucket (⟨rfl, rfl⟩ | rfl)
    · rw [cut_eq_none_iff.mpr hbucket]
      rfl
    · rw [cut_eq_some_iff.mpr ⟨rfl, hbucket⟩]
      rfl
  exact (hcut first hfirst h).trans (hcut second hsecond h').symm

/-- The resource that an accepted request is authorised on is the object it addresses exactly when
the path is direct and left as it is by the URL parser, which excludes every real bucket in the Host
header. Two such requests without a bucket in the Host header that share a resource address the same
object. -/
theorem resource_addressed (U : UrlCrate) (proxy : S3Proxy)
    (hparser : proxy.operationParser = parseOperation U) :
    (∀ session upstream peer, proxy.serve session = .ok (peer, upstream) →
      ∃ host parsed scope operation, proxy.Served session upstream host parsed scope operation ∧
        (Denotes operation.resource parsed ↔ U.Fixed session.uri.path ∧
          proxy.Direct host session.uri.path) ∧
        ∀ bucket, proxy.hostBucket host = some bucket → (∃ c ∈ bucket, c ≠ '/') →
          ¬ Denotes operation.resource parsed) ∧
    ∀ session upstream host parsed scope operation session' upstream' host'
      parsed' scope' operation', proxy.Served session upstream host parsed scope operation →
      proxy.Served session' upstream' host' parsed' scope' operation' →
      U.Fixed session.uri.path → proxy.Direct host session.uri.path → proxy.hostBucket host = none →
      U.Fixed session'.uri.path → proxy.Direct host' session'.uri.path →
      proxy.hostBucket host' = none →
      operation.resource = operation'.resource → parsed = parsed' := by
  constructor
  · intro session upstream peer h
    obtain ⟨host, parsed, scope, operation, hs⟩ := S3Proxy.serve_ok h
    have hiff := denotes_iff_direct hparser hs
    refine ⟨host, parsed, scope, operation, hs, hiff, fun bucket hb ⟨c, hc, hne⟩ hdenotes => ?_⟩
    exact hne (slashes_of_direct (hiff.mp hdenotes).2 hb c hc)
  · intro session upstream host parsed scope operation session' upstream' host' parsed' scope'
      operation' hs hs' hfixed
      hdirect hb hfixed' hdirect' hb' hresource
    have hpathStyle : ∀ {session upstream host parsed scope operation},
        proxy.Served session upstream host parsed scope operation → proxy.hostBucket host = none →
        '/' ∉ parsed.bucket := by
      intro session upstream host parsed scope operation hs hb
      rcases parseIncomingRequest_ok hs.parsed_eq with ⟨bucket, hb', -⟩ | ⟨-, hp⟩
      · rw [hb] at hb'
        exact absurd hb' (by simp)
      · obtain ⟨-, -, -, -, hbucket, -⟩ := tryParsePathStyle_some hp
        exact hbucket
    obtain ⟨text, htext, hspelled⟩ :=
      (denotes_iff _ _).mp ((denotes_iff_direct hparser hs).mpr ⟨hfixed, hdirect⟩)
    obtain ⟨text', htext', hspelled'⟩ :=
      (denotes_iff _ _).mp ((denotes_iff_direct hparser hs').mpr ⟨hfixed', hdirect'⟩)
    rw [htext, htext', List.cons.injEq] at hresource
    obtain rfl := hresource.2
    exact spelled_unique (hpathStyle hs hb) (hpathStyle hs' hb') hspelled hspelled'

/-! The proxy of the demo, addressed by path and by host. -/

theorem demoGet_direct : demoCrate.Fixed demoGet.uri.path ∧
    (demoProxy "s3:GetObject").Direct "proxy.local".toList demoGet.uri.path := by
  refine ⟨⟨"bucket/key".toList, rfl, by decide, fun s hs => ?_⟩,
    ⟨'b', "ucket/key".toList, rfl, by decide⟩⟩
  exact (UrlParser.literal_of_all (by decide) s hs).1

theorem resource_addressed_path_style :
    ∃ peer upstream host parsed scope operation,
      (demoProxy "s3:GetObject").serve demoGet = .ok (peer, upstream) ∧
      (demoProxy "s3:GetObject").Served demoGet upstream host parsed scope operation ∧
      Denotes operation.resource parsed ∧
      ∀ upstream' parsed' scope' operation',
        (demoProxy "s3:GetObject").Served demoGet upstream' "proxy.local".toList
          parsed' scope' operation' →
        operation.resource = operation'.resource → parsed = parsed' := by
  obtain ⟨⟨peer, upstream⟩, hserve⟩ : ∃ out, (demoProxy "s3:GetObject").serve demoGet = .ok out :=
    ⟨_, rfl⟩
  obtain ⟨hiff, hunique⟩ := resource_addressed demoCrate (demoProxy "s3:GetObject") rfl
  obtain ⟨host, parsed, scope, operation, hs, hdenotes, -⟩ := hiff demoGet upstream peer hserve
  obtain rfl : "proxy.local".toList = host := Option.some.inj hs.host_eq
  obtain ⟨hfixed, hdirect⟩ := demoGet_direct
  refine ⟨peer, upstream, _, parsed, scope, operation, hserve, hs,
    hdenotes.mpr ⟨hfixed, hdirect⟩, ?_⟩
  intro upstream' parsed' scope' operation' hs'
  exact hunique _ _ _ _ _ _ _ _ _ _ _ _ hs hs' hfixed hdirect rfl hfixed hdirect rfl

def demoVirtual : RequestHeader :=
  demoRequest "private.proxy.local".toList "bucket/key".toList demoTarget_clean

/-- By host the request for `/bucket/key` addresses the bucket `private`, and by path the bucket
`bucket`; both are authorised on the same resource. -/
theorem host_bucket_not_authorised :
    (¬ ∀ (U : UrlCrate) (proxy : S3Proxy) (session upstream : RequestHeader) (peer : HttpPeer)
      (host : List Char) (parsed : ParsedS3Request) (scope : String) (operation : Operation),
        proxy.operationParser = parseOperation U →
      proxy.serve session = .ok (peer, upstream) →
      proxy.Served session upstream host parsed scope operation →
      Denotes operation.resource parsed) ∧
    ¬ ∀ (U : UrlCrate) (proxy : S3Proxy) (session upstream session' upstream' : RequestHeader)
      (peer peer' : HttpPeer) (host host' : List Char) (parsed parsed' : ParsedS3Request)
      (scope scope' : String) (operation operation' : Operation),
        proxy.operationParser = parseOperation U →
      proxy.serve session = .ok (peer, upstream) → proxy.serve session' = .ok (peer', upstream') →
      proxy.Served session upstream host parsed scope operation →
      proxy.Served session' upstream' host' parsed' scope' operation' →
      operation.resource = operation'.resource → parsed = parsed' := by
  obtain ⟨⟨peer, upstream⟩, hvirtual⟩ : ∃ out,
      (demoProxy "s3:GetObject").serve demoVirtual = .ok out := ⟨_, rfl⟩
  obtain ⟨⟨peer', upstream'⟩, hpath⟩ : ∃ out, (demoProxy "s3:GetObject").serve demoGet = .ok out :=
    ⟨_, rfl⟩
  obtain ⟨host, parsed, scope, operation, hs⟩ := S3Proxy.serve_ok hvirtual
  obtain ⟨host', parsed', scope', operation', hs'⟩ := S3Proxy.serve_ok hpath
  obtain rfl : "private.proxy.local".toList = host := Option.some.inj hs.host_eq
  obtain rfl : "proxy.local".toList = host' := Option.some.inj hs'.host_eq
  obtain rfl : (⟨"private".toList, "bucket/key".toList⟩ : ParsedS3Request) = parsed :=
    Except.ok.inj hs.parsed_eq
  obtain rfl : (⟨"bucket".toList, "key".toList⟩ : ParsedS3Request) = parsed' :=
    Except.ok.inj hs'.parsed_eq
  have hop : parseOperation demoCrate scope demoVirtual = .ok operation := hs.operation_eq
  have hop' : parseOperation demoCrate scope' demoGet = .ok operation' := hs'.operation_eq
  have hresource : operation.resource = "/bucket/key".toList := (parseOperation_ok hop).2
  have hresource' : operation'.resource = "/bucket/key".toList := (parseOperation_ok hop').2
  constructor
  · intro h
    have hdenotes := h _ _ _ _ _ _ _ _ _ rfl hvirtual hs
    rw [hresource] at hdenotes
    rcases hdenotes with hd | ⟨hkey, -⟩
    · exact absurd hd (by decide)
    · exact absurd hkey (by decide)
  · intro h
    exact absurd (h _ _ _ _ _ _ _ _ _ _ _ _ _ _ _ _ rfl hvirtual hpath hs hs'
      (hresource.trans hresource'.symm)) (by decide)

end Facet.S3
