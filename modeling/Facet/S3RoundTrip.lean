import Facet.S3Resource

/-!
# Parsing and rebuilding

Bucket and key are taken from one request and put into another. The round trip ends where it
began unless a bucket or the endpoint has a character that separates the parts of the new one:
a bucket from the Host header may have a slash, one from the path a colon.
-/
namespace Facet.S3
open Text

/-- The endpoint without its port. -/
def hostname (endpoint : List Char) : List Char :=
  match cutLast ':' endpoint with
  | some (hostname, _) => hostname
  | none => endpoint

namespace S3Proxy
variable (proxy : S3Proxy)

/-- What the rebuilt request says of the bucket and the key, and where it goes. -/
structure RoundTrip (host path : List Char) (parsed : ParsedS3Request) : Prop where
  object : match proxy.upstreamStyle with
    | .pathStyle => tryParsePathStyle (proxy.buildUpstreamUriAndHost parsed).1 = some parsed
    | .virtualHosted =>
      extractBucketFromHost (proxy.buildUpstreamUriAndHost parsed).2
        (hostname proxy.upstreamEndpoint) =
          some parsed.bucket ∧ (proxy.buildUpstreamUriAndHost parsed).1 = '/' :: parsed.key
  peer :
    proxy.buildUpstreamHost parsed = proxy.parseEndpoint (proxy.buildUpstreamUriAndHost parsed).2
  endpoint : ∀ name port, proxy.buildUpstreamHost parsed = .ok (name, port) →
    name = hostname proxy.upstreamEndpoint ∨ '.' :: hostname proxy.upstreamEndpoint <:+ name
  key : proxy.hostBucket host = none → (∃ rest, path = '/' :: rest) →
    '/' :: trimSlashes path = '/' :: parsed.bucket ++ '/' :: parsed.key ∨
      parsed.key = [] ∧ '/' :: trimSlashes path = '/' :: parsed.bucket

/-- No bucket of the Host header has a slash, where buckets go into the path; no bucket of the path
and no host of the endpoint has a colon, where buckets go into the Host header. -/
def Separable (host path : List Char) : Prop :=
  match proxy.upstreamStyle with
  | .pathStyle => ∀ domain bucket, proxy.proxyDomain = some domain →
      host.takeWhile (· != ':') = bucket ++ '.' :: domain → '/' ∉ bucket
  | .virtualHosted => ':' ∉ hostname proxy.upstreamEndpoint ∧
      ((∃ domain bucket, proxy.proxyDomain = some domain ∧ bucket ≠ [] ∧
        host.takeWhile (· != ':') = bucket ++ '.' :: domain) ∨
          ':' ∉ (trimSlashes path).takeWhile (· != '/'))

end S3Proxy

/-! ## The splitters on what was built -/

theorem extractBucketFromHost_eq_some {host domain bucket : List Char} :
    extractBucketFromHost host domain = some bucket ↔
      bucket ≠ [] ∧ host.takeWhile (· != ':') = bucket ++ '.' :: domain := by
  unfold extractBucketFromHost
  dsimp only
  cases hstrip : stripSuffix ('.' :: domain) (host.takeWhile (· != ':')) with
  | none =>
    refine iff_of_false (by simp) fun h => ?_
    rw [stripSuffix_eq_some_iff.mpr h.2] at hstrip
    exact absurd hstrip (by simp)
  | some found =>
    have hfound := stripSuffix_eq_some_iff.mp hstrip
    constructor
    · intro h
      dsimp only at h
      split_ifs at h with hne
      obtain rfl := Option.some.inj h
      exact ⟨hne, hfound⟩
    · rintro ⟨hne, hhost⟩
      obtain rfl : found = bucket := List.append_cancel_right (hfound.symm.trans hhost)
      exact if_pos hne

theorem takeWhile_append_of_not_mem {c : Char} {s rest : List Char} (hs : c ∉ s)
    (hrest : ∀ d ∈ rest.head?, d = c) : (s ++ rest).takeWhile (· != c) = s := by
  induction s with
  | nil =>
    cases rest with
    | nil => rfl
    | cons d rest => simp [hrest d rfl]
  | cons d s ih =>
    have hd : d ≠ c := fun heq => hs (heq ▸ List.mem_cons_self)
    have htail := ih fun hmem => hs (List.mem_cons_of_mem _ hmem)
    simpa [hd] using htail

theorem not_mem_takeWhile (c : Char) (s : List Char) : c ∉ s.takeWhile (· != c) := by
  intro hmem
  simpa using List.mem_takeWhile_imp hmem

theorem exists_hostname_append (endpoint : List Char) :
    ∃ rest, endpoint = hostname endpoint ++ rest ∧ (∀ d ∈ rest.head?, d = ':') ∧
      (∀ port, rest = ':' :: port → ':' ∉ port) ∧ (rest = [] → ':' ∉ endpoint) := by
  unfold hostname
  cases hcut : cutLast ':' endpoint with
  | none => exact ⟨[], by simp, by simp, by simp, fun _ => cutLast_eq_none_iff.mp hcut⟩
  | some p =>
    obtain ⟨heq, hport⟩ := cutLast_eq_some hcut
    exact ⟨':' :: p.2, heq, by simp, fun port hp => (List.cons.inj hp).2 ▸ hport, by simp⟩

/-- The bucket of a rebuilt Host header is found unless a colon stands before the port. -/
theorem extractBucketFromHost_rebuilt_iff {bucket : List Char} (hne : bucket ≠ [])
    (endpoint : List Char) :
    extractBucketFromHost (bucket ++ '.' :: endpoint) (hostname endpoint) = some bucket ↔
      ':' ∉ bucket ∧ ':' ∉ hostname endpoint := by
  rw [extractBucketFromHost_eq_some]
  constructor
  · intro h
    have hnot := not_mem_takeWhile ':' (bucket ++ '.' :: endpoint)
    rw [h.2, List.mem_append, not_or] at hnot
    exact ⟨hnot.1, fun hmem => hnot.2 (List.mem_cons_of_mem _ hmem)⟩
  · intro h
    obtain ⟨rest, hendpoint, hrest, -, -⟩ := exists_hostname_append endpoint
    refine ⟨hne, ?_⟩
    have hname : ':' ∉ bucket ++ '.' :: hostname endpoint := by simp [h.1, h.2]
    have htake := takeWhile_append_of_not_mem hname hrest
    rwa [List.append_assoc, List.cons_append, ← hendpoint] at htake

theorem tryParsePathStyle_rebuilt_iff {parsed : ParsedS3Request} (hne : parsed.bucket ≠ []) :
    tryParsePathStyle (if parsed.key = [] then '/' :: parsed.bucket
      else '/' :: parsed.bucket ++ '/' :: parsed.key) = some parsed ↔ '/' ∉ parsed.bucket := by
  constructor
  · intro h
    obtain ⟨-, -, -, -, hbucket, -⟩ := tryParsePathStyle_some h
    exact hbucket
  · intro hbucket
    obtain ⟨c, cs, hcs⟩ := List.exists_cons_of_ne_nil hne
    have hc : c ≠ '/' := fun heq => hbucket (by rw [hcs, heq]; exact List.mem_cons_self)
    split_ifs with hkey
    · have htrim : trimSlashes ('/' :: parsed.bucket) = parsed.bucket := by
        rw [hcs]
        exact trimSlashes_cons hc cs
      rw [tryParsePathStyle, htrim, if_neg hne, cut_eq_none_iff.mpr hbucket, ← hkey]
    · have htrim : trimSlashes ('/' :: parsed.bucket ++ '/' :: parsed.key) =
          parsed.bucket ++ '/' :: parsed.key := by
        rw [hcs]
        exact trimSlashes_cons hc _
      rw [tryParsePathStyle, htrim, if_neg (by simp), cut_eq_some_iff.mpr ⟨rfl, hbucket⟩]

/-! ## Ports -/

theorem isDigit_of_parseU16_go {n m : ℕ} {s : List Char} (h : parseU16.go n s = .ok m) :
    ∀ c ∈ s, c.isDigit = true := by
  induction s generalizing n with
  | nil => simp
  | cons c s ih =>
    rw [parseU16.go] at h
    split_ifs at h with hdigit
    dsimp only at h
    split_ifs at h
    intro d hd
    rcases List.mem_cons.mp hd with rfl | hd
    · exact hdigit
    · exact ih h d hd

theorem dot_not_mem_of_parseU16 {s : List Char} {port : ℕ}
    (h : parseU16 s = .ok port) : '.' ∉ s := by
  intro hdot
  have hnot : ¬ ('.' : Char).isDigit = true := by decide
  unfold parseU16 at h
  split at h
  · simp at h
  · simp at h
  · rcases List.mem_cons.mp hdot with heq | hdot
    · exact absurd heq (by decide)
    · exact hnot (isDigit_of_parseU16_go h _ hdot)
  · exact hnot (isDigit_of_parseU16_go h _ hdot)

namespace S3Proxy
variable {proxy : S3Proxy} {host path : List Char} {parsed : ParsedS3Request}

theorem hostBucket_eq_some {bucket : List Char} : proxy.hostBucket host = some bucket ↔
    ∃ domain, proxy.proxyDomain = some domain ∧ bucket ≠ [] ∧
      host.takeWhile (· != ':') = bucket ++ '.' :: domain := by
  rw [hostBucket, Option.bind_eq_some_iff]
  exact exists_congr fun domain => and_congr_right fun _ => extractBucketFromHost_eq_some

/-- The text after the last colon of a bucket holds a dot, so that it is no port. -/
theorem parseEndpoint_virtualHosted {bucket name : List Char} {port : ℕ}
    (h : proxy.parseEndpoint (bucket ++ '.' :: proxy.upstreamEndpoint) = .ok (name, port)) :
    name = bucket ++ '.' :: hostname proxy.upstreamEndpoint := by
  obtain ⟨rest, hendpoint, hrest, hport, hcolonless⟩ :=
    exists_hostname_append proxy.upstreamEndpoint
  unfold parseEndpoint at h
  cases rest with
  | cons d portText =>
    obtain rfl := hrest d rfl
    have hcut :=
      cutLast_append (bucket ++ '.' :: hostname proxy.upstreamEndpoint) (hport portText rfl)
    rw [List.append_assoc, List.cons_append, ← hendpoint] at hcut
    rw [hcut] at h
    cases hparse : parseU16 portText with
    | error e => simp [hparse] at h
    | ok number =>
      simp only [hparse, Except.ok.injEq, Prod.mk.injEq] at h
      exact h.1.symm
  | nil =>
    rw [List.append_nil] at hendpoint
    have hcolon : ':' ∉ '.' :: proxy.upstreamEndpoint := by simpa using hcolonless rfl
    cases hcut : cutLast ':' (bucket ++ '.' :: proxy.upstreamEndpoint) with
    | none =>
      simp only [hcut, Except.ok.injEq, Prod.mk.injEq] at h
      rw [← hendpoint, h.1]
    | some p =>
      obtain ⟨heq, -⟩ := cutLast_eq_some hcut
      have hdot : '.' ∈ p.2 := by
        rcases List.append_eq_append_iff.mp heq with ⟨middle, -, hright⟩ | ⟨middle, hleft, hright⟩
        · exact absurd (hright ▸ List.mem_append_right _ List.mem_cons_self) hcolon
        · cases middle with
          | nil => exact absurd (List.cons.inj hright).1 (by decide)
          | cons c middle =>
            rw [List.cons_append] at hright
            rw [(List.cons.inj hright).2]
            exact List.mem_append_right _ List.mem_cons_self
      cases hparse : parseU16 p.2 with
      | error e => simp [hcut, hparse] at h
      | ok number => exact absurd hdot (dot_not_mem_of_parseU16 hparse)

theorem name_of_buildUpstreamHost {name : List Char} {port : ℕ}
    (h : proxy.buildUpstreamHost parsed = .ok (name, port)) :
    name = hostname proxy.upstreamEndpoint ∨ '.' :: hostname proxy.upstreamEndpoint <:+ name := by
  unfold buildUpstreamHost at h
  cases hstyle : proxy.upstreamStyle with
  | pathStyle =>
    simp only [hstyle, parseEndpoint] at h
    left
    unfold hostname
    cases hcut : cutLast ':' proxy.upstreamEndpoint with
    | none =>
      simp only [hcut, Except.ok.injEq, Prod.mk.injEq] at h
      exact h.1.symm
    | some p =>
      cases hparse : parseU16 p.2 with
      | error e => simp [hcut, hparse] at h
      | ok number =>
        simp only [hcut, hparse, Except.ok.injEq, Prod.mk.injEq] at h
        exact h.1.symm
  | virtualHosted =>
    simp only [hstyle] at h
    right
    rw [parseEndpoint_virtualHosted h]
    exact List.suffix_append _ _

theorem bucket_of_tryParsePathStyle (h : tryParsePathStyle path = some parsed) :
    parsed.bucket = (trimSlashes path).takeWhile (· != '/') := by
  obtain ⟨-, -, -, -, hbucket, -, hspelled⟩ := tryParsePathStyle_some h
  rcases hspelled with ⟨htrim, -⟩ | htrim
  · have htake : (parsed.bucket ++ []).takeWhile (· != '/') = parsed.bucket :=
      takeWhile_append_of_not_mem hbucket (by simp)
    rw [htrim]
    rwa [List.append_nil, eq_comm] at htake
  · rw [htrim, takeWhile_append_of_not_mem hbucket (by simp)]

theorem separable_pathStyle (hstyle : proxy.upstreamStyle = .pathStyle)
    (h : proxy.parseIncomingRequest host path = .ok parsed) : proxy.Separable host path ↔
      '/' ∉ parsed.bucket := by
  simp only [Separable, hstyle]
  rcases parseIncomingRequest_ok h with ⟨bucket, hb, rfl⟩ | ⟨hb, hp⟩
  · obtain ⟨domain, hdomain, hne, hhost⟩ := hostBucket_eq_some.mp hb
    constructor
    · intro hall
      exact hall domain bucket hdomain hhost
    · intro hbucket domain' bucket' hdomain' hhost'
      obtain rfl := Option.some.inj (hdomain.symm.trans hdomain')
      obtain rfl : bucket = bucket' := List.append_cancel_right (hhost.symm.trans hhost')
      exact hbucket
  · obtain ⟨-, -, -, -, hbucket, -⟩ := tryParsePathStyle_some hp
    refine iff_of_true ?_ hbucket
    intro domain bucket hdomain hhost
    by_cases hne : bucket = []
    · simp [hne]
    · have hsome := hostBucket_eq_some.mpr ⟨domain, hdomain, hne, hhost⟩
      exact absurd (hb.symm.trans hsome) (by simp)

theorem separable_virtualHosted (hstyle : proxy.upstreamStyle = .virtualHosted)
    (h : proxy.parseIncomingRequest host path = .ok parsed) :
    proxy.Separable host path ↔ ':' ∉ parsed.bucket ∧ ':' ∉ hostname proxy.upstreamEndpoint := by
  simp only [Separable, hstyle]
  rw [and_comm]
  refine and_congr_left fun _ => ?_
  rcases parseIncomingRequest_ok h with ⟨bucket, hb, rfl⟩ | ⟨hb, hp⟩
  · obtain ⟨domain, hdomain, hne, hhost⟩ := hostBucket_eq_some.mp hb
    have hnot := not_mem_takeWhile ':' host
    rw [hhost, List.mem_append, not_or] at hnot
    exact iff_of_true (Or.inl ⟨domain, bucket, hdomain, hne, hhost⟩) hnot.1
  · rw [bucket_of_tryParsePathStyle hp]
    refine or_iff_right fun hexists => ?_
    obtain ⟨domain, bucket, hbucket⟩ := hexists
    have hsome := hostBucket_eq_some.mpr ⟨domain, hbucket⟩
    exact absurd (hb.symm.trans hsome) (by simp)

/-- A request that is taken apart and rebuilt is the same one exactly when its parts can be told
apart again. -/
theorem roundTrip_iff (proxy : S3Proxy) (host path : List Char) (parsed : ParsedS3Request)
    (h : proxy.parseIncomingRequest host path = .ok parsed) :
    proxy.RoundTrip host path parsed ↔ proxy.Separable host path := by
  have hne := bucket_ne_nil h
  have hobject : (match proxy.upstreamStyle with
      | .pathStyle => tryParsePathStyle (proxy.buildUpstreamUriAndHost parsed).1 = some parsed
      | .virtualHosted =>
        extractBucketFromHost (proxy.buildUpstreamUriAndHost parsed).2
          (hostname proxy.upstreamEndpoint) =
          some parsed.bucket ∧ (proxy.buildUpstreamUriAndHost parsed).1 = '/' :: parsed.key) ↔
      proxy.Separable host path := by
    cases hstyle : proxy.upstreamStyle with
    | pathStyle =>
      rw [separable_pathStyle hstyle h, ← tryParsePathStyle_rebuilt_iff hne]
      simp only [buildUpstreamUriAndHost, hstyle]
    | virtualHosted =>
      rw [separable_virtualHosted hstyle h, ← extractBucketFromHost_rebuilt_iff hne]
      simp only [buildUpstreamUriAndHost, hstyle, and_true]
  constructor
  · intro hround
    exact hobject.mp hround.object
  · intro hseparable
    refine ⟨hobject.mpr hseparable, ?_, fun name port hok => name_of_buildUpstreamHost hok, ?_⟩
    · cases hstyle : proxy.upstreamStyle <;> simp only [buildUpstreamHost,
        buildUpstreamUriAndHost, hstyle]
    · intro hb _
      rcases parseIncomingRequest_ok h with ⟨bucket, hb', -⟩ | ⟨-, hp⟩
      · exact absurd (hb.symm.trans hb') (by simp)
      · obtain ⟨-, -, -, -, -, -, hspelled⟩ := tryParsePathStyle_some hp
        rcases hspelled with ⟨htrim, hkey⟩ | htrim
        · exact Or.inr ⟨hkey, by rw [htrim]⟩
        · exact Or.inl (by rw [htrim]; rfl)

end S3Proxy

def virtualHostedProxy : S3Proxy :=
  { demoProxy "s3:GetObject" with upstreamStyle := .virtualHosted }

theorem roundTrip_virtualHosted :
    virtualHostedProxy.RoundTrip "proxy.local".toList "/bucket/key".toList
      ⟨"bucket".toList, "key".toList⟩ :=
  (virtualHostedProxy.roundTrip_iff "proxy.local".toList "/bucket/key".toList
    ⟨"bucket".toList, "key".toList⟩ (by decide)).mpr ⟨by decide, Or.inr (by decide)⟩

/-- A bucket with a slash, from the Host header: the rebuilt path names another bucket. -/
theorem slash_bucket_rebuilt :
    ¬ ∀ (proxy : S3Proxy) (host path : List Char) (parsed : ParsedS3Request),
      proxy.parseIncomingRequest host path = .ok parsed → proxy.RoundTrip host path parsed := by
  intro hall
  have hround := hall (demoProxy "s3:GetObject") "a/b.proxy.local".toList "/key".toList
    ⟨"a/b".toList, "key".toList⟩ rfl
  have hobject : tryParsePathStyle "/a/b/key".toList = some ⟨"a/b".toList, "key".toList⟩ :=
    hround.object
  exact absurd hobject (by decide)

end Facet.S3
