import Facet.S3Operation

/-!
# The S3 proxy

`S3Proxy`: the request is cut into bucket and key, the operation is authorised, and the
request is rebuilt for the upstream service and signed. Verification of tokens, evaluation of
policies, credentials and signing are fields of the proxy; what the HTTP crates refuse to
parse or to send is a parameter.
-/
namespace Facet.S3
open Text UrlSyntax

inductive UpstreamStyle
  | pathStyle
  | virtualHosted
  deriving DecidableEq, Repr

/-- `key` is empty for bucket-level operations. -/
structure ParsedS3Request where
  bucket : List Char
  key : List Char
  deriving DecidableEq, Repr

structure S3ProxyContext where
  participantContext : ParticipantContext
  parsedRequest : Option ParsedS3Request

structure S3Credentials where
  accessKeyId : String
  secretKey : String
  region : String

structure HttpPeer where
  addr : List Char
  tls : Bool
  sni : List Char
  deriving DecidableEq, Repr

/-- What the HTTP crates refuse: texts that are no URI, and values that fit in no header. -/
structure HttpCrate where
  uriError : List Char → Option String
  headerError : List Char → Option String

/-- `sign` gives the headers of the signature for a request. -/
structure S3Proxy where
  useTls : Bool
  defaultPort : ℕ := if useTls then 443 else 80
  participantContextResolver : List Char → Except ProxyError ParticipantContext
  credentialResolver : ParticipantContext → Except ProxyError S3Credentials
  tokenVerifier : String → List Char → Except JwtVerificationError TokenClaims
  authEvaluator : ParticipantContext → Operation → Except String Bool
  operationParser : String → RequestHeader → Except ProxyError Operation
  upstreamEndpoint : List Char
  upstreamStyle : UpstreamStyle := .pathStyle
  proxyDomain : Option (List Char)
  http : HttpCrate
  sign : S3Credentials → RequestHeader → Except String (List (String × List Char))

def securityTokenHeader : String := "x-amz-security-token"

def hostHeader : String := "host"

/-! ## Texts -/

/-- `parse::<u16>`. -/
def parseU16 : List Char → Except String ℕ
  | [] => .error "cannot parse integer from empty string"
  | ['+'] => .error "invalid digit found in string"
  | '+' :: digits => go 0 digits
  | digits => go 0 digits
where
  go (n : ℕ) : List Char → Except String ℕ
    | [] => .ok n
    | c :: rest =>
      if c.isDigit then
        let m := n * 10 + (c.toNat - 48)
        if m < 65536 then go m rest else .error "number too large to fit in target type"
      else .error "invalid digit found in string"

def trimSlashes (path : List Char) : List Char := path.dropWhile (· == '/')

/-- The target that a text after its leading slash is read as. -/
def PathAndQuery.ofText (text : List Char) (h : text.all (fun c => !isControlOrSpace c) = true) :
    PathAndQuery where
  rest := text.takeWhile (fun c => !endsPath c)
  query := queryOf (text.dropWhile (fun c => !endsPath c))
  rest_clean := by
    intro c hc
    have hends := List.mem_takeWhile_imp hc
    have hctl := List.all_eq_true.mp h c ((List.takeWhile_prefix _).subset hc)
    simpa using And.intro hends hctl
  query_clean := by
    intro q hq c hc
    obtain ⟨t, ht⟩ : ∃ t, text.dropWhile (fun c => !endsPath c) = '?' :: t ∧
        q = t.takeWhile (· != '#') := by
      unfold queryOf at hq
      split at hq
      · rename_i t ht
        exact ⟨t, ht, (Option.some.inj hq).symm⟩
      · simp at hq
    rw [ht.2] at hc
    have hmem : c ∈ text := by
      apply (List.dropWhile_suffix _).subset
      rw [ht.1]
      exact List.mem_cons_of_mem _ ((List.takeWhile_prefix _).subset hc)
    have hctl := List.all_eq_true.mp h c hmem
    have hne := List.mem_takeWhile_imp hc
    simpa using And.intro hne hctl

/-- Parsing of the texts the proxy builds; they all start with a slash. -/
def HttpCrate.parseUri (H : HttpCrate) (text : List Char) : Except String Uri :=
  match H.uriError text with
  | some e => .error e
  | none =>
    match text with
    | '/' :: rest =>
      if h : rest.all (fun c => !isControlOrSpace c) = true then .ok (.relative (.ofText rest h))
      else .error "invalid uri character"
    | _ => .error "invalid format"

def HttpCrate.insertHeader (H : HttpCrate) (request : RequestHeader) (name : String)
    (value : List Char) : Except String RequestHeader :=
  match H.headerError value with
  | some e => .error e
  | none => .ok (request.insertHeader name value)

def tryParsePathStyle (path : List Char) : Option ParsedS3Request :=
  let path := trimSlashes path
  if path = [] then none
  else
    match cut '/' path with
    | some (bucket, key) => some ⟨bucket, key⟩
    | none => some ⟨path, []⟩

def extractBucketFromHost (host proxyDomain : List Char) : Option (List Char) :=
  let hostWithoutPort := host.takeWhile (· != ':')
  match stripSuffix ('.' :: proxyDomain) hostWithoutPort with
  | some bucket => if bucket ≠ [] then some bucket else none
  | none => none

/-- The value of a header, when there is one and it is readable. -/
def headerText (request : RequestHeader) (name : String) : Option (List Char) :=
  (request.get name).bind HeaderValue.text

namespace S3Proxy
variable (proxy : S3Proxy)

/-- The bucket that the Host header names. -/
def hostBucket (host : List Char) : Option (List Char) :=
  proxy.proxyDomain.bind (extractBucketFromHost host)

def parseIncomingRequest (host path : List Char) : Except ProxyError ParsedS3Request :=
  match proxy.hostBucket host with
  | some bucket => .ok ⟨bucket, trimSlashes path⟩
  | none =>
    match tryParsePathStyle path with
    | some parsed => .ok parsed
    | none => .error (clientError 400 ("Invalid path format: " ++ String.ofList path))

def parseEndpoint (endpoint : List Char) : Except ProxyError (List Char × ℕ) :=
  match cutLast ':' endpoint with
  | some (hostname, portStr) =>
    match parseU16 portStr with
    | .ok port => .ok (hostname, port)
    | .error e =>
      .error (internalError ("Invalid port '" ++ String.ofList portStr ++ "' in endpoint '" ++
        String.ofList endpoint ++ "': " ++ e))
  | none => .ok (endpoint, proxy.defaultPort)

def extractRequestComponents (request : RequestHeader) :
    Except ProxyError (List Char × List Char) :=
  match headerText request hostHeader with
  | some host => .ok (host, request.uri.path)
  | none => .error (clientError 400 "Missing Host header")

def buildUpstreamHost (parsed : ParsedS3Request) : Except ProxyError (List Char × ℕ) :=
  match proxy.upstreamStyle with
  | .pathStyle => proxy.parseEndpoint proxy.upstreamEndpoint
  | .virtualHosted => proxy.parseEndpoint (parsed.bucket ++ '.' :: proxy.upstreamEndpoint)

def buildUpstreamUriAndHost (parsed : ParsedS3Request) : List Char × List Char :=
  match proxy.upstreamStyle with
  | .pathStyle =>
    let uri :=
      if parsed.key = [] then '/' :: parsed.bucket else '/' :: parsed.bucket ++ '/' :: parsed.key
    (uri, proxy.upstreamEndpoint)
  | .virtualHosted => ('/' :: parsed.key, parsed.bucket ++ '.' :: proxy.upstreamEndpoint)

def newCtx : S3ProxyContext := ⟨{ id := "anonymous" }, none⟩

def upstreamPeer (session : RequestHeader) (ctx : S3ProxyContext) :
    Except ProxyError (HttpPeer × S3ProxyContext) := do
  let (host, path) ← extractRequestComponents session
  let participantContext ← proxy.participantContextResolver path
  let parsed ← proxy.parseIncomingRequest host path
  let (upstreamHost, port) ← proxy.buildUpstreamHost parsed
  let peer := ⟨upstreamHost ++ ':' :: (toString port).toList, proxy.useTls, upstreamHost⟩
  return (peer, { ctx with participantContext := participantContext, parsedRequest := some parsed })

/-- The rewriting at the start of `upstream_request_filter`: new URI, new Host header. -/
def rewrite (parsed : ParsedS3Request) (upstream : RequestHeader) :
    Except ProxyError RequestHeader := do
  let new := proxy.buildUpstreamUriAndHost parsed
  let uri ← (proxy.http.parseUri new.1).mapError fun e =>
    internalError ("Failed to parse URI: " ++ e)
  let upstream := { upstream with uri := uri }.removeHeader hostHeader
  (proxy.http.insertHeader upstream hostHeader new.2).mapError fun e =>
    internalError ("Failed to insert host header: " ++ e)

/-- Token, scope and operation of the request, and the verdict on the operation. -/
def authorize (session : RequestHeader) (ctx : S3ProxyContext) : Except ProxyError Operation := do
  let token ← okOr (headerText session securityTokenHeader)
    (clientError 400 "Missing x-amz-security-token header")
  let claims ← (proxy.tokenVerifier ctx.participantContext.audience token).mapError fun e =>
    clientErrorBecause 403 "JWT token verification failed" e
  let scope ← okOr ((claims.custom.get "scope").bind Value.asStr)
    (clientError 403 "Missing scope in token claims")
  let operation ← proxy.operationParser scope session
  let isAuthorized ← (proxy.authEvaluator ctx.participantContext operation).mapError fun e =>
    internalError ("Authorization evaluation failed for participant " ++
      ctx.participantContext.id ++ ": " ++ e)
  if isAuthorized then .ok operation else .error (clientError 403 "Unauthorized operation")

/-- The signature headers, inserted one after the other. -/
def insertHeaders (upstream : RequestHeader) (headers : List (String × List Char)) :
    Except ProxyError RequestHeader :=
  headers.foldlM (fun upstream header =>
    (proxy.http.insertHeader upstream header.1 header.2).mapError fun e =>
      internalError ("Failed to insert signing header: " ++ e)) upstream

/-- The end of `upstream_request_filter`: the token goes, the signature comes. -/
def signRequest (upstream : RequestHeader) (ctx : S3ProxyContext) :
    Except ProxyError RequestHeader := do
  let upstream := upstream.removeHeader securityTokenHeader
  let creds ← (proxy.credentialResolver ctx.participantContext).mapError fun e =>
    { e with source := .internal }
  let headers ← (proxy.sign creds upstream).mapError internalError
  proxy.insertHeaders upstream headers

/-- `upstream` starts as the request of the session. -/
def upstreamRequestFilter (session upstream : RequestHeader) (ctx : S3ProxyContext) :
    Except ProxyError RequestHeader := do
  let parsed ← okOr ctx.parsedRequest
    (internalError "BUG: Parsed request not cached in context (programming error)")
  let upstream ← proxy.rewrite parsed upstream
  let _ ← proxy.authorize session ctx
  proxy.signRequest upstream ctx

/-- A request through both phases: the peer is chosen, then the request for it is made. -/
def serve (session : RequestHeader) : Except ProxyError (HttpPeer × RequestHeader) := do
  let (peer, ctx) ← proxy.upstreamPeer session newCtx
  let upstream ← proxy.upstreamRequestFilter session session ctx
  return (peer, upstream)

/-! ## What an accepted request went through -/

variable {proxy}

theorem insertHeaders_ok {upstream upstream' : RequestHeader} {headers : List (String × List Char)}
    (h : proxy.insertHeaders upstream headers = .ok upstream') :
    upstream'.uri = upstream.uri ∧ upstream'.method = upstream.method := by
  induction headers generalizing upstream with
  | nil =>
    obtain rfl : upstream = upstream' := Except.ok.inj h
    exact ⟨rfl, rfl⟩
  | cons header headers ih =>
    obtain ⟨next, hnext, hrest⟩ := bind_eq_ok.mp h
    rw [mapError_eq_ok, HttpCrate.insertHeader] at hnext
    cases he : proxy.http.headerError header.2 with
    | some e => simp [he] at hnext
    | none =>
      simp only [he, Except.ok.injEq] at hnext
      rw [(ih hrest).1, (ih hrest).2, ← hnext]
      exact ⟨rfl, rfl⟩

theorem signRequest_ok {upstream upstream' : RequestHeader} {ctx : S3ProxyContext}
    (h : proxy.signRequest upstream ctx = .ok upstream') :
    upstream'.uri = upstream.uri ∧ upstream'.method = upstream.method := by
  obtain ⟨creds, -, h⟩ := bind_eq_ok.mp h
  obtain ⟨headers, -, h⟩ := bind_eq_ok.mp h
  obtain ⟨huri, hmethod⟩ := insertHeaders_ok h
  exact ⟨huri, hmethod⟩

theorem rewrite_ok {parsed : ParsedS3Request} {upstream upstream' : RequestHeader}
    (h : proxy.rewrite parsed upstream = .ok upstream') :
    proxy.http.parseUri (proxy.buildUpstreamUriAndHost parsed).1 = .ok upstream'.uri ∧
      upstream'.method = upstream.method := by
  obtain ⟨uri, huri, h⟩ := bind_eq_ok.mp h
  rw [mapError_eq_ok] at huri h
  unfold HttpCrate.insertHeader at h
  cases he : proxy.http.headerError (proxy.buildUpstreamUriAndHost parsed).2 with
  | some e => simp [he] at h
  | none =>
    simp only [he, Except.ok.injEq] at h
    rw [← h]
    exact ⟨huri, rfl⟩

theorem authorize_ok {session : RequestHeader} {ctx : S3ProxyContext} {operation : Operation}
    (h : proxy.authorize session ctx = .ok operation) :
    ∃ scope, proxy.operationParser scope session = .ok operation ∧
      proxy.authEvaluator ctx.participantContext operation = .ok true := by
  obtain ⟨token, -, h⟩ := bind_eq_ok.mp h
  obtain ⟨claims, -, h⟩ := bind_eq_ok.mp h
  obtain ⟨scope, -, h⟩ := bind_eq_ok.mp h
  obtain ⟨operation', hop, h⟩ := bind_eq_ok.mp h
  obtain ⟨isAuthorized, hauth, h⟩ := bind_eq_ok.mp h
  rw [mapError_eq_ok] at hauth
  cases isAuthorized with
  | false => simp at h
  | true =>
    obtain rfl : operation' = operation := Except.ok.inj h
    exact ⟨scope, hop, hauth⟩

/-- The request was cut into bucket and key, its operation was authorised, and the URI sent upstream
is built from bucket and key alone. -/
structure Served (proxy : S3Proxy) (session upstream : RequestHeader) (host : List Char)
    (parsed : ParsedS3Request) (scope : String) (operation : Operation) : Prop where
  host_eq : headerText session hostHeader = some host
  parsed_eq : proxy.parseIncomingRequest host session.uri.path = .ok parsed
  operation_eq : proxy.operationParser scope session = .ok operation
  authorized : ∃ context, proxy.participantContextResolver session.uri.path = .ok context ∧
    proxy.authEvaluator context operation = .ok true
  uri_eq : proxy.http.parseUri (proxy.buildUpstreamUriAndHost parsed).1 = .ok upstream.uri
  method_eq : upstream.method = session.method

theorem serve_ok {session upstream : RequestHeader} {peer : HttpPeer}
    (h : proxy.serve session = .ok (peer, upstream)) :
    ∃ host parsed scope operation, proxy.Served session upstream host parsed scope operation := by
  obtain ⟨⟨peer', ctx⟩, hpeer, h⟩ := bind_eq_ok.mp h
  obtain ⟨upstream', hfilter, h⟩ := bind_eq_ok.mp h
  obtain ⟨rfl, rfl⟩ : peer' = peer ∧ upstream' = upstream := by simpa using Except.ok.inj h
  obtain ⟨⟨host, path⟩, hcomponents, hpeer⟩ := bind_eq_ok.mp hpeer
  obtain ⟨context, hcontext, hpeer⟩ := bind_eq_ok.mp hpeer
  obtain ⟨parsed, hparsed, hpeer⟩ := bind_eq_ok.mp hpeer
  obtain ⟨⟨upstreamHost, port⟩, -, hpeer⟩ := bind_eq_ok.mp hpeer
  obtain ⟨-, rfl⟩ := Prod.mk.inj (Except.ok.inj hpeer)
  obtain ⟨hhost, rfl⟩ : headerText session hostHeader = some host ∧ session.uri.path = path := by
    unfold extractRequestComponents at hcomponents
    cases hh : headerText session hostHeader with
    | none => simp [hh] at hcomponents
    | some host' => simpa [hh] using hcomponents
  obtain ⟨parsed', hcached, hfilter⟩ := bind_eq_ok.mp hfilter
  obtain rfl : parsed = parsed' := Option.some.inj (okOr_eq_ok.mp hcached)
  obtain ⟨rewritten, hrewrite, hfilter⟩ := bind_eq_ok.mp hfilter
  obtain ⟨operation, hauth, hsign⟩ := bind_eq_ok.mp hfilter
  obtain ⟨huri, hmethod⟩ := rewrite_ok hrewrite
  obtain ⟨hsame, hsame'⟩ := signRequest_ok hsign
  obtain ⟨scope, hop, heval⟩ := authorize_ok hauth
  exact ⟨host, parsed, scope, operation, hhost, hparsed, hop,
    ⟨context, hcontext, heval⟩, hsame ▸ huri, hsame'.trans hmethod⟩

theorem parseUri_ok {H : HttpCrate} {rest : List Char} {uri : Uri}
    (h : H.parseUri ('/' :: rest) = .ok uri) : ∃ target : PathAndQuery, uri = .relative target ∧
      target.rest = rest.takeWhile (fun c => !endsPath c) ∧
      target.query = queryOf (rest.dropWhile (fun c => !endsPath c)) := by
  unfold HttpCrate.parseUri at h
  cases he : H.uriError ('/' :: rest) with
  | some e => simp [he] at h
  | none =>
    simp only [he] at h
    split_ifs at h with hclean
    exact ⟨_, (Except.ok.inj h).symm, rfl, rfl⟩

end S3Proxy
end Facet.S3
