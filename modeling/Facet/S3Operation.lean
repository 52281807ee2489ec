import Facet.UrlSyntax
import Facet.Jwt

/-!
# Requests to the S3 proxy and the operations they stand for

Request headers as the proxy sees them and `DefaultS3OperationParser`, which maps a request
to an S3 action and a resource. Texts that are cut up are lists of characters. The URL
crate is a parser of `UrlSyntax` together with its decoding of query pairs.
-/
namespace Facet.S3
open Text UrlSyntax

/-! ## Errors -/

inductive ErrorType
  | httpStatus (code : ℕ)
  | internalError
  deriving DecidableEq, Repr

inductive ErrorSource
  | downstream
  | internal
  | unset
  deriving DecidableEq, Repr

structure ProxyError where
  etype : ErrorType
  source : ErrorSource
  context : String
  cause : Option JwtVerificationError := none
  deriving DecidableEq, Repr

def internalError (message : String) : ProxyError := ⟨.internalError, .internal, message, none⟩

def clientError (status : ℕ) (message : String) : ProxyError :=
  ⟨.httpStatus status, .downstream, message, none⟩

def clientErrorBecause (status : ℕ) (message : String)
    (cause : JwtVerificationError) : ProxyError :=
  ⟨.httpStatus status, .downstream, message, some cause⟩

/-! ## Request headers -/

/-- A path that starts with a slash, and a query. Both are free of what would end them. -/
structure PathAndQuery where
  rest : List Char
  query : Option (List Char)
  rest_clean : ∀ c ∈ rest, endsPath c = false ∧ isControlOrSpace c = false
  query_clean : ∀ q ∈ query, ∀ c ∈ q, c ≠ '#' ∧ isControlOrSpace c = false

structure Authority where
  text : List Char
  ne_nil : text ≠ []
  clean : ∀ c ∈ text, inAuthority c = true ∧ isControlOrSpace c = false

inductive Scheme
  | http
  | https
  deriving DecidableEq, Repr

def Scheme.text : Scheme → List Char
  | .http => "http://".toList
  | .https => "https://".toList

/-- The four forms of a request target. -/
inductive Uri
  | relative (target : PathAndQuery)
  | absolute (scheme : Scheme) (host : Authority) (target : PathAndQuery)
  | authority (host : Authority)
  | asterisk

namespace Uri

def path : Uri → List Char
  | .relative target => '/' :: target.rest
  | .absolute _ _ target => '/' :: target.rest
  | .authority _ => []
  | .asterisk => ['*']

def query : Uri → Option (List Char)
  | .relative target => target.query
  | .absolute _ _ target => target.query
  | .authority _ => none
  | .asterisk => none

def origin : Uri → List Char
  | .relative _ => []
  | .absolute scheme host _ => scheme.text ++ host.text
  | .authority host => host.text
  | .asterisk => []

def queryText (query : Option (List Char)) : List Char :=
  match query with
  | some query => '?' :: query
  | none => []

def toText (uri : Uri) : List Char := uri.origin ++ (uri.path ++ queryText uri.query)

end Uri

/-- `text` is missing when the bytes of the value are not visible ASCII. -/
structure HeaderValue where
  text : Option (List Char)
  deriving DecidableEq, Repr

structure RequestHeader where
  method : String
  uri : Uri
  headers : List (String × HeaderValue)

namespace RequestHeader

/-- The first value under the name. -/
def get (request : RequestHeader) (name : String) : Option HeaderValue :=
  (request.headers.find? (fun header => header.1 == name)).map Prod.snd

def removeHeader (request : RequestHeader) (name : String) : RequestHeader :=
  { request with headers := request.headers.filter (fun header => header.1 != name) }

/-- Replaces every value under the name. -/
def insertHeader (request : RequestHeader) (name : String) (value : List Char) : RequestHeader :=
  { request with headers := (request.removeHeader name).headers ++ [(name, ⟨some value⟩)] }

end RequestHeader

/-! ## The operation parser -/

structure Operation where
  scope : String
  action : String
  resource : List Char
  deriving DecidableEq, Repr

/-- The URL crate. `queryPairs` decodes the text of a query, `parseError` explains a failure. -/
structure UrlCrate extends UrlParser where
  queryPairs : List Char → List (String × String)
  parseError : List Char → String
  accepts_dummy : acceptsOrigin "http://dummy".toList = true

def UrlCrate.pairs (U : UrlCrate) (query : Option (List Char)) : List (String × String) :=
  match query with
  | some query => U.queryPairs query
  | none => []

def isBucketOperation (queryPairs : List (String × String)) : Bool :=
  queryPairs.any fun pair => pair.1 ∈ ["list-type", "versions", "delete", "uploads", "location"]

/-- The action that one query parameter stands for. -/
def queryAction (method key : String) : Option String :=
  match method, key with
  | "GET", "acl" => some "s3:GetObjectAcl"
  | "GET", "tagging" => some "s3:GetObjectTagging"
  | "GET", "torrent" => some "s3:GetObjectTorrent"
  | "GET", "legal-hold" => some "s3:GetObjectLegalHold"
  | "GET", "retention" => some "s3:GetObjectRetention"
  | "GET", "versionId" => some "s3:GetObjectVersion"
  | "PUT", "acl" => some "s3:PutObjectAcl"
  | "PUT", "tagging" => some "s3:PutObjectTagging"
  | "PUT", "legal-hold" => some "s3:PutObjectLegalHold"
  | "PUT", "retention" => some "s3:PutObjectRetention"
  | "PUT", "restore" => some "s3:RestoreObject"
  | "GET", "list-type" => some "s3:ListBucket"
  | "GET", "versions" => some "s3:ListBucketVersions"
  | "GET", "uploads" => some "s3:ListBucketMultipartUploads"
  | "GET", "location" => some "s3:GetBucketLocation"
  | "POST", "delete" => some "s3:DeleteObject"
  | _, _ => none

/-- The action of the method alone. -/
def methodAction (method : String) (isBucketOp : Bool) : String :=
  match method with
  | "GET" => if isBucketOp then "s3:ListBucket" else "s3:GetObject"
  | "HEAD" => "s3:GetObject"
  | "PUT" => "s3:PutObject"
  | "POST" => "s3:PutObject"
  | "DELETE" => "s3:DeleteObject"
  | _ => "s3:" ++ method.toLower ++ "Object"

def parseAction (method : String) (queryPairs : List (String × String))
    (isBucketOp : Bool) : String :=
  match queryPairs.findSome? (fun pair => queryAction method pair.1) with
  | some action => action
  | none => methodAction method isBucketOp

def isAbsolute (uri : List Char) : Prop := "http://".toList <+: uri ∨ "https://".toList <+: uri

instance (uri : List Char) : Decidable (isAbsolute uri) := inferInstanceAs (Decidable (_ ∨ _))

/-- The text given to the URL parser. -/
def urlText (uri : List Char) : List Char :=
  if isAbsolute uri then uri else "http://dummy".toList ++ uri

def urlError (uri : List Char) (method e : String) : ProxyError :=
  let kind := if isAbsolute uri then "operation" else "relative"
  internalError ("Failed to parse " ++ kind ++ " URI '" ++ String.ofList uri ++ "' (method=" ++
    method ++ "): " ++ e)

def parseOperation (U : UrlCrate) (scope : String) (request : RequestHeader) :
    Except ProxyError Operation :=
  let uri := request.uri.toText
  match U.parse (urlText uri) with
  | none => .error (urlError uri request.method (U.parseError (urlText uri)))
  | some url =>
    let queryPairs := U.pairs url.query
    .ok ⟨scope, parseAction request.method queryPairs (isBucketOperation queryPairs), url.pathText⟩

/-! ## What the parser makes of each form -/

/-- The path in the text given to the URL parser: a target without one leaves it empty. -/
def Uri.urlPath : Uri → List Char
  | .relative target => '/' :: target.rest
  | .absolute _ _ target => '/' :: target.rest
  | .authority _ => []
  | .asterisk => []

theorem originText_dummy {suffix : List Char}
    (h : ∀ c ∈ suffix, inAuthority c = true ∧ isControlOrSpace c = false) :
    OriginText ("http://dummy".toList ++ suffix) := by
  refine ⟨"http://".toList, by simp, "dummy".toList ++ suffix, rfl, by simp, ?_⟩
  intro c hc
  rcases List.mem_append.mp hc with hc | hc
  · have hdummy : ∀ d ∈ "dummy".toList, inAuthority d = true ∧ isControlOrSpace d = false := by
      simp [inAuthority, isSlash, endsPath, isControlOrSpace]
    exact hdummy c hc
  · exact h c hc

theorem not_isAbsolute_of_clean {text : List Char} (h : ∀ c ∈ text, isSlash c = false) :
    ¬ isAbsolute text := by
  rintro (⟨rest, rfl⟩ | ⟨rest, rfl⟩)
  · exact absurd (h '/' (by simp)) (by decide)
  · exact absurd (h '/' (by simp)) (by decide)

/-- Behind a scheme and an authority stand the path and the query of the request. -/
theorem urlText_eq (uri : Uri) :
    ∃ origin, OriginText origin ∧
      urlText uri.toText = origin ++ (uri.urlPath ++ Uri.queryText uri.query) ∧
      (∀ target, uri = .relative target → origin = "http://dummy".toList) := by
  cases uri with
  | relative target =>
    refine ⟨"http://dummy".toList, ?_, ?_, fun _ _ => rfl⟩
    · simpa using originText_dummy (List.forall_mem_nil _)
    · have hrel : ¬ isAbsolute (Uri.relative target).toText := by
        rintro (⟨rest, h⟩ | ⟨rest, h⟩)
        · simp [Uri.toText, Uri.origin, Uri.path] at h
        · simp [Uri.toText, Uri.origin, Uri.path] at h
      rw [urlText, if_neg hrel]
      rfl
  | absolute scheme host target =>
    refine ⟨scheme.text ++ host.text, ⟨scheme.text, ?_, host.text, rfl, host.ne_nil, host.clean⟩,
      ?_, by simp⟩
    · cases scheme with
      | http => exact List.mem_cons_self
      | https => exact List.mem_cons_of_mem _ List.mem_cons_self
    · have habs : isAbsolute (Uri.absolute scheme host target).toText := by
        cases scheme with
        | http => exact Or.inl ⟨_, (List.append_assoc _ _ _).symm⟩
        | https => exact Or.inr ⟨_, (List.append_assoc _ _ _).symm⟩
      rw [urlText, if_pos habs]
      rfl
  | authority host =>
    refine ⟨"http://dummy".toList ++ host.text, originText_dummy host.clean, ?_, by simp⟩
    have hrel : ¬ isAbsolute (Uri.authority host).toText := by
      apply not_isAbsolute_of_clean
      intro c hc
      have hin :=
        (host.clean c
          (by simpa [Uri.toText, Uri.origin, Uri.path, Uri.query, Uri.queryText] using hc)).1
      simp only [inAuthority, Bool.and_eq_true, Bool.not_eq_true'] at hin
      exact hin.1
    rw [urlText, if_neg hrel]
    simp [Uri.toText, Uri.origin, Uri.path, Uri.urlPath]
  | asterisk =>
    refine ⟨"http://dummy*".toList, ⟨"http://".toList, by simp, "dummy*".toList, rfl, by simp, ?_⟩,
      ?_, by simp⟩
    · simp [inAuthority, isSlash, endsPath, isControlOrSpace]
    · decide

theorem queryOf_queryText {query : Option (List Char)} (h : ∀ q ∈ query, ∀ c ∈ q, c ≠ '#') :
    queryOf (Uri.queryText query) = query := by
  cases query with
  | none => rfl
  | some q =>
    have hq : q.takeWhile (· != '#') = q := by
      rw [List.takeWhile_eq_self_iff]
      intro c hc
      simpa using h q rfl c hc
    simp [Uri.queryText, queryOf, hq]

theorem Uri.query_clean (uri : Uri) :
    ∀ q ∈ uri.query, ∀ c ∈ q, c ≠ '#' ∧ isControlOrSpace c = false := by
  cases uri with
  | relative target => exact target.query_clean
  | absolute scheme host target => exact target.query_clean
  | authority host => nofun
  | asterisk => nofun

theorem Uri.urlPath_clean (uri : Uri) :
    ∀ c ∈ uri.urlPath, endsPath c = false ∧ isControlOrSpace c = false := by
  have htarget : ∀ target : PathAndQuery, ∀ c ∈ '/' :: target.rest, endsPath c = false ∧
      isControlOrSpace c = false := by
    intro target c hc
    rcases List.mem_cons.mp hc with rfl | hc
    · decide
    · exact target.rest_clean c hc
  cases uri with
  | relative target => exact htarget target
  | absolute scheme host target => exact htarget target
  | authority host => nofun
  | asterisk => nofun

theorem Uri.head_urlPath (uri : Uri) : ∀ c ∈ (uri.urlPath ++ queryText uri.query).head?,
    inAuthority c = false := by
  have hslash : ∀ c ∈ some '/', inAuthority c = false := by
    rintro c ⟨⟩
    decide
  cases uri with
  | relative target => exact hslash
  | absolute scheme host target => exact hslash
  | authority host => nofun
  | asterisk => nofun

theorem Uri.queryText_clean (uri : Uri) :
    ∀ c ∈ queryText uri.query, isControlOrSpace c = false := by
  have hq := uri.query_clean
  cases huq : uri.query with
  | none => nofun
  | some q =>
    rw [huq] at hq
    intro c hc
    rcases List.mem_cons.mp hc with rfl | hc
    · decide
    · exact (hq q rfl c hc).2

theorem span_queryText {path : List Char} (h : ∀ c ∈ path, endsPath c = false)
    (query : Option (List Char)) :
    (path ++ Uri.queryText query).takeWhile (fun c => !endsPath c) = path ∧
      (path ++ Uri.queryText query).dropWhile (fun c => !endsPath c) = Uri.queryText query := by
  have hpath : ∀ c ∈ path, (!endsPath c) = true := by
    intro c hc
    rw [h c hc]
    rfl
  rw [List.takeWhile_append_of_pos hpath, List.dropWhile_append_of_pos hpath]
  cases query with
  | none => simp [Uri.queryText]
  | some q =>
    have hmark : (!endsPath '?') = false := by decide
    simp [Uri.queryText, hmark]

/-- The parsed URL has the path of the request up to dot segments, and its query as it is. -/
theorem parse_urlText (P : UrlParser) (uri : Uri) :
    ∃ origin, OriginText origin ∧
      (∀ target, uri = .relative target → origin = "http://dummy".toList) ∧
      P.parse (urlText uri.toText) =
        if P.acceptsOrigin origin then some ⟨origin, P.resolve (segments uri.urlPath), uri.query⟩
        else none := by
  obtain ⟨origin, horigin, htext, hrel⟩ := urlText_eq uri
  refine ⟨origin, horigin, hrel, ?_⟩
  have hclean : ∀ c ∈ uri.urlPath ++ Uri.queryText uri.query, isControlOrSpace c = false := by
    intro c hc
    rcases List.mem_append.mp hc with hc | hc
    · exact (uri.urlPath_clean c hc).2
    · exact uri.queryText_clean c hc
  obtain ⟨htake, hdrop⟩ := span_queryText (fun c hc => (uri.urlPath_clean c hc).1) uri.query
  rw [htext, UrlParser.parse_of_strip horigin (strip_append horigin hclean) uri.head_urlPath,
    htake, hdrop, queryOf_queryText fun q hq c hc => (uri.query_clean q hq c hc).1]

/-- The operation of a request: its action comes from its query, its resource from its path. -/
theorem parseOperation_ok {U : UrlCrate} {scope : String} {request : RequestHeader}
    {operation : Operation} (h : parseOperation U scope request = .ok operation) :
    operation.action = parseAction request.method (U.pairs request.uri.query)
        (isBucketOperation (U.pairs request.uri.query)) ∧
      operation.resource = (U.resolve (segments request.uri.urlPath)).flatMap ('/' :: ·) := by
  obtain ⟨origin, -, -, hparse⟩ := parse_urlText U.toUrlParser request.uri
  simp only [parseOperation, hparse] at h
  by_cases haccept : U.acceptsOrigin origin = true
  · simp only [haccept, if_true, Except.ok.injEq] at h
    rw [← h]
    exact ⟨rfl, rfl⟩
  · simp [haccept] at h

/-- A relative target is always parsed. -/
theorem exists_parseOperation (U : UrlCrate) (scope : String) {request : RequestHeader}
    {target : PathAndQuery} (h : request.uri = .relative target) :
    ∃ operation, parseOperation U scope request = .ok operation := by
  obtain ⟨origin, -, hrel, hparse⟩ := parse_urlText U.toUrlParser request.uri
  simp only [parseOperation, hparse, hrel target h, U.accepts_dummy, if_true]
  exact ⟨_, rfl⟩

end Facet.S3
