import Facet.Did
import Facet.TokenIssuance

/-!
# The local JWT verifier

`LocalJwtVerifier` over a key resolver. The JWT library (header and payload decoding, key
loading, signature check) is a parameter. The verifier is then placed in `renew`, where it
checks the token a refresh request is bound to.
-/
namespace Facet.Did
open DidWebVerificationKeyResolver

structure JwtHeader where
  alg : String
  kid : Option String

structure Validation where
  alg : String
  leeway : ℕ
  validateNbf : Bool
  aud : List String

/-- The error kinds that the verifier tells apart. -/
inductive ErrorKind
  | expiredSignature
  | immatureSignature
  | invalidSignature
  | invalidToken
  | invalidKeyFormat
  | other (message : String)

/-- The JWT library: `decode` checks the signature, `insecureDecode` only reads the payload. -/
structure JsonWebToken where
  DecodingKey : Type
  Jwk : Type
  decodeHeader : String → Option JwtHeader
  insecureDecode : String → Option TokenClaims
  fromEdPem : List UInt8 → Except String DecodingKey
  fromRsaPem : List UInt8 → Except String DecodingKey
  fromEdDer : List UInt8 → DecodingKey
  fromRsaDer : List UInt8 → DecodingKey
  parseJwk : List UInt8 → Except String Jwk
  fromJwk : Jwk → Except String DecodingKey
  decode : String → DecodingKey → Validation → Except ErrorKind TokenClaims

inductive SigningAlgorithm
  | edDSA
  | rs256
  deriving DecidableEq, Repr

structure LocalJwtVerifier (lib : JsonWebToken) where
  resolveKey : List Char → List Char → Except JwtVerificationError KeyMaterial
  leewaySeconds : ℕ := 300
  signingAlgorithm : SigningAlgorithm := .edDSA

namespace LocalJwtVerifier
variable {lib : JsonWebToken} (v : LocalJwtVerifier lib)

def orFail {α : Type} (context : String) : Except String α → Except JwtVerificationError α
  | .ok a => .ok a
  | .error e => fail (context ++ e)

/-- `load_decoding_key` after the key has been resolved. -/
def decodingKey (material : KeyMaterial) : Except JwtVerificationError lib.DecodingKey :=
  match v.signingAlgorithm, material.keyFormat with
  | .edDSA, .pem => orFail "Failed to load Ed25519 PEM key: " (lib.fromEdPem material.key)
  | .edDSA, .der => .ok (lib.fromEdDer material.key)
  | .rs256, .pem => orFail "Failed to load RSA PEM key: " (lib.fromRsaPem material.key)
  | .rs256, .der => .ok (lib.fromRsaDer material.key)
  | _, .jwk => do
    let jwk ← orFail "Failed to parse JWK: " (lib.parseJwk material.key)
    orFail "Failed to load JWK decoding key: " (lib.fromJwk jwk)

def loadDecodingKey (iss kid : String) : Except JwtVerificationError lib.DecodingKey := do
  let keyMaterial ← v.resolveKey iss.toList kid.toList
  v.decodingKey keyMaterial

def verificationError : ErrorKind → JwtVerificationError
  | .expiredSignature => .tokenExpired
  | .immatureSignature => .tokenNotYetValid
  | .invalidSignature => .invalidSignature
  | .invalidToken => .invalidFormat
  | .invalidKeyFormat => .verificationFailed "Invalid key format"
  | .other message => .verificationFailed message

/-- What the signature check is asked for: the header's algorithm, the leeway and the audience. -/
def validation (alg audience : String) : Validation where
  alg := alg
  leeway := v.leewaySeconds
  validateNbf := true
  aud := [audience]

def verifyToken (audience token : String) : Except JwtVerificationError TokenClaims :=
  match lib.decodeHeader token with
  | none => .error .invalidFormat
  | some header =>
    match header.kid with
    | none => .error .invalidFormat
    | some kid =>
      match lib.insecureDecode token with
      | none => .error .invalidFormat
      | some unverified =>
        match v.loadDecodingKey unverified.iss kid with
        | .error e => .error e
        | .ok key =>
          match lib.decode token key (v.validation header.alg audience) with
          | .ok claims => .ok claims
          | .error e => .error (verificationError e)

variable {v}

end LocalJwtVerifier

def demoJwk : Value :=
  .object [("crv", .string "Ed25519"), ("kty", .string "OKP"), ("x", .string "AQID")]

def demoJwkBytes : List UInt8 :=
  "\x7b\"crv\":\"Ed25519\",\"kty\":\"OKP\",\"x\":\"AQID\"\x7d".toList.map fun c => c.toNat.toUInt8

def demoMethod (did : String) : VerificationMethod := ⟨(did ++ "#key-1").toList, none, some demoJwk⟩

def demoUrl (domain : String) : List Char :=
  ("https://" ++ domain ++ "/.well-known/did.json").toList

def demoResponse (did : String) : HttpResponse := ⟨true, "200 OK", .ok ⟨some [demoMethod did]⟩⟩

def demoResolver : DidWebVerificationKeyResolver where
  httpGet := fun url =>
    if url = demoUrl "victim" then .ok (demoResponse "did:web:victim")
    else if url = demoUrl "attacker" then .ok (demoResponse "did:web:attacker")
    else .error "dns error"
  bs58Decode := fun _ => .error "provided string contained invalid character"
  jsonToVec := fun _ => .ok demoJwkBytes

def demoClaims : TokenClaims where
  sub := "consumer"
  iss := "did:web:victim"
  aud := "anonymous"
  exp := 300
  custom := HashMap.empty.insert "token" (.string "j1")

def demoLibrary : JsonWebToken where
  DecodingKey := List UInt8
  Jwk := List UInt8
  decodeHeader := fun token => if token = "bound" then some ⟨"EdDSA", some "key-1"⟩ else none
  insecureDecode := fun token => if token = "bound" then some demoClaims else none
  fromEdPem := fun _ => .error "InvalidKeyFormat"
  fromRsaPem := fun _ => .error "InvalidKeyFormat"
  fromEdDer := id
  fromRsaDer := id
  parseJwk := .ok
  fromJwk := .ok
  decode := fun token key _ =>
    if token = "bound" then if key = demoJwkBytes then .ok demoClaims else .error .invalidSignature
    else .error .invalidToken

def demoVerifier : LocalJwtVerifier demoLibrary := { resolveKey := demoResolver.resolveKey }

def demoEnv : Renewable.CallEnv :=
  { Renewable.demoEnv "j2" "r2" with clientVerifier := demoVerifier.verifyToken }

def demoStore : Renewable.InnerStore :=
  Renewable.InnerStore.empty.save (Renewable.demoIssue "j1" "r1").entry

end Facet.Did
