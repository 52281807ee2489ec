import Facet.Text
import Facet.Jwt

/-!
# Verification keys from did:web documents

`DidWebVerificationKeyResolver`: a DID is mapped to a URL, the document there is fetched
and one of its verification methods gives the key. Texts are lists of characters. The
HTTP client, the base58 decoder and the JSON serialiser are fields of the resolver.
-/
namespace Facet.Did
open Text

structure VerificationMethod where
  id : List Char
  publicKeyMultibase : Option (List Char)
  publicKeyJwk : Option Value

structure DidDocument where
  verificationMethod : Option (List VerificationMethod)

/-- `json` is the body read as a document. -/
structure HttpResponse where
  success : Bool
  status : String
  json : Except String DidDocument

inductive KeyFormat
  | pem
  | der
  | jwk
  deriving DecidableEq, Repr

structure KeyMaterial where
  keyFormat : KeyFormat
  key : List UInt8
  kid : List Char
  deriving DecidableEq, Repr

structure DidWebVerificationKeyResolver where
  httpGet : List Char → Except String HttpResponse
  bs58Decode : List Char → Except String (List UInt8)
  jsonToVec : Value → Except String (List UInt8)
  useHttps : Bool := true

def fail {α : Type} (message : String) : Except JwtVerificationError α :=
  .error (.verificationFailed message)

def validateMultibaseEd25519 (bs58Decode : List Char → Except String (List UInt8)) :
    List Char → Except VaultError (List UInt8)
  | 'z' :: encoded =>
    match bs58Decode encoded with
    | .error e => .error (.invalidData ("Failed to decode base58: " ++ e))
    | .ok (b₀ :: b₁ :: b₂ :: rest) =>
      if b₀ ≠ 0xed ∨ b₁ ≠ 0x01 then
        .error
          (.invalidData ("Invalid multicodec prefix: expected [0xed, 0x01] for Ed25519, got [" ++
            hex b₀ ++ ", " ++ hex b₁ ++ "]"))
      else if (b₂ :: rest).length ≠ 32 then
        .error (.invalidData ("Invalid Ed25519 key size: expected 32 bytes, got " ++
          toString (b₂ :: rest).length))
      else .ok (b₂ :: rest)
    | .ok _ => .error (.invalidData "Invalid key: too short to contain multicodec prefix")
  | _ => .error (.invalidData "Invalid multibase format: expected 'z' prefix for base58btc")
where
  hex (b : UInt8) : String := "0x" ++ String.ofList (Nat.toDigits 16 b.toNat)

namespace DidWebVerificationKeyResolver
variable (r : DidWebVerificationKeyResolver)

def protocol : List Char := if r.useHttps then "https".toList else "http".toList

def didWebToUrl (did : List Char) : Except JwtVerificationError (List Char) :=
  match stripPrefix "did:web:".toList did with
  | none => fail ("Invalid did:web format: " ++ String.ofList did)
  | some methodSpecificId =>
    match methodSpecificId.splitOn ':' with
    | [] => fail "Empty did:web identifier"
    | first :: segments =>
      let domain := replace "%3a".toList [':'] (replace "%3A".toList [':'] first)
      let url := r.protocol ++ "://".toList ++ domain
      if segments ≠ [] then
        .ok (url ++ segments.flatMap (fun segment => '/' :: segment) ++ "/did.json".toList)
      else .ok (url ++ "/.well-known/did.json".toList)

def fetchDidDocument (url : List Char) : Except JwtVerificationError DidDocument :=
  match r.httpGet url with
  | .error e => fail ("Failed to fetch DID document: " ++ e)
  | .ok response =>
    if response.success = false then
      fail ("DID document fetch returned status: " ++ response.status)
    else
      match response.json with
      | .error e => fail ("Failed to parse DID document: " ++ e)
      | .ok doc => .ok doc

/-- The method is named by the fragment: by its suffix or as a whole. -/
def matchesFragment (fragment : List Char) (vm : VerificationMethod) : Bool :=
  decide (('#' :: fragment) <:+ vm.id ∨ vm.id = fragment)

def findVerificationMethod (doc : DidDocument) (fragment : List Char) :
    Except JwtVerificationError VerificationMethod :=
  match doc.verificationMethod with
  | none => fail "DID document has no verification methods"
  | some methods =>
    match methods.find? (matchesFragment fragment) with
    | some vm => .ok vm
    | none => fail ("Verification method " ++ String.ofList fragment ++ " not found")

def verificationMethodToKeyMaterial (vm : VerificationMethod) (kid : List Char) :
    Except JwtVerificationError KeyMaterial :=
  match vm.publicKeyMultibase with
  | some multibaseKey =>
    match validateMultibaseEd25519 r.bs58Decode multibaseKey with
    | .ok keyBytes => .ok ⟨.der, keyBytes, kid⟩
    | .error e => fail ("Failed to decode publicKeyMultibase: " ++ e.message)
  | none =>
    match vm.publicKeyJwk with
    | some jwk =>
      match r.jsonToVec jwk with
      | .ok jwkBytes => .ok ⟨.jwk, jwkBytes, kid⟩
      | .error e => fail ("Failed to serialize publicKeyJwk: " ++ e)
    | none => fail "No supported public key format found in verification method"

def didUrl (iss kid : List Char) : List Char :=
  if "did:".toList <+: kid then kid
  else if ['#'] <+: kid then iss ++ kid
  else iss ++ '#' :: kid

/-- `resolve_key` up to the conversion of the key: the URL it fetched and the method it chose. -/
def locate (iss kid : List Char) :
    Except JwtVerificationError (List Char × VerificationMethod) := do
  match cut '#' (didUrl iss kid) with
  | none => fail "kid must include fragment identifier"
  | some (baseDid, fragment) =>
    let url ← r.didWebToUrl baseDid
    let doc ← r.fetchDidDocument url
    let vm ← findVerificationMethod doc fragment
    return (url, vm)

def resolveKey (iss kid : List Char) : Except JwtVerificationError KeyMaterial := do
  let (_, vm) ← r.locate iss kid
  r.verificationMethodToKeyMaterial vm kid

/-! ## Which document and which method -/

variable {r}

/-- The id has no `#` but the one before the fragment. -/
def Plain (fragment id : List Char) : Prop :=
  (∀ before, id = before ++ '#' :: fragment → '#' ∉ before) ∧ (id = fragment → '#' ∉ fragment)

end DidWebVerificationKeyResolver
end Facet.Did
