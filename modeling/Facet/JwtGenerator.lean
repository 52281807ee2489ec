import Facet.VaultSigning

/-!
# The JWT generator

`VaultJwtGenerator` with the resolvers that name the transit key of a participant context.
The header's `kid` comes from the resolver or from a read of the key's metadata; the
signature from a second request. The JSON serialiser is a field of the generator.
-/
namespace Facet.Vault
open Text

structure TransitKeyRef where
  keyName : String
  kid : Option String
  deriving DecidableEq, Repr

abbrev TransitKeyResolver := ParticipantContext → Except JwtGenerationError TransitKeyRef

def PrefixTransitKeyResolver (namePrefix : String) : TransitKeyResolver := fun pc =>
  .ok ⟨namePrefix ++ "-" ++ pc.id, none⟩

def FixedTransitKeyResolver (keyName : String) : TransitKeyResolver := fun _ => .ok ⟨keyName, none⟩

structure SigningKeyMapping where
  participantContextId : String
  keyName : String
  kid : String
  deriving DecidableEq, Repr

inductive SigningKeyMappingError
  | notFound (participantContextId : String)
  | alreadyExists (participantContextId : String)
  | storage (message : String)
  deriving DecidableEq, Repr

def SigningKeyMappingError.message : SigningKeyMappingError → String
  | .notFound pc => "No signing key mapping for participant context: " ++ pc
  | .alreadyExists pc => "Signing key mapping already exists for participant context: " ++ pc
  | .storage message => "Storage error: " ++ message

/-- `find` is the lookup of the mapping repository. -/
def MappingTransitKeyResolver (find : String → Except SigningKeyMappingError SigningKeyMapping) :
    TransitKeyResolver := fun pc =>
  match find pc.id with
  | .ok mapping => .ok ⟨mapping.keyName, some mapping.kid⟩
  | .error (.notFound _) =>
    .error (.keyResolution ("no signing key mapping for participant context '" ++ pc.id ++ "'"))
  | .error e => .error (.generationError
      ("failed to resolve signing key mapping for participant context '" ++
        pc.id ++ "': " ++ e.message))

structure VaultJwtGenerator (σ : Type) where
  signingClient : VaultSigningClient σ
  keyResolver : TransitKeyResolver
  claimsToVec : TokenClaims → Except String (List UInt8)
  toVec : Value → Except String (List UInt8)

/-- The `kid` of a version of a key. -/
def versionKid (keyName : String) (version : ℕ) : String := keyName ++ "-" ++ version.repr

/-- The last dash of a `kid` separates the name from the version. -/
theorem versionKid_inj {name other : String} {v w : ℕ}
    (h : versionKid name v = versionKid other w) : name = other ∧ v = w := by
  have hdash : ∀ n : ℕ, '-' ∉ n.repr.toList :=
    fun n hmem => absurd (isDigit_of_mem_repr hmem) (by decide)
  have hcut : ∀ (name : String) (n : ℕ),
      cutLast '-' (versionKid name n).toList = some (name.toList, n.repr.toList) := by
    intro name n
    have happend := cutLast_append name.toList (hdash n)
    simpa [versionKid, String.toList_append] using happend
  have hpair :=
    (hcut name v).symm.trans
      ((congrArg (fun k : String => cutLast '-' k.toList) h).trans (hcut other w))
  rw [Option.some.injEq, Prod.mk.injEq] at hpair
  exact ⟨String.toList_inj.mp hpair.1, Nat.repr_injective (String.toList_inj.mp hpair.2)⟩

theorem versionKid_injective {keyName : String} {v w : ℕ}
    (h : versionKid keyName v = versionKid keyName w) : v = w := (versionKid_inj h).2

namespace VaultJwtGenerator
variable {σ : Type} (g : VaultJwtGenerator σ)

/-- The `kid` of the header. -/
def headerKid (pc : ParticipantContext) (ref : TransitKeyRef) (s : σ) :
    Except JwtGenerationError String × σ :=
  match ref.kid with
  | some kid => (.ok kid, s)
  | none =>
    let (metadata, s') := g.signingClient.getKeyMetadata pc ref.keyName .multibase s
    (match metadata with
      | .ok metadata => .ok (versionKid metadata.keyName metadata.currentVersion)
      | .error e => .error (.vaultError e), s')

def header (kid : String) : Value :=
  .object [("alg", .string "EdDSA"), ("typ", .string "JWT"), ("kid", .string kid)]

/-- Header and payload, encoded and joined; `now` is the reading for `iat`. -/
def signingInput (now : ℤ) (claims : TokenClaims) (kid : String) :
    Except JwtGenerationError String := do
  let payloadBytes ← (g.claimsToVec { claims with iat := now }).mapError fun e =>
    JwtGenerationError.generationError ("Failed to serialize claims: " ++ e)
  let headerBytes ← (g.toVec (header kid)).mapError fun e =>
    JwtGenerationError.generationError ("Failed to serialize header: " ++ e)
  return urlEncode headerBytes ++ "." ++ urlEncode payloadBytes

def asBytes (s : String) : List UInt8 := s.toUTF8.data.toList

/-- The signature over the input, appended to it. -/
def signInput (pc : ParticipantContext) (keyName input : String) (s : σ) :
    Except JwtGenerationError String × σ :=
  let (signature, s') := g.signingClient.signContent pc keyName (asBytes input) s
  (match signature with
    | .ok signatureBytes => .ok (input ++ "." ++ urlEncode signatureBytes)
    | .error e => .error (.vaultError e), s')

def generateToken (now : ℤ) (pc : ParticipantContext) (claims : TokenClaims) (s : σ) :
    Except JwtGenerationError String × σ :=
  match g.keyResolver pc with
  | .error e => (.error e, s)
  | .ok ref =>
    let (kid, s') := g.headerKid pc ref s
    match kid with
    | .error e => (.error e, s')
    | .ok kid =>
      match g.signingInput now claims kid with
      | .error e => (.error e, s')
      | .ok input => g.signInput pc ref.keyName input s'

end VaultJwtGenerator
end Facet.Vault
