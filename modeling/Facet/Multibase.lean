import Facet.Base58
import Facet.CheckedArithmetic
import Facet.Did
import Facet.VaultSigning

/-!
# Multibase keys

`convert_to_multibase` and `validate_multibase_ed25519` with their slices, indices and vectors as
operations that can panic. The base58 codec is a parameter.
-/
namespace Facet.Multibase
open Arith Vault

/-! ## Slices and vectors -/

/-- `&text[n..]`; the index counts bytes and has to be where a character starts, or the end. -/
def sliceFrom : ℕ → List Char → Checked (List Char)
  | 0, cs => .ok cs
  | n + 1, [] => .error ⟨"byte index " ++ toString (n + 1) ++ " is out of bounds"⟩
  | n + 1, c :: cs =>
    if c.utf8Size ≤ n + 1 then sliceFrom (n + 1 - c.utf8Size) cs
    else .error ⟨"byte index " ++ toString (n + 1) ++ " is not a char boundary"⟩

/-- `bytes[i]`. -/
def index (bytes : List UInt8) (i : ℕ) : Checked UInt8 :=
  match bytes[i]? with
  | some b => .ok b
  | none => .error ⟨"index out of bounds"⟩

/-- `&bytes[n..]`. -/
def bytesFrom (bytes : List UInt8) (n : ℕ) : Checked (List UInt8) :=
  if n ≤ bytes.length then .ok (bytes.drop n)
  else .error ⟨"range start index out of range for slice"⟩

/-- A vector holds fewer than 2^63 bytes. -/
def extendFromSlice (bytes slice : List UInt8) : Checked (List UInt8) :=
  if bytes.length + slice.length < 2 ^ 63 then .ok (bytes ++ slice)
  else .error ⟨"capacity overflow"⟩

def convertToMultibase (bs58Encode : List UInt8 → String) (publicKeyBase64 : String) :
    Checked (Except VaultError String) :=
  match standardDecode publicKeyBase64 with
  | none => .ok (.error (.invalidData "Invalid key format"))
  | some keyBytes =>
    if keyBytes.length ≠ 32 then
      .ok (.error
        (.invalidData ("Invalid Ed25519 key size: expected 32 bytes, got " ++
          toString keyBytes.length)))
    else do
      let prefixedKey ← extendFromSlice [0xed, 0x01] keyBytes
      return .ok ("z" ++ bs58Encode prefixedKey)

def validateMultibaseEd25519 (bs58Decode : List Char → Except String (List UInt8))
    (multibaseKey : String) : Checked (Except VaultError (List UInt8)) :=
  if multibaseKey.toList.head? ≠ some 'z' then
    .ok (.error (.invalidData "Invalid multibase format: expected 'z' prefix for base58btc"))
  else do
    let encoded ← sliceFrom 1 multibaseKey.toList
    match bs58Decode encoded with
    | .error e => return .error (.invalidData ("Failed to decode base58: " ++ e))
    | .ok decoded =>
      if decoded.length < 3 then
        return .error (.invalidData "Invalid key: too short to contain multicodec prefix")
      else
        -- the second byte is read by the comparison, or else by the message
        let b₀ ← index decoded 0
        let b₁ ← index decoded 1
        if b₀ ≠ 0xed ∨ b₁ ≠ 0x01 then
          return .error
            (.invalidData ("Invalid multicodec prefix: expected [0xed, 0x01] for Ed25519, got [" ++
              Did.validateMultibaseEd25519.hex b₀ ++ ", " ++
                Did.validateMultibaseEd25519.hex b₁ ++ "]"))
        else
          let keyBytes ← bytesFrom decoded 2
          if keyBytes.length ≠ 32 then
            return .error (.invalidData
              ("Invalid Ed25519 key size: expected 32 bytes, got " ++ toString keyBytes.length))
          else return .ok keyBytes

/-! ## No panics -/

theorem convertToMultibase_eq (bs58Encode : List UInt8 → String) (publicKeyBase64 : String) :
    convertToMultibase bs58Encode publicKeyBase64 =
      .ok (Vault.convertToMultibase bs58Encode publicKeyBase64) := by
  unfold convertToMultibase Vault.convertToMultibase
  cases standardDecode publicKeyBase64 with
  | none => rfl
  | some keyBytes =>
    by_cases hlen : keyBytes.length = 32
    · have hroom : [0xed, 0x01].length + keyBytes.length < 2 ^ 63 := by simp [hlen]
      simp [hlen, extendFromSlice, okOr, bind, Except.bind, pure, Except.pure]
    · simp [hlen, okOr, bind, Except.bind, throw, throwThe, MonadExceptOf.throw]

theorem sliceFrom_one {c : Char} (hsize : c.utf8Size = 1) (cs : List Char) :
    sliceFrom 1 (c :: cs) = .ok cs := by
  rw [sliceFrom, if_pos (by omega), hsize]
  simp [sliceFrom]

/-- The text starts with a character of one byte, and bytes are read after the length check: the
code has the outcome that the resolver's model gives it. -/
theorem validateMultibaseEd25519_eq (bs58Decode : List Char → Except String (List UInt8))
    (multibaseKey : String) : validateMultibaseEd25519 bs58Decode multibaseKey =
      .ok (Did.validateMultibaseEd25519 bs58Decode multibaseKey.toList) := by
  unfold validateMultibaseEd25519
  generalize multibaseKey.toList = text
  cases text with
  | nil => rfl
  | cons c encoded =>
    by_cases hz : c = 'z'
    · subst hz
      rw [if_neg (by simp), sliceFrom_one (by rfl), Did.validateMultibaseEd25519]
      cases hdecode : bs58Decode encoded with
      | error e => simp [hdecode, bind, Except.bind, pure, Except.pure]
      | ok decoded =>
        rcases decoded with _ | ⟨b₀, _ | ⟨b₁, _ | ⟨b₂, rest⟩⟩⟩
        · simp [hdecode, bind, Except.bind, pure, Except.pure]
        · simp [hdecode, bind, Except.bind, pure, Except.pure]
        · simp [hdecode, bind, Except.bind, pure, Except.pure]
        · have hbytes : bytesFrom (b₀ :: b₁ :: b₂ :: rest) 2 = .ok (b₂ :: rest) := by
            simp [bytesFrom]
          have hlong : ¬ (b₀ :: b₁ :: b₂ :: rest).length < 3 := by simp
          simp only [hdecode, bind, Except.bind, pure, Except.pure, hlong, if_false, hbytes,
            show index (b₀ :: b₁ :: b₂ :: rest) 0 = .ok b₀ from rfl,
            show index (b₀ :: b₁ :: b₂ :: rest) 1 = .ok b₁ from rfl]
          by_cases hcodec : b₀ ≠ 0xed ∨ b₁ ≠ 0x01
          · rw [if_pos hcodec, if_pos hcodec]
          · rw [if_neg hcodec, if_neg hcodec]
            by_cases hlen : (b₂ :: rest).length ≠ 32
            · rw [if_pos hlen, if_pos hlen]
            · rw [if_neg hlen, if_neg hlen]
    · rw [if_pos (by simpa using hz)]
      unfold Did.validateMultibaseEd25519
      split
      · rename_i heq
        exact absurd (List.cons.inj heq).1 hz
      · rfl

/-! ## Encoder and decoder -/

/-- Encoding and decoding are inverse to each other. -/
structure LawfulBs58 (bs58Encode : List UInt8 → String)
    (bs58Decode : List Char → Except String (List UInt8)) : Prop where
  decode_encode : ∀ bytes, bs58Decode (bs58Encode bytes).toList = .ok bytes
  encode_decode : ∀ text bytes, bs58Decode text = .ok bytes → (bs58Encode bytes).toList = text

theorem did_validate_eq_ok_iff {bs58Decode : List Char → Except String (List UInt8)}
    {text : List Char} {key : List UInt8} : Did.validateMultibaseEd25519 bs58Decode text = .ok key ↔
      ∃ encoded, text = 'z' :: encoded ∧ bs58Decode encoded = .ok (0xed :: 0x01 :: key) ∧
        key.length = 32 := by
  constructor
  · intro hvalid
    unfold Did.validateMultibaseEd25519 at hvalid
    split at hvalid
    · rename_i encoded
      refine ⟨encoded, rfl, ?_⟩
      split at hvalid
      · exact absurd hvalid (by simp)
      · rename_i b₀ b₁ b₂ rest hdecode
        split_ifs at hvalid with hcodec hlen
        obtain rfl := Except.ok.inj hvalid
        rw [not_or, not_not, not_not] at hcodec
        rw [hdecode, hcodec.1, hcodec.2]
        exact ⟨rfl, not_not.mp hlen⟩
      · exact absurd hvalid (by simp)
    · exact absurd hvalid (by simp)
  · rintro ⟨encoded, rfl, hdecode, hlen⟩
    cases key with
    | nil => simp at hlen
    | cons b rest =>
      simp only [Did.validateMultibaseEd25519, hdecode]
      rw [if_neg (by simp), if_neg (not_not.mpr hlen)]

theorem vault_convert_eq_ok_iff {bs58Encode : List UInt8 → String} {publicKeyBase64 text : String} :
    Vault.convertToMultibase bs58Encode publicKeyBase64 = .ok text ↔
      ∃ key, standardDecode publicKeyBase64 = some key ∧ key.length = 32 ∧
        text = "z" ++ bs58Encode (0xed :: 0x01 :: key) := by
  unfold Vault.convertToMultibase
  cases hdecode : standardDecode publicKeyBase64 with
  | none => simp [okOr, bind, Except.bind]
  | some key =>
    by_cases hlen : key.length = 32
    · simp [okOr, hlen, bind, Except.bind, pure, Except.pure, eq_comm]
    · simp [okOr, hlen, bind, Except.bind, throw, throwThe, MonadExceptOf.throw]

theorem toList_z (text : String) : ("z" ++ text).toList = 'z' :: text.toList := by
  rw [String.toList_append]
  rfl

theorem exists_error_of_ne_ok {ε α : Type} {outcome : Except ε α} (hne : ∀ a, outcome ≠ .ok a) :
    ∃ e, outcome = .error e := by
  cases outcome with
  | error e => exact ⟨e, rfl⟩
  | ok a => exact absurd rfl (hne a)

section Codec
variable {bs58Encode : List UInt8 → String} {bs58Decode : List Char → Except String (List UInt8)}

theorem length_of_validate_ok {text : String} {key : List UInt8}
    (hvalid : validateMultibaseEd25519 bs58Decode text = .ok (.ok key)) : key.length = 32 := by
  rw [validateMultibaseEd25519_eq] at hvalid
  obtain ⟨encoded, -, -, hlen⟩ := did_validate_eq_ok_iff.mp (Except.ok.inj hvalid)
  exact hlen

theorem convert_rejects {text : String} {key : List UInt8}
    (hdecode : standardDecode text = some key) (hlen : key.length ≠ 32) :
    ∃ e, convertToMultibase bs58Encode text = .ok (.error e) := by
  obtain ⟨e, herror⟩ : ∃ e, Vault.convertToMultibase bs58Encode text = .error e := by
    apply exists_error_of_ne_ok
    intro multibase hconvert
    obtain ⟨key', hdecode', hlen', -⟩ := vault_convert_eq_ok_iff.mp hconvert
    obtain rfl := Option.some.inj (hdecode.symm.trans hdecode')
    exact hlen hlen'
  exact ⟨e, by rw [convertToMultibase_eq, herror]⟩

variable (hlawful : LawfulBs58 bs58Encode bs58Decode)
include hlawful

theorem validate_of_convert {key : List UInt8} (hlen : key.length = 32) :
    ∃ text, convertToMultibase bs58Encode (standardEncode key) = .ok (.ok text) ∧
      validateMultibaseEd25519 bs58Decode text = .ok (.ok key) := by
  refine ⟨"z" ++ bs58Encode (0xed :: 0x01 :: key), ?_, ?_⟩
  · rw [convertToMultibase_eq,
      vault_convert_eq_ok_iff.mpr ⟨key, standardDecode_encode key, hlen, rfl⟩]
  · rw [validateMultibaseEd25519_eq, toList_z,
      did_validate_eq_ok_iff.mpr ⟨_, rfl, hlawful.decode_encode (0xed :: 0x01 :: key), hlen⟩]

theorem convert_of_validate {text : String} {key : List UInt8}
    (hvalid : validateMultibaseEd25519 bs58Decode text = .ok (.ok key)) :
    convertToMultibase bs58Encode (standardEncode key) = .ok (.ok text) := by
  rw [validateMultibaseEd25519_eq] at hvalid
  obtain ⟨encoded, htext, hdecode, hlen⟩ := did_validate_eq_ok_iff.mp (Except.ok.inj hvalid)
  have hsame : "z" ++ bs58Encode (0xed :: 0x01 :: key) = text := by
    apply String.toList_injective
    rw [toList_z, hlawful.encode_decode encoded _ hdecode, htext]
  rw [convertToMultibase_eq,
    vault_convert_eq_ok_iff.mpr ⟨key, standardDecode_encode key, hlen, hsame.symm⟩]

theorem validate_rejects {text : String} {key : List UInt8}
    (htext : text.toList = 'z' :: (bs58Encode (0xed :: 0x01 :: key)).toList)
    (hlen : key.length ≠ 32) : ∃ e, validateMultibaseEd25519 bs58Decode text = .ok (.error e) := by
  obtain ⟨e, herror⟩ : ∃ e, Did.validateMultibaseEd25519 bs58Decode text.toList = .error e := by
    apply exists_error_of_ne_ok
    intro key' hvalid
    obtain ⟨encoded, htext', hdecode, hlen'⟩ := did_validate_eq_ok_iff.mp hvalid
    obtain ⟨-, rfl⟩ := List.cons.inj (htext.symm.trans htext')
    rw [hlawful.decode_encode] at hdecode
    obtain rfl : key = key' := by simpa using hdecode
    exact hlen hlen'
  exact ⟨e, by rw [validateMultibaseEd25519_eq, herror]⟩

end Codec

/-- Keys of 32 bytes are read back from their encoding, what is accepted is the encoding of its
result, other keys are rejected on both ways, and no text makes either function panic. -/
theorem multibase_round_trip {bs58Encode : List UInt8 → String}
    {bs58Decode : List Char → Except String (List UInt8)}
    (hlawful : LawfulBs58 bs58Encode bs58Decode) : (∀ key : List UInt8, key.length = 32 → ∃ text,
      convertToMultibase bs58Encode (standardEncode key) = .ok (.ok text) ∧
        validateMultibaseEd25519 bs58Decode text = .ok (.ok key)) ∧
    (∀ text key, validateMultibaseEd25519 bs58Decode text = .ok (.ok key) →
      convertToMultibase bs58Encode (standardEncode key) = .ok (.ok text)) ∧
    (∀ key : List UInt8, key.length ≠ 32 →
      (∀ text, standardDecode text = some key →
        ∃ e, convertToMultibase bs58Encode text = .ok (.error e)) ∧
      (∀ text, text.toList = 'z' :: (bs58Encode (0xed :: 0x01 :: key)).toList →
        ∃ e, validateMultibaseEd25519 bs58Decode text = .ok (.error e)) ∧
      ∀ text, validateMultibaseEd25519 bs58Decode text ≠ .ok (.ok key)) ∧
    (∀ text, ∃ outcome, convertToMultibase bs58Encode text = .ok outcome) ∧
    ∀ text, ∃ outcome, validateMultibaseEd25519 bs58Decode text = .ok outcome := by
  refine ⟨?_, ?_, ?_, ?_, ?_⟩
  · intro key hlen
    exact validate_of_convert hlawful hlen
  · intro text key hvalid
    exact convert_of_validate hlawful hvalid
  · intro key hlen
    refine ⟨fun text hdecode => convert_rejects hdecode hlen, fun text htext =>
      validate_rejects hlawful htext hlen, ?_⟩
    intro text hvalid
    exact hlen (length_of_validate_ok hvalid)
  · intro text
    exact ⟨_, convertToMultibase_eq bs58Encode text⟩
  · intro text
    exact ⟨_, validateMultibaseEd25519_eq bs58Decode text⟩

/-- A key that Vault publishes in this format is the one that a resolver takes from a document. -/
theorem published_key_resolved (r : Did.DidWebVerificationKeyResolver)
    {bs58Encode : List UInt8 → String} (hlawful : LawfulBs58 bs58Encode r.bs58Decode)
    {publicKey : List UInt8} (hlen : publicKey.length = 32) {vm : Did.VerificationMethod}
    (hvm : vm.publicKeyMultibase = some (keyText bs58Encode publicKey .multibase).toList)
    (kid : List Char) : r.verificationMethodToKeyMaterial vm kid = .ok ⟨.der, publicKey, kid⟩ := by
  have hvalid : Did.validateMultibaseEd25519 r.bs58Decode
      (keyText bs58Encode publicKey .multibase).toList =
      .ok publicKey := by
    rw [keyText, toList_z]
    exact did_validate_eq_ok_iff.mpr
      ⟨_, rfl, hlawful.decode_encode (0xed :: 0x01 :: publicKey), hlen⟩
  simp only [Did.DidWebVerificationKeyResolver.verificationMethodToKeyMaterial, hvm, hvalid]

/-! ## Base58 -/

def base58Encode (bytes : List UInt8) : String := String.ofList (Base58.encode bytes)

def base58Decode (text : List Char) : Except String (List UInt8) :=
  okOr (Base58.decode text) "provided string contained invalid character"

theorem lawfulBs58_base58 : LawfulBs58 base58Encode base58Decode where
  decode_encode bytes := by
    rw [base58Encode, base58Decode, String.toList_ofList, Base58.decode_encode]
    rfl
  encode_decode text bytes hdecode := by
    rw [base58Encode, String.toList_ofList]
    unfold base58Decode at hdecode
    cases htext : Base58.decode text with
    | none => simp [htext, okOr] at hdecode
    | some bytes' =>
      obtain rfl : bytes' = bytes := by simpa [htext, okOr] using hdecode
      exact Base58.encode_of_decode htext

def demoKey : List UInt8 := List.replicate 32 7

theorem demoKey_read_back :
    ∃ text, convertToMultibase base58Encode (standardEncode demoKey) = .ok (.ok text) ∧
      validateMultibaseEd25519 base58Decode text = .ok (.ok demoKey) :=
  (multibase_round_trip lawfulBs58_base58).1 demoKey (by decide)

end Facet.Multibase
