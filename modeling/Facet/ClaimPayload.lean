import Facet.ClaimMapper
import Facet.FlowIssuance
import Facet.TransferTypes
import Facet.TokenInterleaving

/-!
# The payload of a token

`TokenClaims` as a JSON document: the registered claims, then the custom ones flattened beside
them. The names that a claim mapping may not have, the ones that the token manager refuses and
the ones that the reader keeps for itself are three lists. Numbers of the document are integers
when they have no exponent.
-/
namespace Facet

inductive DecodeError
  | duplicateField (field : String)
  | missingField (field : String)
  | invalidType (field : String)
  deriving DecidableEq, Repr

def readString (field : String) : Value → Except DecodeError String
  | .string s => .ok s
  | _ => .error (.invalidType field)

def readI64 (field : String) : Value → Except DecodeError ℤ
  | .number mantissa 0 =>
    if -2 ^ 63 ≤ mantissa ∧ mantissa < 2 ^ 63 then .ok mantissa else .error (.invalidType field)
  | _ => .error (.invalidType field)

def readOption {α : Type} (read : Value → Except DecodeError α) :
    Value → Except DecodeError (Option α)
  | .null => .ok none
  | v => (read v).map some

namespace TokenClaims

/-- The members of the fields, in the order of the struct. An absent `nbf` is left out. -/
def named (claims : TokenClaims) : List (String × Value) :=
  [("sub", .string claims.sub), ("iss", .string claims.iss), ("aud", .string claims.aud),
    ("iat", .number claims.iat 0), ("exp", .number claims.exp 0)] ++
  (claims.nbf.map fun nbf => ("nbf", Value.number nbf 0)).toList

/-- The document: the custom claims are flattened beside the fields. -/
def members (claims : TokenClaims) : List (String × Value) := claims.named ++ claims.custom.entries

/-- What has been read of a document so far. -/
structure Fields where
  sub : Option String := none
  iss : Option String := none
  aud : Option String := none
  iat : Option ℤ := none
  exp : Option ℤ := none
  nbf : Option (Option ℤ) := none
  custom : HashMap String Value := HashMap.empty

/-- A field of the struct may come once. -/
def place {α : Type} (field : String) (slot : Option α) (value : Except DecodeError α) :
    Except DecodeError (Option α) :=
  if slot.isSome then .error (.duplicateField field) else value.map some

/-- A member that is no field of the struct is a custom claim, the last one of a name. -/
def visit (fields : Fields) (member : String × Value) : Except DecodeError Fields :=
  let (key, value) := member
  if key = "sub" then (place key fields.sub (readString key value)).map fun sub =>
    { fields with sub := sub }
  else if key = "iss" then (place key fields.iss (readString key value)).map fun iss =>
    { fields with iss := iss }
  else if key = "aud" then (place key fields.aud (readString key value)).map fun aud =>
    { fields with aud := aud }
  else if key = "iat" then (place key fields.iat (readI64 key value)).map fun iat =>
    { fields with iat := iat }
  else if key = "exp" then (place key fields.exp (readI64 key value)).map fun exp =>
    { fields with exp := exp }
  else if key = "nbf" then
    (place key fields.nbf (readOption (readI64 key) value)).map fun nbf =>
      { fields with nbf := nbf }
  else .ok { fields with custom := fields.custom.insert key value }

/-- Every field but `nbf` must be there. -/
def Fields.finish (fields : Fields) : Except DecodeError TokenClaims := do
  let sub ← okOr fields.sub (.missingField "sub")
  let iss ← okOr fields.iss (.missingField "iss")
  let aud ← okOr fields.aud (.missingField "aud")
  let iat ← okOr fields.iat (.missingField "iat")
  let exp ← okOr fields.exp (.missingField "exp")
  return { sub := sub, iss := iss, aud := aud, iat := iat, exp := exp, nbf :=
    fields.nbf.join, custom := fields.custom }

/-- The names of the struct. -/
def fieldNames : List String := ["sub", "iss", "aud", "iat", "exp", "nbf"]

/-- No custom claim has the name of a field. -/
def Unshadowed (claims : TokenClaims) : Prop := ∀ field ∈ fieldNames, claims.custom.get field = none

theorem Unshadowed.entries {claims : TokenClaims} (hunshadowed : claims.Unshadowed) :
    ∀ entry ∈ claims.custom.entries, entry.1 ∉ fieldNames := by
  intro entry hentry hfield
  have hget := (HashMap.get_eq_some_iff claims.custom).mpr hentry
  rw [hunshadowed entry.1 hfield] at hget
  exact absurd hget (by simp)

end TokenClaims

/-! ## Accepted claims -/

namespace Renewable

end Renewable

namespace Siglet
open Renewable

end Siglet

/-! ## The payload -/

namespace Vault
open Renewable

/-- The JSON library reads the document of the claims in what it has written of them. -/
def ReadsBack {σ : Type} (g : VaultJwtGenerator σ) (read : List UInt8 → Option Value) : Prop :=
  ∀ claims bytes, g.claimsToVec claims = .ok bytes → read bytes = some (.object claims.members)

section Generator
variable {σ : Type} {g : VaultJwtGenerator σ} {read : List UInt8 → Option Value}

end Generator
end Vault

/-! ## The claims of stored entries -/

namespace Renewable.Interleaved

/-- No entry that is stored by its hash or held by a call has a reserved claim. -/
structure Accepted (s : State) : Prop where
  stored : ∀ key e, s.store.entriesByHash.get key = some e → validateCustomClaims e.claims = .ok ()
  held : ∀ c call i, s.calls.get c = some call → call.presented = some i ∨ call.prepared = some i →
    validateCustomClaims i.entry.claims = .ok ()

section Step
variable {m : JwtTokenManager} {s : State}

theorem Accepted.fail (haccepted : Accepted s) {u : State} (hstore : u.store = s.store)
    (hcalls : u.calls = s.calls) (c : ℕ) (e : TokenError) : Accepted (u.fail c e) where
  stored := by
    intro key e hget
    exact haccepted.stored key e (hstore ▸ hget)
  held := by
    intro d call i hd hi
    rw [State.fail, hcalls] at hd
    exact haccepted.held d call i (HashMap.get_remove_eq_some hd).2 hi

theorem Accepted.goto (haccepted : Accepted s) {u : State} {c : ℕ} {call : Call}
    (hstore : u.store = s.store) (hcalls : u.calls = s.calls.insert c call)
    (hcall : ∀ i, call.presented = some i ∨ call.prepared = some i →
      validateCustomClaims i.entry.claims = .ok ()) :
    Accepted u where
  stored := by
    intro key e hget
    exact haccepted.stored key e (hstore ▸ hget)
  held := by
    intro d other i hd hi
    rw [hcalls] at hd
    rcases HashMap.get_insert_eq_some hd with ⟨rfl, rfl⟩ | ⟨-, hsame⟩
    · exact hcall i hi
    · exact haccepted.held d other i hsame hi

theorem Accepted.finish (haccepted : Accepted s) {u : State} {c : ℕ}
    (hcalls : u.calls = s.calls.remove c)
    (hstored : ∀ key e, u.store.entriesByHash.get key = some e →
      validateCustomClaims e.claims = .ok ()) :
    Accepted u where
  stored := hstored
  held := by
    intro d call i hd hi
    rw [hcalls] at hd
    exact haccepted.held d call i (HashMap.get_remove_eq_some hd).2 hi

end Step
end Renewable.Interleaved

namespace Siglet
open Renewable Vault

end Siglet
end Facet
