import Facet.HashMap

/-!
# Participant contexts, JWT claims and token errors

The data shared by the token manager, the token client and the verifiers.
-/
namespace Facet

/-- `identifier` is the external name (a web DID), `audience` what its tokens are checked
against. -/
structure ParticipantContext where
  id : String
  identifier : String := "anonymous"
  audience : String := "anonymous"
  deriving DecidableEq, Repr

/-- JSON values. A number is its decimal mantissa and exponent. -/
inductive Value
  | null
  | bool (b : Bool)
  | number (mantissa exponent : ℤ)
  | string (s : String)
  | array (items : List Value)
  | object (fields : List (String × Value))

def Value.asStr : Value → Option String
  | .string s => some s
  | _ => none

/-- Comparison of a JSON value with a text: only a string can be equal to it. -/
def Value.eqStr (v : Value) (s : String) : Bool := decide (v.asStr = some s)

theorem Value.eqStr_iff {v : Value} {s : String} : v.eqStr s = true ↔ v = .string s := by
  cases v <;> simp [Value.eqStr, Value.asStr]

structure TokenClaims where
  sub : String
  iss : String := ""
  aud : String
  iat : ℤ := 0
  exp : ℤ
  nbf : Option ℤ := none
  custom : HashMap String Value := HashMap.empty

inductive VaultError
  | secretNotFound (path : String)
  | networkError (message : String)
  | authenticationError (message : String)
  | permissionDenied (message : String)
  | invalidData (message : String)
  | notInitializedError (message : String)
  | tokenFileNotFound (message : String)
  | tokenFileReadError (message : String)
  | invalidTokenFormat (message : String)
  deriving DecidableEq, Repr

def VaultError.message : VaultError → String
  | .secretNotFound path => "Secret not found: " ++ path
  | .networkError message => "Network error: " ++ message
  | .authenticationError message => "Authentication error: " ++ message
  | .permissionDenied message => "Permission denied: " ++ message
  | .invalidData message => "Invalid data: " ++ message
  | .notInitializedError message => "Client not initialized: " ++ message
  | .tokenFileNotFound message => "Token file not found: " ++ message
  | .tokenFileReadError message => "Token file read error: " ++ message
  | .invalidTokenFormat message => "Invalid token format: " ++ message

inductive JwtGenerationError
  | generationError (message : String)
  | keyResolution (message : String)
  | vaultError (error : VaultError)
  deriving DecidableEq, Repr

def JwtGenerationError.message : JwtGenerationError → String
  | .generationError message => "Failed to generate token: " ++ message
  | .keyResolution message => "Failed to resolve signing key: " ++ message
  | .vaultError e => "Vault error during token generation: " ++ e.message

inductive JwtVerificationError
  | invalidSignature
  | tokenExpired
  | tokenNotYetValid
  | invalidFormat
  | verificationFailed (message : String)
  | generalError (message : String)
  deriving DecidableEq, Repr

def JwtVerificationError.message : JwtVerificationError → String
  | .invalidSignature => "Invalid token signature"
  | .tokenExpired => "Token has expired"
  | .tokenNotYetValid => "Token is not yet valid"
  | .invalidFormat => "Invalid token format"
  | .verificationFailed message => "Verification error: " ++ message
  | .generalError message => "General error: " ++ message

inductive TokenError
  | notAuthorized (message : String)
  | invalid
  | tokenNotFound (identifier : String)
  | databaseError (message : String)
  | generalError (message : String)
  | networkError (message : String)
  | generationError (error : JwtGenerationError)
  | verificationError (error : JwtVerificationError)
  deriving DecidableEq, Repr

def TokenError.message : TokenError → String
  | .notAuthorized message => "Not authorized: " ++ message
  | .invalid => "Invalid token"
  | .tokenNotFound identifier => "Token not found for identifier: " ++ identifier
  | .databaseError message => "Database error: " ++ message
  | .generalError message => "General token error: " ++ message
  | .networkError message => "Network error: " ++ message
  | .generationError e => "Generation failed: " ++ e.message
  | .verificationError e => "Verification failed: " ++ e.message

universe u

/-- A chain of fallible steps succeeds only through the success of each step. -/
theorem bind_eq_ok {ε : Type*} {α β : Type u} {x : Except ε α} {f : α → Except ε β} {r : β} :
    (x >>= f) = .ok r ↔ ∃ a, x = .ok a ∧ f a = .ok r := by
  cases x with
  | error e => simp [bind, Except.bind]
  | ok a => simp [bind, Except.bind]

/-- It fails by the first step that fails. -/
theorem bind_eq_error {ε : Type*} {α β : Type u} {x : Except ε α} {f : α → Except ε β} {e : ε} :
    (x >>= f) = .error e ↔ x = .error e ∨ ∃ a, x = .ok a ∧ f a = .error e := by
  cases x with
  | error e => simp [bind, Except.bind]
  | ok a => simp [bind, Except.bind]

/-- `ok_or`. -/
def okOr {ε : Type*} {α : Type u} (o : Option α) (e : ε) : Except ε α :=
  match o with
  | some a => .ok a
  | none => .error e

theorem okOr_eq_ok {ε : Type*} {α : Type u} {o : Option α} {e : ε} {a : α} :
    okOr o e = .ok a ↔ o = some a := by
  cases o with
  | none => simp [okOr]
  | some b => simp [okOr]

theorem okOr_eq_error {ε : Type*} {α : Type u} {o : Option α} {e e' : ε} :
    okOr o e = .error e' ↔ o = none ∧ e = e' := by
  cases o with
  | none => simp [okOr]
  | some b => simp [okOr]

theorem mapError_eq_ok {ε ε' : Type*} {α : Type u} {x : Except ε α} {f : ε → ε'} {a : α} :
    x.mapError f = .ok a ↔ x = .ok a := by
  cases x with
  | error e => simp [Except.mapError]
  | ok b => simp [Except.mapError]

theorem mapError_eq_error {ε ε' : Type*} {α : Type u} {x : Except ε α} {f : ε → ε'} {e' : ε'} :
    x.mapError f = .error e' ↔ ∃ e, x = .error e ∧ f e = e' := by
  cases x with
  | error e => simp [Except.mapError]
  | ok b => simp [Except.mapError]

@[simp] theorem throw_ne_ok {ε : Type*} {α : Type u} (e : ε) (a : α) :
    (throw e : Except ε α) ≠ .ok a := by
  simp [throw, throwThe, MonadExceptOf.throw]

@[simp] theorem throw_bind_ne_ok {ε : Type*} {α β : Type u} (e : ε) (f : α → Except ε β) (b : β) :
    ((throw e : Except ε α) >>= f) ≠ .ok b := by
  simp [throw, throwThe, MonadExceptOf.throw, bind, Except.bind]

/-- The two error conversions that `?` applies. -/
def liftGeneration {α : Type*} : Except JwtGenerationError α → Except TokenError α
  | .ok a => .ok a
  | .error e => .error (.generationError e)

def liftVerification {α : Type*} : Except JwtVerificationError α → Except TokenError α
  | .ok a => .ok a
  | .error e => .error (.verificationError e)

theorem liftGeneration_eq_ok {α : Type*} {x : Except JwtGenerationError α} {a : α} :
    liftGeneration x = .ok a ↔ x = .ok a := by
  cases x <;> simp [liftGeneration]

theorem liftVerification_eq_ok {α : Type*} {x : Except JwtVerificationError α} {a : α} :
    liftVerification x = .ok a ↔ x = .ok a := by
  cases x <;> simp [liftVerification]

end Facet
