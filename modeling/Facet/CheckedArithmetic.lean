import Mathlib

/-!
# Checked arithmetic

Sums and powers of 64-bit integers, durations and dates, with the ranges outside of which a
computation panics. Signed durations and dates are counted in milliseconds; dates reach from the
start of the year -262143 to the end of the year 262142. Unsigned durations are counted in
nanoseconds.
-/
namespace Facet.Arith

structure Panic where
  message : String
  deriving DecidableEq, Repr

/-- The outcome of a computation that can panic. -/
abbrev Checked (α : Type) := Except Panic α

def FitsI64 (x : ℤ) : Prop := -2 ^ 63 ≤ x ∧ x < 2 ^ 63

instance (x : ℤ) : Decidable (FitsI64 x) := inferInstanceAs (Decidable (_ ∧ _))

/-- Milliseconds since the epoch that a date can stand for. -/
def IsDate (t : ℤ) : Prop := -8334601228800000 ≤ t ∧ t ≤ 8210266876799999

instance (t : ℤ) : Decidable (IsDate t) := inferInstanceAs (Decidable (_ ∧ _))

def addI64 (a b : ℤ) : Checked ℤ :=
  if FitsI64 (a + b) then .ok (a + b) else .error ⟨"attempt to add with overflow"⟩

def TimeDelta.seconds (seconds : ℤ) : Checked ℤ :=
  if -9223372036854775 ≤ seconds ∧ seconds ≤ 9223372036854775 then .ok (1000 * seconds)
  else .error ⟨"TimeDelta::seconds out of bounds"⟩

def TimeDelta.milliseconds (milliseconds : ℤ) : Checked ℤ :=
  if -2 ^ 63 < milliseconds then .ok milliseconds
  else .error ⟨"TimeDelta::milliseconds out of bounds"⟩

namespace DateTime

/-- Whole seconds, rounded down. -/
def timestamp (t : ℤ) : ℤ := t / 1000

def add (t delta : ℤ) : Checked ℤ :=
  if IsDate (t + delta) then .ok (t + delta) else .error ⟨"DateTime + TimeDelta overflowed"⟩

def sub (t delta : ℤ) : Checked ℤ :=
  if IsDate (t - delta) then .ok (t - delta) else .error ⟨"DateTime - TimeDelta overflowed"⟩

end DateTime

/-- A checked operation has its value where the check passes. -/
theorem checked_eq_ok {p : Prop} [Decidable p] {a x : ℤ} {panic : Panic} :
    (if p then (.ok a : Checked ℤ) else .error panic) = .ok x ↔ p ∧ x = a := by
  by_cases hp : p <;> simp [hp, eq_comm]

theorem addI64_eq_ok {a b x : ℤ} : addI64 a b = .ok x ↔ FitsI64 (a + b) ∧ x = a + b := checked_eq_ok

theorem seconds_eq_ok {s x : ℤ} :
    TimeDelta.seconds s = .ok x ↔ (-9223372036854775 ≤ s ∧ s ≤ 9223372036854775) ∧
      x = 1000 * s := checked_eq_ok

theorem milliseconds_eq_ok {ms x : ℤ} : TimeDelta.milliseconds ms = .ok x ↔ -2 ^ 63 < ms ∧
    x = ms := checked_eq_ok

theorem add_eq_ok {t delta x : ℤ} : DateTime.add t delta = .ok x ↔ IsDate (t + delta) ∧
    x = t + delta := checked_eq_ok

theorem sub_eq_ok {t delta x : ℤ} : DateTime.sub t delta = .ok x ↔ IsDate (t - delta) ∧
    x = t - delta := checked_eq_ok

theorem bmod_of_fitsI64 {x : ℤ} (hfits : FitsI64 x) : Int.bmod x (2 ^ 64) = x := by
  obtain ⟨hlow, hhigh⟩ := hfits
  exact Int.bmod_eq_of_le (by omega) (by omega)

/-! ## Powers and unsigned durations -/

/-- Without overflow checks the power wraps. -/
def powU64 (checks : Bool) (base : UInt64) (exponent : ℕ) : Checked UInt64 :=
  if checks = true ∧ 2 ^ 64 ≤ base.toNat ^ exponent then
    .error ⟨"attempt to multiply with overflow"⟩
  else .ok (UInt64.ofNat (base.toNat ^ exponent))

/-- Less than a nanosecond is missing to `2 ^ 64` seconds. -/
def maxNanos : ℕ := 2 ^ 64 * 10 ^ 9 - 1

structure Duration where
  nanos : ℕ
  le_max : nanos ≤ maxNanos
  deriving DecidableEq

namespace Duration

theorem ext_nanos {d d' : Duration} (h : d.nanos = d'.nanos) : d = d' := by
  cases d
  cases d'
  simpa using h

def fromSecs (secs : UInt64) : Duration where
  nanos := secs.toNat * 10 ^ 9
  le_max := by
    have hsecs := secs.toNat_lt
    unfold maxNanos
    omega

def mulU32 (d : Duration) (factor : UInt32) : Checked Duration :=
  if h : d.nanos * factor.toNat ≤ maxNanos then .ok ⟨d.nanos * factor.toNat, h⟩
  else .error ⟨"overflow when multiplying duration by scalar"⟩

/-- The product, or the longest duration. -/
def saturatingMul (d : Duration) (factor : ℕ) : Duration where
  nanos := min (d.nanos * factor) maxNanos
  le_max := min_le_right _ _

theorem mulU32_eq_saturatingMul {d : Duration} {factor : UInt32} {exact : ℕ} :
    d.mulU32 factor = .ok (d.saturatingMul exact) ↔
      d.nanos * factor.toNat ≤ maxNanos ∧
        d.nanos * factor.toNat = min (d.nanos * exact) maxNanos := by
  unfold mulU32 saturatingMul
  split_ifs with h
  · simp [h]
  · exact iff_of_false (by simp) fun heq => h heq.1

theorem saturatingMul_mono {d : Duration} {k k' : ℕ} (h : k ≤ k') :
    (d.saturatingMul k).nanos ≤ (d.saturatingMul k').nanos :=
  min_le_min_right _ (Nat.mul_le_mul_left _ h)

theorem le_saturatingMul {d : Duration} {k : ℕ} (h : 1 ≤ k) : d.nanos ≤ (d.saturatingMul k).nanos :=
  le_min (Nat.le_mul_of_pos_right _ h) d.le_max

end Duration
end Facet.Arith
