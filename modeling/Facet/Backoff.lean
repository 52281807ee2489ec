import Facet.CheckedArithmetic

/-!
# Exponential backoff

The interval after a number of failures is the base duration times a power of the multiplier. The
power is a `u64`, it is cut to a `u32`, and the product of a duration and a `u32` panics when it is
too long. The interval is exact where none of the three limits is reached.
-/
namespace Facet.Backoff
open Arith

structure BackoffConfig where
  multiplier : UInt64
  maxExponent : UInt32

def BackoffConfig.default : BackoffConfig where
  multiplier := 2
  maxExponent := 5

/-- `checks` tells whether the build has overflow checks. -/
def calculateBackoffInterval (checks : Bool) (baseDuration : Duration) (failureCount : UInt32)
    (config : BackoffConfig) : Checked Duration := do
  let backoffExponent := min failureCount config.maxExponent
  let backoffMultiplier ← powU64 checks config.multiplier backoffExponent.toNat
  baseDuration.mulU32 (max backoffMultiplier 1).toUInt32

/-- `scale` is the product with the renewal percentage, `jitter` what is done to the interval when
there is jitter. -/
def calculateRenewalInterval (checks : Bool) (scale : UInt64 → UInt64)
    (jitter : Option (Duration → Checked Duration)) (leaseDuration : UInt64)
    (consecutiveFailures : UInt32) : Checked Duration := do
  let baseRenewalInterval := Duration.fromSecs (scale leaseDuration)
  let intervalWithBackoff ←
    calculateBackoffInterval checks baseRenewalInterval consecutiveFailures .default
  match jitter with
  | some randomize => randomize intervalWithBackoff
  | none => return intervalWithBackoff

variable {config : BackoffConfig} {failureCount : UInt32} {base : Duration} {checks : Bool}

def power (config : BackoffConfig) (failureCount : UInt32) : ℕ :=
  config.multiplier.toNat ^ min failureCount.toNat config.maxExponent.toNat

/-- What the base duration is multiplied with by its description: a power of zero counts as one. -/
def exactFactor (config : BackoffConfig) (failureCount : UInt32) : ℕ :=
  max (power config failureCount) 1

def truncatedFactor (config : BackoffConfig) (failureCount : UInt32) : ℕ :=
  max (power config failureCount % 2 ^ 64) 1 % 2 ^ 32

/-- The power is a `u64` where that is checked, and either the base is zero, or the factor is a
`u32` and the product a duration, or the factor is none but its low bits happen to give the longest
duration. -/
def WithinLimits (checks : Bool) (base : Duration) (failureCount : UInt32)
    (config : BackoffConfig) : Prop :=
  (checks = true → power config failureCount < 2 ^ 64) ∧
    (base.nanos = 0 ∨
      (exactFactor config failureCount < 2 ^ 32 ∧
        base.nanos * exactFactor config failureCount ≤ maxNanos) ∨
      (2 ^ 32 ≤ exactFactor config failureCount ∧
        base.nanos * truncatedFactor config failureCount = maxNanos))

theorem toNat_min_exponent : (min failureCount config.maxExponent).toNat =
    min failureCount.toNat config.maxExponent.toNat := by
  have hmin : min failureCount config.maxExponent =
      if failureCount ≤ config.maxExponent then failureCount else config.maxExponent := rfl
  rw [hmin, min_def]
  simp only [UInt32.le_iff_toNat_le]
  split_ifs <;> rfl

theorem toNat_factor (n : ℕ) :
    (max (UInt64.ofNat n) 1).toUInt32.toNat = max (n % 2 ^ 64) 1 % 2 ^ 32 := by
  have hmax : max (UInt64.ofNat n) 1 = if UInt64.ofNat n ≤ 1 then 1 else UInt64.ofNat n := rfl
  rw [UInt64.toNat_toUInt32, hmax, max_def]
  simp only [UInt64.le_iff_toNat_le, UInt64.toNat_ofNat', UInt64.toNat_one]
  split_ifs <;> simp

theorem calculateBackoffInterval_eq : calculateBackoffInterval checks base failureCount config =
    if checks = true ∧ 2 ^ 64 ≤ power config failureCount then
      .error ⟨"attempt to multiply with overflow"⟩
    else base.mulU32 (max (UInt64.ofNat (power config failureCount)) 1).toUInt32 := by
  unfold calculateBackoffInterval powU64 power
  simp only [toNat_min_exponent]
  split_ifs <;> rfl

theorem one_le_exactFactor : 1 ≤ exactFactor config failureCount := le_max_right _ _

theorem truncatedFactor_of_lt (hlt : exactFactor config failureCount < 2 ^ 32) :
    truncatedFactor config failureCount = exactFactor config failureCount := by
  have hpower : power config failureCount ≤ exactFactor config failureCount := le_max_left _ _
  have hsmall : power config failureCount % 2 ^ 64 = power config failureCount :=
    Nat.mod_eq_of_lt (by omega)
  rw [truncatedFactor, hsmall]
  exact Nat.mod_eq_of_lt hlt

theorem product_of_cut_factor {n r k : ℕ} (hcut : r < k) :
    n * r ≤ maxNanos ∧ n * r = min (n * k) maxNanos ↔ n = 0 ∨ n * r = maxNanos := by
  rcases Nat.eq_zero_or_pos n with rfl | hpos
  · simp
  · have hless : n * r < n * k := Nat.mul_lt_mul_of_pos_left hcut hpos
    constructor
    · rintro ⟨-, heq⟩
      rcases min_choice (n * k) maxNanos with hmin | hmin
      · omega
      · exact Or.inr (heq.trans hmin)
    · rintro (hzero | hmax)
      · omega
      · refine ⟨hmax.le, ?_⟩
        rw [min_eq_right (by omega), hmax]

theorem calculateBackoffInterval_exact_iff :
    calculateBackoffInterval checks base failureCount config =
        .ok (base.saturatingMul (exactFactor config failureCount)) ↔
      WithinLimits checks base failureCount config := by
  rw [calculateBackoffInterval_eq]
  by_cases hpanics : checks = true ∧ 2 ^ 64 ≤ power config failureCount
  · rw [if_pos hpanics]
    refine iff_of_false (by simp) fun hlimits => ?_
    have hpower := hlimits.1 hpanics.1
    omega
  · have hchecked : checks = true → power config failureCount < 2 ^ 64 := by
      intro hchecks
      by_contra hlarge
      exact hpanics ⟨hchecks, by omega⟩
    rw [if_neg hpanics, Duration.mulU32_eq_saturatingMul, toNat_factor, WithinLimits,
      and_iff_right hchecked]
    have hfactor : max (power config failureCount % 2 ^ 64) 1 % 2 ^ 32 =
        truncatedFactor config failureCount := rfl
    rw [hfactor]
    rcases Nat.lt_or_ge (exactFactor config failureCount) (2 ^ 32) with hsmall | hlarge
    · rw [truncatedFactor_of_lt hsmall]
      constructor
      · rintro ⟨hle, -⟩
        exact Or.inr (Or.inl ⟨hsmall, hle⟩)
      · rintro (hzero | ⟨-, hle⟩ | ⟨hlarge, -⟩)
        · rw [hzero, Nat.zero_mul]
          exact ⟨Nat.zero_le _, (min_eq_left (Nat.zero_le _)).symm⟩
        · exact ⟨hle, (min_eq_left hle).symm⟩
        · omega
    · have hcut : truncatedFactor config failureCount < exactFactor config failureCount :=
        (Nat.mod_lt _ (by omega)).trans_le hlarge
      rw [product_of_cut_factor hcut]
      constructor
      · rintro (hzero | hmax)
        · exact Or.inl hzero
        · exact Or.inr (Or.inr ⟨hlarge, hmax⟩)
      · rintro (hzero | ⟨hsmall, -⟩ | ⟨-, hmax⟩)
        · exact Or.inl hzero
        · omega
        · exact Or.inr hmax

theorem exactFactor_mono {failureCount' : UInt32} (hle : failureCount ≤ failureCount') :
    exactFactor config failureCount ≤ exactFactor config failureCount' := by
  have hexponent : min failureCount.toNat config.maxExponent.toNat ≤
      min failureCount'.toNat config.maxExponent.toNat :=
    min_le_min_right _ (UInt32.le_iff_toNat_le.mp hle)
  unfold exactFactor power
  rcases Nat.eq_zero_or_pos config.multiplier.toNat with hzero | hpos
  · have hone : ∀ n, 0 ^ n ≤ 1 := by
      intro n
      cases n with
      | zero => exact le_rfl
      | succ n => exact Nat.zero_le 1
    rw [hzero]
    exact max_le ((hone _).trans (le_max_right _ _)) (le_max_right _ _)
  · exact max_le_max_right _ (Nat.pow_le_pow_right hpos hexponent)

/-- The renewal interval without jitter is the backoff of its base interval, which stays within its
limits as long as the seconds are a `u64`. -/
theorem withinLimits_default {secs : UInt64} :
    WithinLimits checks (.fromSecs secs) failureCount .default ↔
    secs.toNat * exactFactor .default failureCount < 2 ^ 64 := by
  have hexponent : min failureCount.toNat 5 ≤ 5 := min_le_right _ _
  have hpower : power .default failureCount ≤ 32 :=
    show 2 ^ min failureCount.toNat 5 ≤ 2 ^ 5 from Nat.pow_le_pow_right (by omega) hexponent
  have hfactor : exactFactor .default failureCount ≤ 32 := max_le hpower (by omega)
  have hproduct : (Duration.fromSecs secs).nanos * exactFactor .default failureCount =
      secs.toNat * exactFactor .default failureCount * 10 ^ 9 := Nat.mul_right_comm _ _ _
  have hzero : (Duration.fromSecs secs).nanos = secs.toNat * 10 ^ 9 := rfl
  rw [WithinLimits, hproduct, hzero, maxNanos]
  constructor
  · rintro ⟨-, hbase | ⟨-, hle⟩ | ⟨hlarge, -⟩⟩
    · have hsecs : secs.toNat = 0 := by omega
      rw [hsecs, Nat.zero_mul]
      omega
    · omega
    · omega
  · intro hlt
    exact ⟨fun _ => by omega, Or.inr (Or.inl ⟨by omega, by omega⟩)⟩

theorem calculateRenewalInterval_eq (scale : UInt64 → UInt64) (lease : UInt64) :
    calculateRenewalInterval checks scale none lease failureCount =
      calculateBackoffInterval checks (.fromSecs (scale lease)) failureCount .default := by
  simp only [calculateRenewalInterval]
  cases calculateBackoffInterval checks (.fromSecs (scale lease)) failureCount .default <;> rfl

theorem calculateBackoffInterval_mono {failureCount' : UInt32} (hle : failureCount ≤ failureCount')
    (hlimits : WithinLimits checks base failureCount config)
    (hlimits' : WithinLimits checks base failureCount' config) :
    ∃ d d' : Duration, calculateBackoffInterval checks base failureCount config = .ok d ∧
      calculateBackoffInterval checks base failureCount' config = .ok d' ∧
      base.nanos ≤ d.nanos ∧ d.nanos ≤ d'.nanos :=
  ⟨_, _, calculateBackoffInterval_exact_iff.mpr hlimits,
    calculateBackoffInterval_exact_iff.mpr hlimits', Duration.le_saturatingMul one_le_exactFactor,
    Duration.saturatingMul_mono (exactFactor_mono hle)⟩

/-- Backoff is exact or saturated exactly within its limits, in builds with and without overflow
checks; there it does not decrease with the failures and is not below the base. The same goes for
the renewal interval. -/
theorem backoff_exact_iff (checks : Bool) (base : Duration) (failureCount : UInt32)
    (config : BackoffConfig) (scale : UInt64 → UInt64) (lease : UInt64) :
    (calculateBackoffInterval checks base failureCount config =
        .ok (base.saturatingMul (exactFactor config failureCount)) ↔
      WithinLimits checks base failureCount config) ∧
    (∀ failureCount', failureCount ≤ failureCount' → WithinLimits checks base failureCount config →
      WithinLimits checks base failureCount' config →
        ∃ d d' : Duration, calculateBackoffInterval checks base failureCount config = .ok d ∧
          calculateBackoffInterval checks base failureCount' config = .ok d' ∧
          base.nanos ≤ d.nanos ∧ d.nanos ≤ d'.nanos) ∧
    (calculateRenewalInterval checks scale none lease failureCount =
        .ok ((Duration.fromSecs (scale lease)).saturatingMul (exactFactor .default failureCount)) ↔
      (scale lease).toNat * exactFactor .default failureCount < 2 ^ 64) ∧
    (∀ failureCount', failureCount ≤ failureCount' →
      (scale lease).toNat * exactFactor .default failureCount' < 2 ^ 64 →
        ∃ d d' : Duration, calculateRenewalInterval checks scale none lease failureCount = .ok d ∧
          calculateRenewalInterval checks scale none lease failureCount' = .ok d' ∧
          (Duration.fromSecs (scale lease)).nanos ≤ d.nanos ∧ d.nanos ≤ d'.nanos) := by
  refine ⟨calculateBackoffInterval_exact_iff, fun _ => calculateBackoffInterval_mono, ?_, ?_⟩
  · rw [calculateRenewalInterval_eq, calculateBackoffInterval_exact_iff, withinLimits_default]
  · intro failureCount' hle hlt
    rw [calculateRenewalInterval_eq, calculateRenewalInterval_eq]
    have hless : (scale lease).toNat * exactFactor .default failureCount < 2 ^ 64 :=
      (Nat.mul_le_mul_left _ (exactFactor_mono hle)).trans_lt hlt
    exact calculateBackoffInterval_mono hle (withinLimits_default.mpr hless)
      (withinLimits_default.mpr hlt)

theorem doubled_twice :
    calculateBackoffInterval true (.fromSecs 10) 2 .default = .ok (.fromSecs 40) ∧
    calculateRenewalInterval true (fun lease => lease / 2) none 3600 2 = .ok (.fromSecs 7200) := by
  obtain ⟨hexact, -, hrenewal, -⟩ :=
    backoff_exact_iff true (.fromSecs 10) 2 .default (fun lease => lease / 2) 3600
  have hlimits : WithinLimits true (.fromSecs 10) 2 .default :=
    ⟨fun _ => by decide, Or.inr (Or.inl ⟨by decide, by decide⟩)⟩
  exact ⟨(hexact.mpr hlimits).trans (congrArg Except.ok (Duration.ext_nanos (by decide))),
    (hrenewal.mpr (by decide)).trans (congrArg Except.ok (Duration.ext_nanos (by decide)))⟩

/-- The 32nd doubling of a second is cut to nothing, and the 64th panics in a build with overflow
checks. -/
theorem backoff_of_second_vanishes :
    calculateBackoffInterval true (.fromSecs 1) 32 ⟨2, 64⟩ = .ok (.fromSecs 0) ∧
    calculateBackoffInterval true (.fromSecs 1) 31 ⟨2, 64⟩ = .ok (.fromSecs 2147483648) ∧
    calculateBackoffInterval true (.fromSecs 1) 64 ⟨2, 64⟩ =
      .error ⟨"attempt to multiply with overflow"⟩ ∧
    (Duration.fromSecs 1).saturatingMul (exactFactor ⟨2, 64⟩ 32) = .fromSecs 4294967296 := by
  decide

end Facet.Backoff
