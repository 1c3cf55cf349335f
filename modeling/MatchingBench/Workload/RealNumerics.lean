import MatchingBench.Workload.Structure
import Mathlib.Analysis.SpecialFunctions.Pow.Real
import Mathlib.Analysis.SpecialFunctions.Trigonometric.Basic
import Mathlib.Analysis.Complex.ExponentialBounds

/-!
# The generator over the real numbers

The floating-point functions of `workload/generator.cpp` without their
rounding errors.
-/

set_option autoImplicit false

namespace MatchingBench.Workload.RealNumerics

open MatchingBench.Workload.Generator
open MatchingBench.Workload.Structure (half least)

noncomputable section

/-! ## Constants -/

/-- `TICK_SIZE`. -/
def tickSize : ℝ := 0.005

/-- `START_MID`. -/
def startMid : ℝ := 167.52

/-- `ALPHA`. -/
def alpha : ℝ := 2.23

/-- `HUMP_AMP`. -/
def humpAmp : ℝ := 5

/-- `HUMP_CENTER`. -/
def humpCenter : ℝ := 8

/-- `MEDIAN_LIFE_MS`. -/
def medianLifeMs : ℝ := 0.431

/-- `volatility` of a scenario. -/
def volatility : Scenario → ℝ
  | .static => 0
  | .normal => 0.15
  | .swing25 | .swing40 | .flashCrash => 0.5

/-- `target_swing` of a scenario. -/
def targetSwing : Scenario → ℝ
  | .static => 0
  | .normal => 0.02
  | .swing25 => 0.25
  | .swing40 => 0.4
  | .flashCrash => 0.6

/-! ## Functions -/

/-- `std::round`: ties away from zero. -/
def rounded (x : ℝ) : ℤ :=
  if 0 ≤ x then ⌊x + 1 / 2⌋ else -⌊-x + 1 / 2⌋

/-- `to_ticks`. -/
def toTicks (price : ℝ) : Int64 :=
  Int64.ofInt (rounded (price / tickSize))

/-- The guard of `std::log`. -/
def guarded (u : Uniform) : ℝ :=
  max (u.val : ℝ) (1 / 10 ^ 300)

/-- `Rng::normal`. -/
def normal (u1 u2 : Uniform) : ℝ :=
  √(-2 * Real.log (guarded u1)) * Real.cos (2 * Real.pi * (u2.val : ℝ))

/-- `dt`. -/
def dt (sc : Scenario) (count : UInt64) : ℝ :=
  if 0 < volatility sc then
    (targetSwing sc / volatility sc) ^ 2 / (count.toNat : ℝ)
  else 0

/-- `sigma_step`. -/
def sigmaStep (sc : Scenario) (count : UInt64) : ℝ :=
  volatility sc * √(dt sc count)

/-- The weight of a level. -/
def weight (k : ℕ) : ℝ :=
  1 / ((k : ℝ) + 1) ^ alpha +
    humpAmp * Real.exp (-0.5 * (k - humpCenter) * (k - humpCenter))

/-- `cdf[k]`. -/
def cdf (k : ℕ) : ℝ :=
  ∑ j ∈ Finset.range (k + 1), weight j

open Classical in
/-- `std::lower_bound` of a draw in the depth profile. -/
def lowerBound (u : Uniform) : ℕ :=
  (List.range (maxLevel + 1)).findIdx fun k =>
    decide ((u.val : ℝ) * cdf maxLevel ≤ cdf k)

/-- A draw times an integer, truncated. -/
def scaled (u : Uniform) (n : UInt32) : UInt32 :=
  UInt32.ofNat ⌊u.val * n.toNat⌋.toNat

/-- `base_lambda`. -/
def baseLambda : ℝ :=
  Real.log 2 / (medianLifeMs * 1000)

/-- `Rng::exponential` at the rate of a level, truncated. -/
def lifetime (level : ℕ) (u : Uniform) : ℤ :=
  ⌊-Real.log (guarded u) / (baseLambda / √(1 + level))⌋

theorem scaled_lt (u : Uniform) (n : UInt32) (positive : 0 < n) :
    scaled u n < n := by
  have positive : 0 < n.toNat := UInt32.lt_iff_toNat_lt.mp positive
  have some_ : (0 : ℚ) < n.toNat := by
    exact_mod_cast positive
  have below : u.val * n.toNat < n.toNat := by
    nlinarith [u.property.2]
  have bound : ⌊u.val * n.toNat⌋ < n.toNat :=
    Int.floor_lt.mpr (by exact_mod_cast below)
  have small := n.toNat_lt
  rw [UInt32.lt_iff_toNat_lt, scaled,
    UInt32.toNat_ofNat_of_lt' (by unfold UInt32.size; omega)]
  omega

theorem guarded_pos (u : Uniform) : 0 < guarded u :=
  lt_max_of_lt_right (by positivity)

theorem guarded_lt_one (u : Uniform) : guarded u < 1 :=
  max_lt (by exact_mod_cast u.property.2)
    ((div_lt_one (by positivity)).mpr (one_lt_pow₀ (by norm_num) (by norm_num)))

theorem lifetime_nonneg (level : ℕ) (u : Uniform) : 0 ≤ lifetime level u := by
  have rate : 0 ≤ baseLambda :=
    div_nonneg (Real.log_nonneg (by norm_num)) (by norm_num [medianLifeMs])
  have drawn := Real.log_nonpos (guarded_pos u).le (guarded_lt_one u).le
  refine Int.floor_nonneg.mpr (div_nonneg (by linarith) ?_)
  exact div_nonneg rate (Real.sqrt_nonneg _)

/-- One step of the mid path. -/
def step
    (sc : Scenario) (count : UInt64) (mid : ℝ) (u1 u2 : Uniform) : ℝ :=
  mid * Real.exp (-0.5 * sigmaStep sc count * sigmaStep sc count +
    sigmaStep sc count * normal u1 u2)

/-- `mid_ticks`. -/
def midTicks (mid : ℝ) : Int64 :=
  toTicks (rounded (mid / tickSize) * tickSize)

/-- The floating-point part of the generator, computed exactly. -/
def exact : Numerics where
  Mid := ℝ
  startMid := startMid
  step := step
  midTicks := midTicks
  lowerBound := lowerBound
  scaled := scaled
  scaled_lt := scaled_lt
  lifetime := lifetime
  lifetime_nonneg := lifetime_nonneg

theorem exact_lowerBound (u : Uniform) :
    exact.lowerBound u = lowerBound u := by
  simp only [exact]

/-! ## A crash within one step -/

/-- At the draw 0 the lowest level is taken. -/
theorem lowerBound_least : lowerBound least = 0 := by
  have first : (0 : ℝ) ≤ cdf 0 := by
    rw [cdf]
    refine Finset.sum_nonneg fun j _ => ?_
    rw [weight, humpAmp]
    positivity
  rw [lowerBound, List.range_succ_eq_map, List.findIdx_cons]
  simp [least, first]

/-- The draws 0 and 1/2 make a normal deviate far below zero. -/
theorem normal_least_half : normal least half ≤ -30 := by
  have ten : (1.5 : ℝ) ≤ Real.log 10 := by
    have eight : Real.log 8 = 3 * Real.log 2 := by
      rw [show (8 : ℝ) = 2 ^ 3 by norm_num, Real.log_pow]
      norm_num
    have more : Real.log 8 ≤ Real.log 10 :=
      Real.log_le_log (by norm_num) (by norm_num)
    have two := Real.log_two_gt_d9
    linarith
  have least_ : guarded least = 1 / 10 ^ 300 := by
    rw [guarded, least]
    simp
  have log : Real.log (guarded least) = -(300 * Real.log 10) := by
    rw [least_, one_div, Real.log_inv, Real.log_pow]
    norm_num
  have cos : Real.cos (2 * Real.pi * (half.val : ℝ)) = -1 := by
    rw [half, show (2 : ℝ) * Real.pi * ((1 / 2 : ℚ) : ℝ) = Real.pi by
      push_cast; ring]
    exact Real.cos_pi
  have root : (30 : ℝ) ≤ √(-2 * Real.log (guarded least)) := by
    rw [log]
    exact Real.le_sqrt_of_sq_le (by linarith)
  rw [normal, cos]
  linarith

/-- In the steepest scenario two orders make one step long. -/
theorem sigmaStep_flashCrash : 0.42 ≤ sigmaStep .flashCrash 2 := by
  have root : (0.84 : ℝ) ≤ √(dt .flashCrash 2) := by
    refine Real.le_sqrt_of_sq_le ?_
    rw [dt, volatility, targetSwing, if_pos (by norm_num),
      show (2 : UInt64).toNat = 2 from rfl]
    norm_num
  rw [sigmaStep, volatility]
  linarith

/-- Such a step takes all but a part in 10^5 of a mid price. -/
theorem step_crash {mid : ℝ} (nonneg : 0 ≤ mid) :
    0 ≤ step .flashCrash 2 mid least half ∧
      step .flashCrash 2 mid least half ≤ mid / 10 ^ 5 := by
  have sigma := sigmaStep_flashCrash
  have deviate := normal_least_half
  have exponent :
      -0.5 * sigmaStep .flashCrash 2 * sigmaStep .flashCrash 2 +
        sigmaStep .flashCrash 2 * normal least half ≤ -12 := by
    nlinarith
  have e := Real.exp_one_gt_d9
  have large : (10 : ℝ) ^ 5 ≤ Real.exp 12 := by
    calc (10 : ℝ) ^ 5 ≤ 2.7 ^ 12 := by norm_num
      _ ≤ Real.exp 1 ^ 12 := by gcongr; linarith
      _ = Real.exp 12 := by rw [← Real.exp_nat_mul]; norm_num
  have small : Real.exp (-12) ≤ 1 / 10 ^ 5 := by
    rw [Real.exp_neg, ← one_div]
    exact one_div_le_one_div_of_le (by norm_num) large
  constructor
  · exact mul_nonneg nonneg (Real.exp_nonneg _)
  · have factor := (Real.exp_le_exp.mpr exponent).trans small
    calc mid * _ ≤ mid * (1 / 10 ^ 5) := mul_le_mul_of_nonneg_left factor nonneg
      _ = mid / 10 ^ 5 := by ring

/-- Less than half a tick is rounded to none. -/
theorem midTicks_eq_zero
    {mid : ℝ} (nonneg : 0 ≤ mid) (small : mid < tickSize / 2) :
    midTicks mid = 0 := by
  have positive : 0 < tickSize := by
    norm_num [tickSize]
  have ticks : rounded (mid / tickSize) = 0 := by
    rw [rounded, if_pos (by positivity), Int.floor_eq_zero_iff]
    have below : mid / tickSize < 1 / 2 := by
      rw [div_lt_iff₀ positive]
      linarith
    constructor <;> [positivity; linarith]
  have none_ : rounded 0 = 0 := by
    norm_num [rounded]
  rw [midTicks, ticks, toTicks, Int.cast_zero, zero_mul, zero_div, none_]
  rfl

end

end MatchingBench.Workload.RealNumerics
