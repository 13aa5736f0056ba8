import Mathlib
import GroupLasso.Link
import GroupLasso.Proofs.Real

/-!
Links and their inverses. A mean inside the range of the complementary log-log link has its predictor
between the cutoffs of the inverse, where the inverse is exact, so that it comes back as it was; any other
mean comes back as the edge that it was moved to. Across its cutoffs the inverse rises, because what it
takes beyond them are the bounds of all its values.
-/

namespace GroupLasso

open Scalar

theorem ten_le_exp_three : (10 : ℝ) ≤ Real.exp 3 := by
  calc (10 : ℝ) ≤ 2.7 ^ 3 := by norm_num
    _ ≤ Real.exp 1 ^ 3 := by
        gcongr
        exact (by norm_num : (2.7 : ℝ) ≤ 2.7182818283).trans Real.exp_one_gt_d9.le
    _ = Real.exp 3 := by rw [← Real.exp_nat_mul]; norm_num

namespace Link

section
variable {mean : ℝ}

theorem predictor_cloglog (lower : 1 / 10 ^ 10 ≤ mean) (upper : mean ≤ 1 - 1 / 10 ^ 10) :
    cloglog.predictor mean = Real.log (-Real.log (1 - mean)) := by
  have inside : clamp 1e-10 (1 - 1e-10) mean = mean := by
    rw [clamp, if_neg (by norm_num; linarith), if_neg (by norm_num; linarith)]
  unfold predictor
  dsimp only
  rw [inside]
  rfl

theorem rate_pos (positive : 0 < mean) (below : mean < 1) : 0 < -Real.log (1 - mean) :=
  neg_pos.2 (Real.log_neg (sub_pos.2 below) (sub_lt_self 1 positive))

theorem exp_predictor_cloglog (lower : 1 / 10 ^ 10 ≤ mean) (upper : mean ≤ 1 - 1 / 10 ^ 10) :
    Real.exp (cloglog.predictor mean) = -Real.log (1 - mean) := by
  rw [predictor_cloglog lower upper, Real.exp_log]
  exact rate_pos (by linarith) (by linarith)

theorem predictor_ge_cutoff (lower : 1 / 10 ^ 10 ≤ mean) (upper : mean ≤ 1 - 1 / 10 ^ 10) :
    -30 ≤ cloglog.predictor mean := by
  rw [← Real.exp_le_exp, exp_predictor_cloglog lower upper]
  have rate : Real.log (1 - mean) ≤ 1 - mean - 1 := Real.log_le_sub_one_of_pos (by linarith)
  calc Real.exp (-30) = 1 / Real.exp 3 ^ 10 := by
        rw [← Real.exp_nat_mul, Real.exp_neg, inv_eq_one_div]
        norm_num
    _ ≤ 1 / 10 ^ 10 := by
        gcongr
        exact ten_le_exp_three
    _ ≤ -Real.log (1 - mean) := by linarith

theorem predictor_le_cutoff (lower : 1 / 10 ^ 10 ≤ mean) (upper : mean ≤ 1 - 1 / 10 ^ 10) :
    cloglog.predictor mean ≤ 10 := by
  rw [← Real.exp_le_exp, exp_predictor_cloglog lower upper]
  have ten : Real.log 10 ≤ 3 := (Real.log_le_iff_le_exp (by norm_num)).2 ten_le_exp_three
  have least : Real.log ((10 : ℝ) ^ 10)⁻¹ ≤ Real.log (1 - mean) :=
    Real.log_le_log (by positivity) (by rw [inv_eq_one_div]; linarith)
  rw [Real.log_inv, Real.log_pow] at least
  push_cast at least
  calc -Real.log (1 - mean) ≤ 10 ^ 2 := by linarith
    _ ≤ Real.exp 3 ^ 2 := by
        gcongr
        exact ten_le_exp_three
    _ = Real.exp 6 := by rw [← Real.exp_nat_mul]; norm_num
    _ ≤ Real.exp 10 := Real.exp_le_exp.2 (by norm_num)

end

section
variable {point other : ℝ}

theorem clamp_probability (probability : ℝ) : clamp 1e-14 (1 - 1e-14) probability =
    min (max probability (1 / 10 ^ 14)) (1 - 1 / 10 ^ 14) := by
  rw [clamp_real (by norm_num)]
  norm_num

theorem mean_above (above : 10 < point) : cloglog.mean point = 1 - 1 / 10 ^ 14 := by
  unfold mean
  dsimp only
  rw [if_pos above, clamp_probability]
  norm_num

theorem mean_below (below : point < -30) : cloglog.mean point = 1 / 10 ^ 14 := by
  unfold mean
  dsimp only
  rw [if_neg (by linarith), if_pos below, clamp_probability]
  norm_num

theorem mean_between (lower : -30 ≤ point) (upper : point ≤ 10) : cloglog.mean point =
    min (max (1 - Real.exp (-Real.exp point)) (1 / 10 ^ 14)) (1 - 1 / 10 ^ 14) := by
  have probability : -Scalar.expm1 (-Scalar.exp point) = 1 - Real.exp (-Real.exp point) :=
    neg_sub _ _
  unfold mean
  dsimp only
  rw [if_neg upper.not_gt, if_neg lower.not_gt, clamp_probability, probability]

theorem mean_mem (point : ℝ) :
    1 / 10 ^ 14 ≤ cloglog.mean point ∧ cloglog.mean point ≤ 1 - 1 / 10 ^ 14 := by
  unfold mean
  dsimp only
  rw [clamp_probability]
  exact ⟨le_min (le_max_right _ _) (by norm_num), min_le_right _ _⟩

theorem mean_le_mean (ordered : point ≤ other) : cloglog.mean point ≤ cloglog.mean other := by
  rcases lt_or_ge point (-30) with below | lower
  · rw [mean_below below]
    exact (mean_mem other).1
  · rcases lt_or_ge 10 other with above | upper
    · rw [mean_above above]
      exact (mean_mem point).2
    · rw [mean_between lower (ordered.trans upper), mean_between (lower.trans ordered) upper]
      gcongr

theorem mean_predictor_inside {mean : ℝ} (lower : 1 / 10 ^ 10 ≤ mean)
    (upper : mean ≤ 1 - 1 / 10 ^ 10) : cloglog.mean (cloglog.predictor mean) = mean := by
  rw [mean_between (predictor_ge_cutoff lower upper) (predictor_le_cutoff lower upper),
    exp_predictor_cloglog lower upper, neg_neg, Real.exp_log (by linarith), sub_sub_cancel,
    max_eq_left (by linarith), min_eq_left (by linarith)]

end

theorem predictor_clamped (mean : ℝ) : cloglog.predictor mean =
    cloglog.predictor (min (max mean (1 / 10 ^ 10)) (1 - 1 / 10 ^ 10)) := by
  have moved : clamp 1e-10 (1 - 1e-10) mean = min (max mean (1 / 10 ^ 10)) (1 - 1 / 10 ^ 10) := by
    rw [clamp_real (by norm_num)]
    norm_num
  rw [predictor_cloglog (le_min (le_max_right _ _) (by norm_num)) (min_le_right _ _), ← moved]
  rfl

/-- A mean comes back from its predictor, after it was moved into the range of the link. The inverse of the
complementary log-log link never falls, also across its cutoffs, and stays strictly between 0 and 1. -/
theorem mean_predictor :
    (∀ mean : ℝ, cloglog.mean (cloglog.predictor mean) =
      min (max mean (1 / 10 ^ 10)) (1 - 1 / 10 ^ 10)) ∧
    (∀ mean : ℝ, log.mean (log.predictor mean) = max mean (1 / 10 ^ 300)) ∧
    Monotone (cloglog.mean : ℝ → ℝ) ∧
    ∀ predictor : ℝ, 1 / 10 ^ 14 ≤ cloglog.mean predictor ∧
      cloglog.mean predictor ≤ 1 - 1 / 10 ^ 14 := by
  refine ⟨fun mean => ?_, fun mean => ?_, fun _ _ => mean_le_mean, mean_mem⟩
  · rw [predictor_clamped]
    exact mean_predictor_inside (le_min (le_max_right _ _) (by norm_num)) (min_le_right _ _)
  · have positive : (0 : ℝ) < max mean (1 / 10 ^ 300) := lt_max_of_lt_right (by positivity)
    have edge : larger mean 1e-300 = max mean (1 / 10 ^ 300) := by
      rw [larger_real, decimal_real, Nat.cast_one]
    change Real.exp (Real.log (larger mean 1e-300)) = _
    rw [edge, Real.exp_log positive]

end Link

end GroupLasso
