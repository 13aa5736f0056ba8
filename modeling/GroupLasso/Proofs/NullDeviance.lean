import GroupLasso.Estimator.Basic
import GroupLasso.Proofs.Cloglog
import GroupLasso.Proofs.Link

/-!
The deviance of constant predictors. Up to a factor it is the cross entropy of the mean proportion and the
probability that belongs to the constant. By Gibbs' inequality it is least where the two are equal, which is
at the predictor of the mean, so that no constant predictor explains more of the deviance than the null
model.
-/

namespace GroupLasso

open Scalar Failure

/-- Gibbs' inequality for two outcomes. -/
theorem binEntropy_le_cross {mean probability : ℝ} (mean_pos : 0 < mean) (mean_lt : mean < 1)
    (positive : 0 < probability) (below : probability < 1) :
    Real.binEntropy mean ≤
      mean * -Real.log probability + (1 - mean) * -Real.log (1 - probability) := by
  have gain : ∀ {actual assumed : ℝ}, 0 < actual → 0 < assumed →
      actual * (Real.log assumed - Real.log actual) ≤ assumed - actual := by
    intro actual assumed actual_pos assumed_pos
    rw [← Real.log_div assumed_pos.ne' actual_pos.ne']
    calc actual * Real.log (assumed / actual)
        ≤ actual * (assumed / actual - 1) := mul_le_mul_of_nonneg_left
          (Real.log_le_sub_one_of_pos (div_pos assumed_pos actual_pos)) actual_pos.le
      _ = assumed - actual := by field_simp
  have successes := gain mean_pos positive
  have failures := gain (sub_pos.2 mean_lt) (sub_pos.2 below)
  rw [Real.binEntropy, Real.log_inv, Real.log_inv]
  linarith

theorem binEntropy_le_surprise {mean : ℝ} (positive : 0 < mean) (below : mean < 1) (point : ℝ) :
    Real.binEntropy mean ≤ mean * Cloglog.surprise point + (1 - mean) * Real.exp point := by
  have failure_lt : Real.exp (-Real.exp point) < 1 :=
    Real.exp_lt_one_iff.2 (neg_neg_of_pos (Real.exp_pos point))
  have cross := binEntropy_le_cross positive below (sub_pos.2 failure_lt)
    (sub_lt_self 1 (Real.exp_pos _))
  rwa [sub_sub_cancel, Real.log_exp, neg_neg] at cross

namespace Link

variable {mean : ℝ}

theorem surprise_predictor_cloglog (lower : 1 / 10 ^ 10 ≤ mean) (upper : mean ≤ 1 - 1 / 10 ^ 10) :
    Cloglog.surprise (cloglog.predictor mean) = -Real.log mean := by
  rw [Cloglog.surprise, exp_predictor_cloglog lower upper, neg_neg,
    Real.exp_log (by linarith), sub_sub_cancel]

theorem predictor_cloglog_le (lower : 1 / 10 ^ 10 ≤ mean) (upper : mean ≤ 1 - 1 / 10 ^ 10) :
    cloglog.predictor mean ≤ (Cloglog.etaMax : ℝ) :=
  (predictor_le_cutoff lower upper).trans (by norm_num [Cloglog.etaMax])

end Link

namespace Response

section
variable {α : Type} [Scalar α]

def counted (response : Response α) : Except (Failure α) (Cloglog α) :=
  match response.trials with
  | some trials => Cloglog.ofTrials response.successes trials
  | none => Cloglog.ofSuccesses response.successes

def weigh (response : Response α) (loss : Cloglog α) : Except (Failure α) (Cloglog α) :=
  match response.weights with
  | some weights => loss.weighted weights
  | none => return loss

theorem cloglog_eq {response : Response α} (unshifted : response.offset = none) (withOffset : Bool) :
    response.cloglog withOffset = response.counted >>= response.weigh := by
  obtain ⟨successes, trials, weights, offset⟩ := response
  obtain rfl : offset = none := unshifted
  unfold cloglog counted weigh
  cases withOffset <;> cases trials <;> cases weights <;> simp

end

/-- The data of the loss that a response without offset gives. -/
structure Describes (response : Response ℝ) (data : Cloglog ℝ) : Prop where
  offset : data.offset = none
  successes : data.successes = response.successes
  trials : ∀ case < response.size, data.trials.getD case 0 = response.trialsAt case
  weights : ∀ case < response.size, data.weights.getD case 0 = response.weightAt case
  binomial : data.Binomial
  weights_nonneg : ∀ case, 0 ≤ data.weights.getD case 0

variable {response : Response ℝ} {data : Cloglog ℝ}

theorem cloglog_describes (unshifted : response.offset = none)
    (accepted : response.cloglog true = .ok data) :
    response.cloglog false = .ok data ∧ response.Describes data := by
  rw [cloglog_eq unshifted] at accepted ⊢
  refine ⟨accepted, ?_⟩
  obtain ⟨counted, counts, weighs⟩ := bind_eq_ok.1 accepted
  unfold Response.counted at counts
  unfold weigh at weighs
  have plain : ∃ trials, counted = ⟨response.successes, trials, none, CaseWeights.unit response.size⟩ ∧
      counted.Binomial ∧ ∀ case < response.size, trials.getD case 0 = response.trialsAt case := by
    unfold trialsAt
    cases given : response.trials with
    | some trials =>
        rw [given] at counts
        obtain ⟨fields, binomial⟩ := Cloglog.ofTrials_eq_ok counts
        exact ⟨trials, fields, binomial, fun _ _ => rfl⟩
    | none =>
        rw [given] at counts
        obtain ⟨fields, binomial⟩ := Cloglog.ofTrials_eq_ok counts
        refine ⟨_, fields, binomial, fun case bound => ?_⟩
        simp [Array.getD, show case < response.successes.size from bound]
  obtain ⟨trials, rfl, binomial, tried⟩ := plain
  cases given : response.weights with
  | some weights =>
      rw [given] at weighs
      obtain ⟨_, valid, weighed⟩ := bind_eq_ok.1 weighs
      cases weighed
      exact ⟨rfl, rfl, tried, fun case _ => by rw [weightAt, given],
        ⟨binomial.nonneg, binomial.le_trials⟩, CaseWeights.nonneg_of_validate valid⟩
  | none =>
      rw [given] at weighs
      cases weighs
      refine ⟨rfl, rfl, tried, fun case bound => ?_, binomial,
        CaseWeights.nonneg_of_validate (CaseWeights.validate_unit response.size)⟩
      simp [weightAt, given, CaseWeights.unit, Array.getD, bound]

/-! Deviances. -/

noncomputable def successTotal (response : Response ℝ) : ℝ :=
  ∑ case ∈ Finset.range response.size, response.weightAt case * response.successes.getD case 0

noncomputable def trialTotal (response : Response ℝ) : ℝ :=
  ∑ case ∈ Finset.range response.size, response.weightAt case * response.trialsAt case

theorem Describes.constant_deviance (describes : response.Describes data) (constant : ℝ) :
    Scalar.sum (data.caseLosses (List.replicate response.size constant)) =
      response.successTotal * Cloglog.surprise (smaller constant Cloglog.etaMax) +
        (response.trialTotal - response.successTotal) *
          Real.exp (smaller constant Cloglog.etaMax) := by
  rw [Cloglog.sum_caseLosses, List.length_replicate, successTotal, trialTotal,
    ← Finset.sum_sub_distrib, Finset.sum_mul, Finset.sum_mul, ← Finset.sum_add_distrib]
  refine Finset.sum_congr rfl fun case member => ?_
  have bound : case < response.size := Finset.mem_range.1 member
  have rate : data.rate constant case = Real.exp (smaller constant Cloglog.etaMax) := by
    rw [Cloglog.rate, describes.offset]
    rfl
  rw [show (List.replicate response.size constant).getD case 0 = constant by simp [bound],
    Cloglog.caseLoss_of_rate rate (describes.binomial.nonneg case), describes.successes,
    describes.trials case bound, describes.weights case bound]
  ring

theorem Describes.trialTotal_nonneg (describes : response.Describes data) :
    0 ≤ response.trialTotal := by
  refine Finset.sum_nonneg fun case member => ?_
  have bound : case < response.size := Finset.mem_range.1 member
  rw [← describes.weights case bound, ← describes.trials case bound]
  exact mul_nonneg (describes.weights_nonneg case) ((describes.binomial.nonneg case).trans
    (describes.binomial.le_trials case (describes.successes ▸ bound)))

section
variable (describes : response.Describes data)
  (mean_pos : 0 < response.successTotal / response.trialTotal)

include describes mean_pos

theorem Describes.trialTotal_pos : 0 < response.trialTotal := by
  refine describes.trialTotal_nonneg.lt_of_ne fun none => ?_
  rw [← none, div_zero] at mean_pos
  exact mean_pos.false

theorem Describes.constant_deviance_mean (constant : ℝ) :
    Scalar.sum (data.caseLosses (List.replicate response.size constant)) = response.trialTotal *
      (response.successTotal / response.trialTotal *
          Cloglog.surprise (smaller constant Cloglog.etaMax) +
        (1 - response.successTotal / response.trialTotal) *
          Real.exp (smaller constant Cloglog.etaMax)) := by
  have trials_ne := (describes.trialTotal_pos mean_pos).ne'
  rw [describes.constant_deviance]
  field_simp

theorem Describes.entropy_le_deviance
    (mean_lt : response.successTotal / response.trialTotal < 1) (constant : ℝ) :
    response.trialTotal * Real.binEntropy (response.successTotal / response.trialTotal) ≤
      Scalar.sum (data.caseLosses (List.replicate response.size constant)) := by
  rw [describes.constant_deviance_mean mean_pos]
  exact mul_le_mul_of_nonneg_left (binEntropy_le_surprise mean_pos mean_lt _)
    describes.trialTotal_nonneg

end

theorem Describes.mean_deviance (describes : response.Describes data)
    (lower : 1 / 10 ^ 10 ≤ response.successTotal / response.trialTotal)
    (upper : response.successTotal / response.trialTotal ≤ 1 - 1 / 10 ^ 10) :
    Scalar.sum (data.caseLosses (List.replicate response.size
        (Link.cloglog.predictor (response.successTotal / response.trialTotal)))) =
      response.trialTotal * Real.binEntropy (response.successTotal / response.trialTotal) := by
  have capped : smaller (Link.cloglog.predictor (response.successTotal / response.trialTotal))
      Cloglog.etaMax = Link.cloglog.predictor (response.successTotal / response.trialTotal) :=
    if_pos (.inl (Link.predictor_cloglog_le lower upper))
  rw [describes.constant_deviance_mean (by linarith), capped,
    Link.surprise_predictor_cloglog lower upper, Link.exp_predictor_cloglog lower upper,
    Real.binEntropy, Real.log_inv, Real.log_inv]

end Response

namespace Scorer

variable {response : Response ℝ} {data : Cloglog ℝ}

theorem nullPredictor_eq (trials_pos : 0 < response.trialTotal) :
    nullPredictor response = List.replicate response.size
      (Link.cloglog.predictor (response.successTotal / response.trialTotal)) := by
  have mean : meanProportion response = response.successTotal / response.trialTotal := by
    simp only [meanProportion, sumTo_real]
    exact if_pos trials_pos
  rw [nullPredictor, mean]

theorem devianceOf_eq {withOffset : Bool} (built : response.cloglog withOffset = .ok data)
    (eta : List ℝ) :
    devianceOf eta response withOffset = .ok (Scalar.sum (data.caseLosses eta)) := by
  rw [devianceOf, built]
  rfl

theorem checkLength_replicate (trials_pos : 0 < response.trialTotal) (constant : ℝ) :
    checkLength (List.replicate response.size constant) response = .ok () := by
  refine bind_eq_ok.2 ⟨(), expectLength_eq_ok.2 List.length_replicate.symm, ?_⟩
  have cases_ne : response.size ≠ 0 := fun none => by
    simp [Response.trialTotal, none] at trials_pos
  rw [if_neg (by simpa [Response.isEmpty] using cases_ne)]
  rfl

theorem r2_eq (built : response.cloglog true = .ok data) (plain : response.cloglog false = .ok data)
    (trials_pos : 0 < response.trialTotal) (constant : ℝ) :
    r2.score (List.replicate response.size constant) response =
      .ok (1 - Scalar.sum (data.caseLosses (List.replicate response.size constant)) /
        Scalar.sum (data.caseLosses (nullPredictor response))) :=
  bind_eq_ok.2 ⟨(), checkLength_replicate trials_pos constant, bind_eq_ok.2
    ⟨_, devianceOf_eq built _, bind_eq_ok.2 ⟨_, devianceOf_eq plain _, rfl⟩⟩⟩

/-- For a response that is accepted without offset, and whose mean proportion lies inside the range of the
link, the deviance of the null model is positive and the least of all constant predictors. The score is one
minus the quotient of a deviance and that one, so that it is not positive for any constant, and zero for the
predictor of the mean. -/
theorem r2_constant_nonpos {loss : Loss ℝ}
    (accepted : LossFactory.cloglog.loss response = .ok loss) (unshifted : response.offset = none)
    (lower : 1 / 10 ^ 10 ≤ response.successTotal / response.trialTotal)
    (upper : response.successTotal / response.trialTotal ≤ 1 - 1 / 10 ^ 10) :
    ∃ null, devianceOf (nullPredictor response) response false = .ok null ∧ 0 < null ∧
      (∀ constant, ∃ fitted score,
        devianceOf (List.replicate response.size constant) response true = .ok fitted ∧
        null ≤ fitted ∧
        r2.score (List.replicate response.size constant) response = .ok score ∧
        score = 1 - fitted / null ∧ score ≤ 0) ∧
      r2.score (List.replicate response.size
        (Link.cloglog.predictor (response.successTotal / response.trialTotal))) response = .ok 0 := by
  obtain ⟨data, built, -⟩ := bind_eq_ok.1 accepted
  obtain ⟨plain, describes⟩ := Response.cloglog_describes unshifted built
  have mean_pos : 0 < response.successTotal / response.trialTotal := by linarith
  have mean_lt : response.successTotal / response.trialTotal < 1 := by linarith
  have trials_pos := describes.trialTotal_pos mean_pos
  have null_eq := describes.mean_deviance lower upper
  rw [← nullPredictor_eq trials_pos] at null_eq
  have least := describes.entropy_le_deviance mean_pos mean_lt
  have null_pos := mul_pos trials_pos (Real.binEntropy_pos mean_pos mean_lt)
  rw [← null_eq] at least null_pos
  refine ⟨_, devianceOf_eq plain _, null_pos, fun constant => ⟨_, _, devianceOf_eq built _,
    least constant, r2_eq built plain trials_pos constant, rfl, ?_⟩, ?_⟩
  · rw [sub_nonpos, one_le_div null_pos]
    exact least constant
  · rw [r2_eq built plain trials_pos, ← nullPredictor_eq trials_pos, div_self null_pos.ne', sub_self]

theorem r2_constant_nonpos_weighted :
    let response : Response ℝ := ⟨#[1, 0], some #[2, 3], some #[1, 2], none⟩
    (∃ loss, LossFactory.cloglog.loss response = .ok loss) ∧ response.offset = none ∧
      response.successTotal / response.trialTotal = 1 / 8 ∧
      (∃ null fitted score, devianceOf (nullPredictor response) response false = .ok null ∧ 0 < null ∧
        devianceOf [0, 0] response true = .ok fitted ∧ r2.score [0, 0] response = .ok score ∧
        score = 1 - fitted / null ∧ score ≤ 0) ∧
      r2.score (List.replicate 2 (Link.cloglog.predictor (1 / 8))) response = .ok 0 := by
  intro response
  have counted : Cloglog.ofTrials #[1, 0] #[2, 3] =
      .ok (⟨#[1, 0], #[2, 3], none, CaseWeights.unit 2⟩ : Cloglog ℝ) := by
    refine bind_eq_ok.2 ⟨(), rfl, ?_⟩
    norm_num [List.range_succ, isFinite]
    rfl
  have valid : CaseWeights.validate #[1, 2] 2 = (.ok () : Except (Failure ℝ) Unit) :=
    bind_eq_ok.2 ⟨(), rfl, unless_eq_ok.2 (by simp)⟩
  have weighted : Cloglog.weighted ⟨#[1, 0], #[2, 3], none, CaseWeights.unit 2⟩ #[1, 2] =
      .ok (⟨#[1, 0], #[2, 3], none, #[1, 2]⟩ : Cloglog ℝ) := bind_eq_ok.2 ⟨(), valid, rfl⟩
  have built : response.cloglog true = .ok ⟨#[1, 0], #[2, 3], none, #[1, 2]⟩ := by
    rw [Response.cloglog_eq rfl]
    exact bind_eq_ok.2 ⟨_, counted, weighted⟩
  have accepted : LossFactory.cloglog.loss response =
      .ok (.cloglog ⟨#[1, 0], #[2, 3], none, #[1, 2]⟩) := bind_eq_ok.2 ⟨_, built, rfl⟩
  have mean : response.successTotal / response.trialTotal = 1 / 8 := by
    norm_num [response, Response.successTotal, Response.trialTotal, Response.size,
      Response.weightAt, Response.trialsAt, Finset.sum_range_succ]
  obtain ⟨null, least, positive, constants, zero⟩ := r2_constant_nonpos accepted rfl
    (by rw [mean]; norm_num) (by rw [mean]; norm_num)
  obtain ⟨fitted, score, deviance, -, scored, quotient, nonpos⟩ := constants 0
  rw [mean] at zero
  exact ⟨⟨_, accepted⟩, rfl, mean,
    ⟨null, fitted, score, least, positive, deviance, scored, quotient, nonpos⟩, zero⟩

end Scorer

end GroupLasso
