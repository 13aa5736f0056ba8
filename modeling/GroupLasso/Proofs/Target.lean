import GroupLasso.Estimator.Basic
import GroupLasso.Proofs.ZeroRun

/-!
The Lagrange value at which an estimator is fitted. Its run ends at the target, which is the last value
of every default grid but that of one value: such a grid is the largest Lagrange value of interest.
-/

namespace GroupLasso

open Scalar

namespace Estimator

theorem fit_eq_ok {α : Type} [Scalar α] {estimator : Estimator α} {features : Mat α}
    {response : Response α} {fitted : FittedEstimator α} :
    estimator.fit features response = .ok fitted ↔ IsFinitePos estimator.lagrange ∧
      ∃ loss path result reached, estimator.factory.loss response = .ok loss ∧
        Path.build loss (estimator.design features) (estimator.groupWeights features.cols).1
          (estimator.groupWeights features.cols).2 none estimator.options = .ok path ∧
        path.fit (some (estimator.sequence path.lagrangeMax)) = (.ok result, reached) ∧
        fitted = estimator.read features.cols reached result := by
  unfold fit
  by_cases positive : IsFinitePos estimator.lagrange
  · rw [if_pos positive, and_iff_right positive]
    simp only [Failure.bind_eq_ok]
    constructor
    · rintro ⟨loss, modelled, path, built, result, run, finished⟩
      cases finished
      exact ⟨loss, path, result, _, modelled, built, Prod.ext run rfl, rfl⟩
    · rintro ⟨loss, path, result, reached, modelled, built, run, rfl⟩
      refine ⟨loss, modelled, path, built, result, ?_⟩
      rw [run]
      exact ⟨rfl, rfl⟩
  · rw [if_neg positive]
    exact ⟨nofun, fun accepted => absurd accepted.1 positive⟩

section
variable {estimator : Estimator ℝ} {features : Mat ℝ} {response : Response ℝ}
  {fitted : FittedEstimator ℝ} {lagrangeMax : ℝ}

theorem getLast?_sequence (several : estimator.options.gridSize ≠ 1)
    (nonempty : 1 ≤ estimator.options.gridSize) (positive : 0 < estimator.lagrange) :
    (estimator.sequence lagrangeMax).getLast? = some estimator.lagrange := by
  unfold sequence
  split_ifs with below
  · have start : 0 < lagrangeMax := positive.trans below
    rw [Grid.getLast?_geometric (div_pos positive start) (by omega), mul_div_cancel₀ _ start.ne']
  · rfl

theorem sequence_of_single (single : estimator.options.gridSize = 1) :
    estimator.sequence lagrangeMax = [max estimator.lagrange lagrangeMax] := by
  unfold sequence
  split_ifs with below
  · rw [single, max_eq_right below.le]
    rfl
  · rw [max_eq_left (not_lt.1 below)]

/-- The run of a fitted estimator ends at the target, unless the grid has one value and the largest
Lagrange value of interest is above the target; then it ends at that value. The coefficients are those
of the last step, and certified at its Lagrange value when it converged. -/
theorem fit_target (run : estimator.fit features response = .ok fitted) :
    ∃ loss path last, estimator.factory.loss response = .ok loss ∧
      Path.build loss (estimator.design features) (estimator.groupWeights features.cols).1
        (estimator.groupWeights features.cols).2 none estimator.options = .ok path ∧
      fitted.result.lagrange = estimator.sequence path.lagrangeMax ∧
      fitted.result.last? = some last ∧
      (estimator.options.gridSize ≠ 1 ∨ path.lagrangeMax ≤ estimator.lagrange →
        last.lagrange = estimator.lagrange) ∧
      (estimator.options.gridSize = 1 → estimator.lagrange < path.lagrangeMax →
        last.lagrange = path.lagrangeMax) ∧
      fitted.coefs = Array.ofFn (n := features.cols) (fun feature =>
        last.solution.get (feature + if estimator.intercept then 1 else 0) 0) ∧
      fitted.intercept = (if estimator.intercept then last.solution.get 0 0 else 0) ∧
      (last.status = .converged → path.CertifiedAt last.lagrange last.solution) := by
  obtain ⟨positive, loss, path, result, reached, modelled, built, outcome, rfl⟩ := fit_eq_ok.1 run
  have fresh := Path.build_fresh built
  obtain ⟨valid, -⟩ := Path.build_eq_ok built
  obtain ⟨-, chained⟩ :=
    Path.fit_chain fresh.wellFormed (some (estimator.sequence path.lagrangeMax))
  rw [outcome] at chained
  obtain ⟨nonempty, chain⟩ := chained _ result rfl rfl
  obtain ⟨last, found, ended⟩ := chain.last nonempty
  have listed : (estimator.sequence path.lagrangeMax).getLast? = some last.lagrange := by
    rw [← chain.lagrange, List.getLast?_map, found]
    rfl
  refine ⟨loss, path, last, modelled, built, chain.lagrange, found, fun reaches => ?_,
    fun single below => ?_, ?_, ?_, fun converged => ?_⟩
  · by_cases single : estimator.options.gridSize = 1
    · have above := reaches.resolve_left (not_not.2 single)
      rw [sequence_of_single single, max_eq_left above] at listed
      exact (Option.some.inj listed).symm
    · rw [getLast?_sequence single valid.gridSize positive.2] at listed
      exact (Option.some.inj listed).symm
  · rw [sequence_of_single single, max_eq_right below.le] at listed
    exact (Option.some.inj listed).symm
  · rw [← ended]
    rfl
  · rw [← ended]
    rfl
  · obtain ⟨index, position⟩ := List.mem_iff_getElem?.1 (List.mem_of_getLast? found)
    obtain ⟨_, -, stepFrom⟩ := chain.stepFrom position
    exact stepFrom.certified converged

end

/-! One case without successes. -/

/-- An estimator with a grid of one value and without an intercept. -/
def unit {α : Type} [Scalar α] (lagrange : α) : Estimator α where
  factory := .cloglog
  scorer := .deviance
  lagrange
  weights := none
  intercept := false
  options := { PathOptions.default with gridSize := 1 }

def unitFeatures {α : Type} [Scalar α] : Mat α := .ofFn 1 1 fun _ _ => 1

def unitResponse {α : Type} [Scalar α] : Response α := .ofSuccesses #[0]

def unitLoss {α : Type} [Scalar α] : Cloglog α := ⟨#[0], #[1], none, CaseWeights.unit 1⟩

def unitPath {α : Type} [Scalar α] : Path α :=
  let penalty : Penalty α := Path.unitPenalty
  (Path.blank (.cloglog unitLoss) Path.unitDesign penalty
    (.ofFn 1 1 fun group _ => if penalty.isUnpenalized group then 0 else 1)
    { PathOptions.default with gridSize := 1 }).withGradient 1

theorem unit_loss : LossFactory.cloglog.loss unitResponse = .ok (.cloglog (unitLoss : Cloglog ℝ)) := by
  have accepted : Cloglog.ofSuccesses #[(0 : ℝ)] = .ok unitLoss := by
    simp [unitLoss, Cloglog.ofSuccesses, Cloglog.ofTrials, Failure.expectLength, isFinite]
  exact Failure.bind_eq_ok.2 ⟨_, Failure.bind_eq_ok.2 ⟨_, accepted, rfl⟩, rfl⟩

theorem unit_build (lagrange : ℝ) :
    Path.build (.cloglog unitLoss) Path.unitDesign #[1] #[0] none (unit lagrange).options =
      .ok unitPath := by
  have valid : (unit lagrange).options.Valid :=
    { PathOptions.valid_default with gridSize := le_rfl }
  have outputs : (Loss.cloglog (unitLoss : Cloglog ℝ)).shape = ⟨1, 1⟩ := rfl
  exact Path.build_unitOf outputs valid rfl

theorem unit_lagrangeMax : (unitPath : Path ℝ).lagrangeMax = 1 := by
  have rate : (unitLoss : Cloglog ℝ).rate 0 0 = 1 := by
    have below : smaller (0 : ℝ) Cloglog.etaMax = 0 := if_pos (.inl (by norm_num [Cloglog.etaMax]))
    change Real.exp (smaller 0 Cloglog.etaMax) = 1
    rw [below, Real.exp_zero]
  have slope : (unitLoss : Cloglog ℝ).gradient (Mat.zero 1 1) = Mat.ofFn 1 1 fun _ _ => 1 := by
    refine Path.unit_ext rfl rfl ?_
    rw [Cloglog.gradient, Mat.get_ofFn _ (show 0 < unitLoss.successes.size from one_pos) one_pos]
    simp only [Mat.get_zero, rate]
    simp [unitLoss, CaseWeights.unit, Mat.get_ofFn]
  have adjoint : (Path.unitDesign : Design ℝ).adjoint (Mat.ofFn 1 1 fun _ _ => 1) =
      Mat.ofFn 1 1 fun _ _ => 1 := by
    refine Path.unit_ext rfl rfl ?_
    simp [Path.unitDesign, Design.adjoint, Mat.transposeMul, Mat.get_ofFn]
  have alpha : (unitPath : Path ℝ).options.alpha = 1 := rfl
  have gradient : (unitPath : Path ℝ).gradient = Mat.ofFn 1 1 fun _ _ => 1 := by
    rw [(Path.build_fresh (unit_build 1)).gradient, Path.ridgeGradient, if_pos alpha.ge,
      Mat.add_zero_entries]
    change Path.unitDesign.adjoint (unitLoss.gradient (Mat.zero 1 1)) = _
    rw [slope, adjoint]
  have norm := Path.unit_dualNorm 1
  rw [abs_one, ← gradient] at norm
  rw [Path.lagrangeMax, alpha, div_one]
  exact norm

theorem unit_fit {lagrange : ℝ} (positive : 0 < lagrange) :
    ∃ fitted step, (unit lagrange).fit unitFeatures unitResponse = .ok fitted ∧
      fitted.result.steps = [step] ∧ step.lagrange = max lagrange 1 ∧
      step.status = .converged := by
  have fresh := Path.build_fresh (unit_build lagrange)
  have reaches : (unitPath : Path ℝ).lagrangeMax ≤ max lagrange 1 :=
    unit_lagrangeMax.trans_le (le_max_right _ _)
  have value_pos : 0 < max lagrange 1 := positive.trans_le (le_max_left _ _)
  obtain ⟨result, step, reached, run, steps, value, settled, -, -⟩ :=
    fresh.fit_single (Path.exact_of_nil Path.unit_penalized) value_pos reaches
  have listed : [max lagrange 1] = (unit lagrange).sequence unitPath.lagrangeMax := by
    rw [sequence_of_single rfl, unit_lagrangeMax]
    rfl
  rw [listed] at run
  exact ⟨_, step, fit_eq_ok.2 ⟨⟨rfl, positive⟩, _, _, _, _, unit_loss, unit_build lagrange, run, rfl⟩,
    steps, value, settled⟩

theorem fit_target_unit :
    ∃ fitted path last, (unit (2 : ℝ)).fit unitFeatures unitResponse = .ok fitted ∧
      Path.build (.cloglog unitLoss) Path.unitDesign #[1] #[0] none (unit (2 : ℝ)).options =
        .ok path ∧
      fitted.result.lagrange = [2] ∧ fitted.result.last? = some last ∧ last.lagrange = 2 ∧
      fitted.coefs = #[last.solution.get 0 0] ∧ fitted.intercept = 0 ∧
      path.CertifiedAt 2 last.solution := by
  obtain ⟨fitted, step, run, steps, -, converged⟩ := unit_fit two_pos
  obtain ⟨loss, path, last, modelled, built, values, found, reaches, -, coefs, intercept, certified⟩ :=
    fit_target run
  cases unit_loss.symm.trans modelled
  cases (unit_build 2).symm.trans built
  have above : unitPath.lagrangeMax ≤ (unit (2 : ℝ)).lagrange :=
    unit_lagrangeMax.trans_le one_le_two
  have target : last.lagrange = 2 := reaches (.inr above)
  obtain rfl : step = last := by simpa [PathResult.last?, steps] using found
  rw [sequence_of_single rfl, max_eq_left above] at values
  exact ⟨fitted, unitPath, step, run, built, values, found, target, coefs, intercept,
    target ▸ certified converged⟩

/-- At target one half the run ends at Lagrange value one, where its grid starts. -/
theorem fit_misses_target :
    ∃ fitted last, (unit (1 / 2 : ℝ)).options.validate = .ok () ∧
      (unit (1 / 2 : ℝ)).fit unitFeatures unitResponse = .ok fitted ∧
      fitted.result.last? = some last ∧ last.lagrange = 1 ∧
      last.lagrange ≠ (unit (1 / 2 : ℝ)).lagrange := by
  obtain ⟨fitted, step, run, steps, lagrange, -⟩ := unit_fit one_half_pos
  have validated := (Path.build_iff.1 (unit_build (1 / 2))).1
  have stops : step.lagrange = 1 := lagrange.trans (max_eq_right one_half_lt_one.le)
  have found : fitted.result.last? = some step := by rw [PathResult.last?, steps]; rfl
  refine ⟨fitted, step, validated, run, found, stops, ?_⟩
  rw [stops]
  exact one_half_lt_one.ne'

end Estimator

end GroupLasso
