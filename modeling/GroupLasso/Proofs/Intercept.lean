import GroupLasso.Proofs.Cloglog
import GroupLasso.Proofs.EntryPoint
import GroupLasso.Proofs.Target

/-!
The intercept as a feature. Fitting with an intercept is fitting without one on the features with a
column of ones before them, whose weights are zero: the path is the same, and the coefficient of that
column is the intercept. Where sums do not round, both fits predict alike.
-/

namespace GroupLasso

open Scalar

/-- The laws of sums that take a term out of a sum. -/
structure Scalar.Exact (α : Type) [Scalar α] : Prop where
  zero_add : ∀ value : α, 0 + value = value
  add_zero : ∀ value : α, value + 0 = value
  add_assoc : ∀ first second third : α, first + second + third = first + (second + third)
  one_mul : ∀ value : α, 1 * value = value

theorem Scalar.exact_real : Exact ℝ := ⟨zero_add, add_zero, add_assoc, one_mul⟩

section
variable {α : Type} [Scalar α]

theorem Scalar.Exact.sumTo_succ (exact : Exact α) {count : Nat} {whole rest : Nat → α}
    (later : ∀ index < count, whole (index + 1) = rest index) :
    sumTo (count + 1) whole = whole 0 + sumTo count rest := by
  induction count with
  | zero => exact (exact.zero_add _).trans (exact.add_zero _).symm
  | succ count ih =>
      have shorter := ih fun index bound => later index (Nat.lt_succ_of_lt bound)
      unfold sumTo at shorter ⊢
      rw [Nat.fold_succ, shorter, Nat.fold_succ, later count (Nat.lt_succ_self count),
        exact.add_assoc]

namespace Mat

def besideOnes (matrix : Mat α) : Mat α :=
  ofFn matrix.rows (matrix.cols + 1) fun row col =>
    match col with
    | 0 => 1
    | col + 1 => matrix.get row col

section
variable {matrix : Mat α} {row : Nat} (rowBound : row < matrix.rows)

include rowBound

theorem get_besideOnes_zero : matrix.besideOnes.get row 0 = 1 :=
  get_ofFn _ rowBound (Nat.succ_pos matrix.cols)

theorem get_besideOnes_succ {col : Nat} (colBound : col < matrix.cols) :
    matrix.besideOnes.get row (col + 1) = matrix.get row col :=
  get_ofFn _ rowBound (Nat.add_lt_add_right colBound 1)

theorem get_mul_ofColumn (entries : Array α) : (matrix.mul (ofColumn entries)).get row 0 =
    sumTo matrix.cols fun col => matrix.get row col * (ofColumn entries).get col 0 :=
  get_ofFn _ rowBound one_pos

end

theorem get_ofColumn {entries : Array α} {row : Nat} (bound : row < entries.size) :
    (ofColumn entries).get row 0 = entries.getD row 0 := get_ofFn _ bound one_pos

theorem get_besideOnes_mul (exact : Exact α) {matrix : Mat α} {row : Nat}
    (rowBound : row < matrix.rows) (first : α) {rest : Array α} (width : matrix.cols = rest.size) :
    (matrix.besideOnes.mul (ofColumn (#[first] ++ rest))).get row 0 =
      first + (matrix.mul (ofColumn rest)).get row 0 := by
  have wider : row < matrix.besideOnes.rows := rowBound
  have size : (#[first] ++ rest).size = matrix.cols + 1 := by rw [Array.size_append, width, add_comm]; rfl
  have head : matrix.besideOnes.get row 0 * (ofColumn (#[first] ++ rest)).get 0 0 = first := by
    rw [get_besideOnes_zero rowBound, get_ofColumn (size ▸ Nat.succ_pos _), exact.one_mul]
    simp [Array.getD]
  have later : ∀ col < matrix.cols,
      matrix.besideOnes.get row (col + 1) * (ofColumn (#[first] ++ rest)).get (col + 1) 0 =
        matrix.get row col * (ofColumn rest).get col 0 := by
    intro col bound
    have shifted : (#[first] ++ rest).getD (col + 1) 0 = rest.getD col 0 := by
      simp [Array.getD, width ▸ bound, show col + 1 < 1 + rest.size by omega]
    rw [get_besideOnes_succ rowBound bound, get_ofColumn (size ▸ Nat.add_lt_add_right bound 1), shifted,
      get_ofColumn (width ▸ bound)]
  rw [get_mul_ofColumn wider, get_mul_ofColumn rowBound]
  exact (exact.sumTo_succ later).trans (by rw [head])

end Mat

theorem Design.withIntercept_eq (matrix : Mat α) (responses : Nat) :
    withIntercept matrix responses = .dense matrix.besideOnes responses := by
  unfold withIntercept Mat.besideOnes
  congr 2
  funext row col
  cases col with
  | zero => rfl
  | succ col => rfl

/-- The same model with its intercept as the coefficient of a feature before the others. -/
def FittedEstimator.onColumn (fitted : FittedEstimator α) : FittedEstimator α :=
  { fitted with coefs := #[fitted.intercept] ++ fitted.coefs, intercept := 0 }

namespace Estimator

variable (estimator : Estimator α) (l1 l2 : Array α)

theorem fit_besideOnes (features : Mat α) (response : Response α) :
    ({ estimator with weights := some (#[0] ++ l1, #[0] ++ l2), intercept := false } : Estimator α).fit
        features.besideOnes response =
      (({ estimator with weights := some (l1, l2), intercept := true } : Estimator α).fit
        features response).map FittedEstimator.onColumn := by
  let shifted : Estimator α := { estimator with weights := some (l1, l2), intercept := true }
  let plain : Estimator α :=
    { estimator with weights := some (#[0] ++ l1, #[0] ++ l2), intercept := false }
  have design : plain.design features.besideOnes = shifted.design features :=
    (Design.withIntercept_eq features 1).symm
  have weights : plain.groupWeights features.besideOnes.cols = shifted.groupWeights features.cols := rfl
  have read : ∀ (path : Path α) (result : PathResult α),
      plain.read features.besideOnes.cols path result =
        (shifted.read features.cols path result).onColumn := by
    intro path result
    have coefs : (Array.ofFn (n := features.cols + 1) fun feature => path.solution.get feature 0) =
        #[path.solution.get 0 0] ++
          Array.ofFn (n := features.cols) fun feature => path.solution.get (feature + 1) 0 :=
      Array.ofFn_succ'
    exact congrArg (FittedEstimator.mk · 0 estimator.factory.link estimator.scorer result) coefs
  change plain.fit features.besideOnes response = FittedEstimator.onColumn <$> shifted.fit features response
  unfold fit
  rw [design, weights]
  by_cases positive : IsFinitePos estimator.lagrange
  · rw [if_pos positive, if_pos positive, map_bind]
    refine bind_congr fun loss => ?_
    rw [map_bind]
    refine bind_congr fun path => ?_
    rw [map_bind]
    refine bind_congr fun result => ?_
    rw [map_pure, read]
    rfl
  · rw [if_neg positive, if_neg positive]
    rfl

end Estimator

theorem FittedEstimator.predict_onColumn (exact : Exact α) (fitted : FittedEstimator α) {cases : Mat α}
    (width : cases.cols = fitted.coefs.size) : ∃ eta, fitted.predict cases = .ok eta ∧
      fitted.onColumn.predict cases.besideOnes = .ok eta := by
  have wider : cases.besideOnes.cols = fitted.onColumn.coefs.size := by
    change cases.cols + 1 = (#[fitted.intercept] ++ fitted.coefs).size
    rw [Array.size_append, width, add_comm]
    rfl
  have accepted : fitted.predict cases =
      .ok ((cases.mul (Mat.ofColumn fitted.coefs)).firstColumn.map (fitted.intercept + ·)) :=
    Failure.bind_eq_ok.2 ⟨(), Failure.expectLength_eq_ok.2 width.symm, rfl⟩
  have columnAccepted : fitted.onColumn.predict cases.besideOnes =
      .ok ((cases.besideOnes.mul (Mat.ofColumn fitted.onColumn.coefs)).firstColumn.map (0 + ·)) :=
    Failure.bind_eq_ok.2 ⟨(), Failure.expectLength_eq_ok.2 wider.symm, rfl⟩
  refine ⟨_, accepted, columnAccepted.trans (congrArg Except.ok ?_)⟩
  unfold Mat.firstColumn
  rw [List.map_map, List.map_map]
  refine List.map_congr_left fun row member => ?_
  have rowBound : row < cases.rows := List.mem_range.1 member
  exact (exact.zero_add _).trans (Mat.get_besideOnes_mul exact rowBound fitted.intercept width)

namespace Estimator

/-- With explicit weights, fitting with an intercept is fitting without one on the features beside a column
of ones of weight zero: both fail alike, or succeed with one path, and the coefficients of the second fit are
the intercept and the coefficients of the first. Where sums do not round, both fits then give the same
linear predictors, means and scores to new cases. -/
theorem fit_intercept (estimator : Estimator α) (l1 l2 : Array α) (features : Mat α)
    (response : Response α) :
    ({ estimator with weights := some (#[0] ++ l1, #[0] ++ l2), intercept := false } : Estimator α).fit
        features.besideOnes response =
      (({ estimator with weights := some (l1, l2), intercept := true } : Estimator α).fit
        features response).map FittedEstimator.onColumn ∧
    ∀ fitted : FittedEstimator α,
      fitted.onColumn.result = fitted.result ∧ fitted.onColumn.coefs[0]? = some fitted.intercept ∧
      (∀ feature : Nat, fitted.onColumn.coefs[feature + 1]? = fitted.coefs[feature]?) ∧
      (Exact α → ∀ cases : Mat α, cases.cols = fitted.coefs.size → ∃ eta,
        fitted.predict cases = .ok eta ∧ fitted.onColumn.predict cases.besideOnes = .ok eta ∧
        fitted.predictMean cases = .ok (eta.map fitted.link.mean) ∧
        fitted.onColumn.predictMean cases.besideOnes = .ok (eta.map fitted.link.mean) ∧
        ∀ observed : Response α, fitted.score cases observed = fitted.scorer.score eta observed ∧
          fitted.onColumn.score cases.besideOnes observed = fitted.scorer.score eta observed) := by
  refine ⟨fit_besideOnes estimator l1 l2 features response, fun fitted => ⟨rfl, ?_, fun feature => ?_,
    fun exact cases width => ?_⟩⟩
  · simp [FittedEstimator.onColumn]
  · simp [FittedEstimator.onColumn, Array.getElem?_append]
  · obtain ⟨eta, predicted, columnPredicted⟩ := fitted.predict_onColumn exact width
    refine ⟨eta, predicted, columnPredicted, Failure.bind_eq_ok.2 ⟨eta, predicted, rfl⟩,
      Failure.bind_eq_ok.2 ⟨eta, columnPredicted, rfl⟩, fun observed => ⟨?_, ?_⟩⟩
    · unfold FittedEstimator.score
      rw [predicted]
      rfl
    · unfold FittedEstimator.score
      rw [columnPredicted]
      rfl

end Estimator

end

/-! A fit with an intercept. -/

namespace Estimator

open GroupLasso.Path

section
variable {α : Type} [Scalar α]

def pairCases : Cloglog α := ⟨#[1, 0], #[1, 1], none, #[expm1 2, 1]⟩

def pairResponse : Response α := { Response.ofSuccesses #[1, 0] with weights := some #[expm1 2, 1] }

def pairEstimator : Estimator α :=
  { ofFactory .cloglog .deviance with
    lagrange := 4
    weights := some (#[1], #[0])
    options := { PathOptions.default with initialStep := some (log 2 / exp 1) } }

end

theorem pairCases_real : (pairCases : Cloglog ℝ) = ⟨#[1, 0], #[1, 1], none, #[Real.exp 2 - 1, 1]⟩ := rfl

section
variable {intercept : ℝ} (nonneg : 0 ≤ intercept) (le_one : intercept ≤ 1)

theorem pairCases_shifted {case : Nat} (bound : case < 2) :
    pairCases.shifted (flat intercept) case = intercept := Mat.get_ofFn _ bound one_pos

include nonneg le_one

theorem pairCases_regular : pairCases.Regular (flat intercept) := by
  have floor : Real.log (1 / 10 ^ 12) ≤ 0 := Real.log_nonpos (by norm_num) (by norm_num)
  refine ⟨rfl, fun case bound => ?_⟩
  rw [pairCases_shifted bound]
  exact ⟨floor.trans nonneg, le_one.trans (by norm_num)⟩

theorem pairCases_value : (Loss.cloglog pairCases).value (flat intercept) =
    (Real.exp 2 - 1) * Cloglog.surprise intercept + Real.exp intercept := by
  have regular := pairCases_regular nonneg le_one
  change pairCases.value (flat intercept) = _
  rw [Cloglog.value_real]
  change ∑ case ∈ Finset.range 2, _ = _
  rw [Finset.sum_range_succ, Finset.sum_range_one,
    regular.caseLoss (show 0 < pairCases.successes.size from two_pos) (by simp [pairCases_real]),
    regular.caseLoss (show 1 < pairCases.successes.size from one_lt_two) (by simp [pairCases_real]),
    pairCases_shifted two_pos, pairCases_shifted one_lt_two]
  simp [pairCases_real]

theorem pairCases_gradient :
    ((Loss.cloglog pairCases).gradient (flat intercept)).get 0 0 =
        -((Real.exp 2 - 1) * Cloglog.ratio (Real.exp intercept)) ∧
      ((Loss.cloglog pairCases).gradient (flat intercept)).get 1 0 = Real.exp intercept := by
  have regular := pairCases_regular nonneg le_one
  constructor
  · refine (regular.get_gradient (show 0 < pairCases.successes.size from two_pos)).trans ?_
    rw [pairCases_shifted two_pos]
    simp [pairCases_real]
  · refine (regular.get_gradient (show 1 < pairCases.successes.size from one_lt_two)).trans ?_
    rw [pairCases_shifted one_lt_two]
    simp [pairCases_real]

end

theorem exp_two : Real.exp 2 = Real.exp 1 ^ 2 := by
  exact_mod_cast (Real.exp_one_pow 2).symm

theorem surprise_zero_sub : Cloglog.surprise 0 - Cloglog.surprise (Real.log 2) =
    Real.log (1 + (Real.exp 1)⁻¹) := by
  have grown : 1 < Real.exp 1 := Real.one_lt_exp_iff.2 one_pos
  have below : 0 < 1 - (Real.exp 1)⁻¹ := sub_pos.2 (inv_lt_one_of_one_lt₀ grown)
  have above : 0 < 1 + (Real.exp 1)⁻¹ := by positivity
  have factors : 1 - (Real.exp 1 ^ 2)⁻¹ = (1 - (Real.exp 1)⁻¹) * (1 + (Real.exp 1)⁻¹) := by
    rw [← inv_pow]
    ring
  rw [Cloglog.surprise, Cloglog.surprise, Real.exp_zero, Real.exp_log two_pos, Real.exp_neg,
    Real.exp_neg, exp_two, factors, Real.log_mul below.ne' above.ne']
  ring

theorem spent_le_gain : 1 + Real.log 2 * Real.exp 1 / 2 ≤
    (Real.exp 2 - 1) * (Cloglog.surprise 0 - Cloglog.surprise (Real.log 2)) := by
  have grown : 1 < Real.exp 1 := Real.one_lt_exp_iff.2 one_pos
  have weight : 0 ≤ Real.exp 1 ^ 2 - 1 := (sub_pos.2 (one_lt_pow₀ grown two_ne_zero)).le
  -- The logarithm is at least the first convergent of its continued fraction.
  have convergent := Real.le_log_one_add_of_nonneg (inv_nonneg.2 (Real.exp_pos 1).le)
  have reduced : 2 * (Real.exp 1)⁻¹ / ((Real.exp 1)⁻¹ + 2) = 2 / (1 + 2 * Real.exp 1) := by
    field_simp
  have enough : 1 + Real.log 2 * Real.exp 1 / 2 ≤
      (Real.exp 1 ^ 2 - 1) * (2 / (1 + 2 * Real.exp 1)) := by
    have length := Real.exp_one_gt_d9
    have shorter := mul_le_mul_of_nonneg_right Real.log_two_lt_d9.le (Real.exp_pos 1).le
    rw [mul_div_assoc', le_div_iff₀ (by positivity)]
    nlinarith
  rw [surprise_zero_sub, exp_two]
  exact enough.trans (mul_le_mul_of_nonneg_left (reduced ▸ convergent) weight)

theorem pairCases_balanced :
    Balanced (.cloglog pairCases) (Real.log 2 / Real.exp 1) (Real.log 2) 2 := by
  have log_pos : 0 < Real.log 2 := Real.log_pos one_lt_two
  have log_le : Real.log 2 ≤ 1 := (Real.log_two_lt_d9.trans (by norm_num)).le
  obtain ⟨firstZero, secondZero⟩ := pairCases_gradient le_rfl zero_le_one
  obtain ⟨first, second⟩ := pairCases_gradient log_pos.le log_le
  rw [Real.exp_log two_pos] at first second
  rw [Real.exp_zero] at firstZero secondZero
  refine ⟨rfl, div_pos log_pos (Real.exp_pos 1), ?_, ?_, ?_, second, zero_le_two⟩
  · have slope : pairSlope (.cloglog pairCases) 0 = -Real.exp 1 := by
      have : Real.exp 1 - 1 ≠ 0 := (Cloglog.exp_sub_one_pos one_pos).ne'
      rw [pairSlope, firstZero, secondZero, Cloglog.ratio, exp_two]
      field_simp
      ring
    rw [slope]
    field_simp
  · have spent : Real.log 2 ^ 2 / (2 * (Real.log 2 / Real.exp 1)) = Real.log 2 * Real.exp 1 / 2 := by
      field_simp
    rw [pairCases_value log_pos.le log_le, pairCases_value le_rfl zero_le_one, Real.exp_log two_pos,
      Real.exp_zero, spent]
    linarith [spent_le_gain]
  · have : Real.exp 2 - 1 ≠ 0 := (Cloglog.exp_sub_one_pos two_pos).ne'
    rw [first, Cloglog.ratio]
    field_simp

theorem pair_loss : LossFactory.cloglog.loss (pairResponse : Response ℝ) = .ok (.cloglog pairCases) := by
  have trials : Array.replicate 2 (1 : ℝ) = #[1, 1] := rfl
  have accepted : Cloglog.ofSuccesses #[(1 : ℝ), 0] =
      .ok ⟨#[1, 0], #[1, 1], none, CaseWeights.unit 2⟩ := by
    simp [Cloglog.ofSuccesses, Cloglog.ofTrials, Failure.expectLength, isFinite, List.range_succ,
      trials]
  have first : (1 : ℝ) ≤ Real.exp 2 := Real.one_le_exp two_pos.le
  have weighted : Cloglog.weighted ⟨#[1, 0], #[1, 1], none, CaseWeights.unit 2⟩ #[Real.exp 2 - 1, 1] =
      .ok pairCases := by
    simp [Cloglog.weighted, CaseWeights.validate, Failure.expectLength, pairCases_real, first]
  have loss : pairResponse.cloglog true = .ok (pairCases : Cloglog ℝ) :=
    Failure.bind_eq_ok.2 ⟨_, accepted, Failure.bind_eq_ok.2 ⟨_, weighted, rfl⟩⟩
  exact Failure.bind_eq_ok.2 ⟨_, loss, rfl⟩

theorem pair_fit : ∃ fitted, pairEstimator.fit pairFeatures pairResponse = .ok fitted ∧
    fitted.result.lagrange = [4] ∧ fitted.intercept = Real.log 2 ∧ fitted.coefs = #[0] := by
  have valid : pairEstimator.options.Valid :=
    { PathOptions.valid_default with
      initialStep := fun step chosen => Option.some.inj chosen ▸ pairCases_balanced.step_pos }
  obtain ⟨path, built, -, solution, exact, lagrangeMax⟩ :=
    pairCases_balanced.build valid rfl (by norm_num [pairEstimator, ofFactory, PathOptions.default]) rfl
  have largest : path.lagrangeMax = 4 := by
    rw [lagrangeMax]
    norm_num [pairEstimator, ofFactory, PathOptions.default]
  have four_pos : (0 : ℝ) < 4 := by norm_num
  obtain ⟨result, step, reached, run, steps, value, -, -, rests⟩ :=
    (build_fresh built).fit_single exact four_pos largest.le
  have listed : pairEstimator.sequence path.lagrangeMax = [4] := by
    rw [largest]
    exact if_neg (lt_irrefl 4)
  rw [← listed] at run
  refine ⟨_, fit_eq_ok.2 ⟨⟨rfl, four_pos⟩, _, path, result, reached, pair_loss, built, run, rfl⟩,
    ?_, ?_, ?_⟩
  · change result.lagrange = [4]
    simp [PathResult.lagrange, steps, value]
  · change reached.solution.get 0 0 = _
    rw [rests, solution]
    simp [level, Mat.get_ofFn]
  · change Array.ofFn (n := 1) (fun feature => reached.solution.get (feature + 1) 0) = #[0]
    simp [rests, solution, level, Mat.get_ofFn, Array.ofFn_succ]

/-- At the largest Lagrange value of interest the feature stays at zero beside the intercept. -/
theorem fit_intercept_pair :
    let column : Estimator ℝ :=
      { pairEstimator with weights := some (#[0] ++ #[1], #[0] ++ #[0]), intercept := false }
    ∃ fitted : FittedEstimator ℝ, pairEstimator.fit pairFeatures pairResponse = .ok fitted ∧
      column.fit (pairFeatures : Mat ℝ).besideOnes pairResponse = .ok fitted.onColumn ∧
      fitted.result.lagrange = [4] ∧ fitted.intercept = Real.log 2 ∧ fitted.coefs = #[0] ∧
      fitted.onColumn.coefs = #[Real.log 2, 0] ∧ (pairFeatures : Mat ℝ).cols = fitted.coefs.size ∧
      fitted.predict pairFeatures = .ok [Real.log 2, Real.log 2] ∧
      fitted.onColumn.predict (pairFeatures : Mat ℝ).besideOnes = .ok [Real.log 2, Real.log 2] ∧
      ∀ observed, fitted.score pairFeatures observed =
        fitted.onColumn.score (pairFeatures : Mat ℝ).besideOnes observed := by
  intro column
  obtain ⟨fitted, run, values, intercept, coefs⟩ := pair_fit
  obtain ⟨same, read⟩ := fit_intercept (pairEstimator : Estimator ℝ) #[1] #[0] pairFeatures pairResponse
  have columnRun : column.fit (pairFeatures : Mat ℝ).besideOnes pairResponse = .ok fitted.onColumn :=
    same.trans (congrArg (Except.map FittedEstimator.onColumn) run)
  have columnCoefs : fitted.onColumn.coefs = #[Real.log 2, 0] := by
    rw [FittedEstimator.onColumn, intercept, coefs]
    rfl
  have width : (pairFeatures : Mat ℝ).cols = fitted.coefs.size := by
    rw [coefs]
    rfl
  obtain ⟨-, -, -, predicts⟩ := read fitted
  obtain ⟨eta, predicted, columnPredicted, -, -, scored⟩ := predicts exact_real pairFeatures width
  have found : fitted.predict pairFeatures = .ok [Real.log 2, Real.log 2] := by
    refine Failure.bind_eq_ok.2 ⟨(), Failure.expectLength_eq_ok.2 width.symm, congrArg Except.ok ?_⟩
    rw [intercept, coefs]
    have flat : ∀ row < 2, ((pairFeatures : Mat ℝ).mul (.ofColumn #[0])).get row 0 = 0 := by
      intro row bound
      rw [Mat.get_mul_ofColumn bound, sumTo_real]
      change ∑ col ∈ Finset.range 1, _ = _
      rw [Finset.sum_range_one, Mat.get_ofColumn Nat.one_pos]
      exact mul_zero _
    change [Real.log 2 + ((pairFeatures : Mat ℝ).mul (.ofColumn #[0])).get 0 0,
      Real.log 2 + ((pairFeatures : Mat ℝ).mul (.ofColumn #[0])).get 1 0] = _
    rw [flat 0 two_pos, flat 1 one_lt_two, add_zero]
  rw [found] at predicted
  cases predicted
  exact ⟨fitted, run, columnRun, values, intercept, coefs, columnCoefs, width, found, columnPredicted,
    fun observed => (scored observed).1.trans (scored observed).2.symm⟩

end Estimator

end GroupLasso
