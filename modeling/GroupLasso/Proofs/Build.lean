import Mathlib.Tactic.MkIffOfInductiveProp
import GroupLasso.Proofs.Step

/-!
Paths as they are built. The settings and the weights of the model were accepted, its parts fit
together, and the solution is that of the unpenalized groups alone, with its gradient and predictor.
-/

namespace GroupLasso

open Scalar

namespace PathOptions

variable {α : Type} [Scalar α]

@[mk_iff]
structure Valid (options : PathOptions α) : Prop where
  alpha : 0 < options.alpha ∧ options.alpha ≤ 1
  l1Share : ∀ share, options.l1Share = some share → 0 ≤ share ∧ share ≤ 1
  gridRatio : 0 < options.gridRatio ∧ options.gridRatio < 1
  gridSize : 1 ≤ options.gridSize
  slope : isFinite options.slope = true ∧ -1 ≤ options.slope
  kktTolerance : 0 < options.kktTolerance ∧ options.kktTolerance < 1
  tolerance : 0 < options.tolerance
  nullTolerance : 0 < options.nullTolerance
  maxIterations : 1 ≤ options.maxIterations
  initialStep : ∀ step, options.initialStep = some step → 0 < step

theorem validate_eq_ok {options : PathOptions α} {done : Unit} :
    options.validate = .ok done ↔ options.Valid := by
  rw [valid_iff]
  unfold validate
  cases options.l1Share <;> cases options.initialStep <;>
    simp [Failure.guard_eq_ok, Failure.unless_eq_ok]

theorem valid_elasticNet {share : ℝ} (positive : 0 < share) (atMost : share ≤ 1) :
    (elasticNet share : PathOptions ℝ).Valid := by
  rw [valid_iff]
  norm_num [elasticNet, default, isFinite, positive, atMost]
  constructor
  · rintro share ⟨⟩
  · rintro step ⟨⟩

theorem valid_default : (default : PathOptions ℝ).Valid := valid_elasticNet one_pos le_rfl

end PathOptions

namespace Path

theorem chooseRidge_shape {penalty : Penalty ℝ} {given : Option (Mat ℝ)} {parameter : Mat ℝ}
    (chosen : chooseRidge penalty given = .ok parameter) : parameter.shape = penalty.shape := by
  cases given with
  | none =>
      cases chosen
      rfl
  | some matrix =>
      obtain ⟨_, shape, chosen⟩ := Failure.bind_eq_ok.1 chosen
      simp only at chosen
      split_ifs at chosen
      · cases chosen
        exact (Failure.expectShape_eq_ok.1 shape).symm
      · cases chosen

theorem chooseRidge_nonneg {penalty : Penalty ℝ} {given : Option (Mat ℝ)} {parameter : Mat ℝ}
    (chosen : chooseRidge penalty given = .ok parameter) (row col : Nat) :
    0 ≤ parameter.get row col := by
  by_cases inside : row < parameter.rows ∧ col < parameter.cols
  · cases given with
    | none =>
        cases chosen
        rw [Mat.rows_ofFn, Mat.cols_ofFn] at inside
        rw [Mat.get_ofFn _ inside.1 inside.2]
        split_ifs
        · exact le_rfl
        · exact zero_le_one
    | some matrix =>
        obtain ⟨_, -, chosen⟩ := Failure.bind_eq_ok.1 chosen
        simp only at chosen
        split_ifs at chosen with accepted
        · cases chosen
          simp only [Mat.all, List.all_eq_true, List.mem_range, decide_eq_true_eq,
            isFiniteNonneg_real] at accepted
          exact accepted col inside.2 row inside.1
        · cases chosen
  · exact (Mat.get_eq_zero (by omega)).ge

section
variable {α : Type} [Scalar α] {path fitted : Path α}

theorem fitNull_eq_ok (solved : path.fitNull = .ok fitted) :
    fitted = path ∨ ∃ null,
      path.solveSubproblem path.penalty.unpenalized nullLagrange path.options.nullSolve = .ok null ∧
      fitted = { path with
        solution := path.solution.scatterRows path.penalty.unpenalized null.solution
        predictor := null.predictor
        step := null.step } := by
  unfold fitNull at solved
  simp only at solved
  split_ifs at solved
  · cases solved
    exact .inl rfl
  · obtain ⟨null, found, finished⟩ := Failure.bind_eq_ok.1 solved
    cases finished
    exact .inr ⟨null, found, rfl⟩

theorem fitNull_model (solved : path.fitNull = .ok fitted) : SameModel path fitted := by
  rcases fitNull_eq_ok solved with rfl | ⟨null, -, rfl⟩
  · exact .refl fitted
  · exact ⟨rfl, rfl, rfl, rfl, rfl⟩

theorem warnOfRidge_model (path : Path α) : SameModel path path.warnOfRidge := by
  unfold warnOfRidge
  split_ifs
  · exact ⟨rfl, rfl, rfl, rfl, rfl⟩
  · exact .refl path

theorem fitNull_finished (solved : path.fitNull = .ok fitted) :
    SameModel path (fitted.warnOfRidge.withGradient 1) :=
  (fitNull_model solved).trans ((warnOfRidge_model fitted).trans ⟨rfl, rfl, rfl, rfl, rfl⟩)

end

/-! Built paths. -/

theorem build_iff {α : Type} [Scalar α] {loss : Loss α} {design : Design α} {l1 l2 : Array α}
    {ridgeParameter : Option (Mat α)} {options : PathOptions α} {path : Path α} :
    Path.build loss design l1 l2 ridgeParameter options = .ok path ↔
      options.validate = .ok () ∧ loss.shape = design.outputShape ∧ ∃ penalty parameter fitted,
        Penalty.ofWeights design.inputShape (mixWeights options l1 l2).1 (mixWeights options l1 l2).2 1 =
          .ok penalty ∧
        chooseRidge penalty ridgeParameter = .ok parameter ∧
        (blank loss design penalty parameter options).fitNull = .ok fitted ∧
        path = fitted.warnOfRidge.withGradient 1 := by
  unfold Path.build
  simp only [Failure.bind_eq_ok, Failure.mapError_eq_ok, Failure.expectShape_eq_ok]
  constructor
  · rintro ⟨_, validated, _, outputs, penalty, accepted, parameter, chosen, fitted, solved, finished⟩
    cases finished
    exact ⟨validated, outputs, penalty, parameter, fitted, accepted, chosen, solved, rfl⟩
  · rintro ⟨validated, outputs, penalty, parameter, fitted, accepted, chosen, solved, rfl⟩
    exact ⟨(), validated, (), outputs, penalty, accepted, parameter, chosen, fitted, solved, rfl⟩

section
variable {loss : Loss ℝ} {design : Design ℝ} {l1 l2 : Array ℝ} {ridgeParameter : Option (Mat ℝ)}
  {options : PathOptions ℝ} {penalty : Penalty ℝ} {parameter : Mat ℝ} {path : Path ℝ}

theorem build_eq_ok (built : Path.build loss design l1 l2 ridgeParameter options = .ok path) :
    options.Valid ∧ ∃ penalty parameter fitted,
      chooseRidge penalty ridgeParameter = .ok parameter ∧
      (blank loss design penalty parameter options).WellFormed ∧
      (blank loss design penalty parameter options).fitNull = .ok fitted ∧
      path = fitted.warnOfRidge.withGradient 1 := by
  obtain ⟨validated, outputs, penalty, parameter, fitted, accepted, chosen, solved, finished⟩ :=
    build_iff.1 built
  have valid := PathOptions.validate_eq_ok.1 validated
  obtain ⟨penaltyEq, weights⟩ := Penalty.ofWeights_eq_ok.1 accepted
  exact ⟨valid, penalty, parameter, fitted, chosen,
    ⟨outputs, penaltyEq ▸ rfl, weights, chooseRidge_shape chosen, valid.alpha.1, valid.alpha.2⟩,
    solved, finished⟩

structure NullFit (path : Path ℝ) : Prop where
  unmarked : path.everActive = none
  shape : path.solution.shape = path.shape
  support : ∀ group, path.penalty.isUnpenalized group = false →
    ∀ col, path.solution.get group col = 0
  predictor : path.predictor = path.design.dot path.solution

/-- A path as it is built, with the gradient at Lagrange value one. -/
structure Fresh (path : Path ℝ) : Prop extends NullFit path where
  wellFormed : path.WellFormed
  options : path.options.Valid
  gradient : path.gradient =
    (path.fullGradient path.predictor).add (path.ridgeGradient path.solution 1)

theorem fitNull_nullFit (wellFormed : (blank loss design penalty parameter options).WellFormed)
    (solved : (blank loss design penalty parameter options).fitNull = .ok path) : NullFit path := by
  rcases fitNull_eq_ok solved with rfl | ⟨null, found, rfl⟩
  · refine ⟨rfl, rfl, ?_, ?_⟩
    · intro group _ col
      exact Mat.get_zero _ _ _ _
    · have inputs : penalty.shape.cols = design.responses := congrArg Shape.cols wellFormed.inputs
      change _ = design.dot (Mat.zero penalty.shape.rows penalty.shape.cols)
      rw [inputs, Design.dot_zero]
      rfl
  · have distinct := Penalty.unpenalized_nodup penalty
    have nonneg : (0 : ℝ) ≤ nullLagrange := by norm_num [nullLagrange]
    refine ⟨rfl, by simp [Mat.shape, blank, shape], ?_, ?_⟩
    · intro group penalized col
      apply Mat.get_embedded_unlisted _ distinct
      intro listed
      exact Bool.false_ne_true (penalized.symm.trans (Penalty.mem_unpenalized.1 listed).2)
    · apply solveSubproblem_predictor wellFormed nonneg distinct _ found
      intro group listed
      exact (Penalty.mem_unpenalized.1 listed).1

theorem NullFit.warnOfRidge (null : NullFit path) : NullFit path.warnOfRidge := by
  unfold Path.warnOfRidge
  split_ifs
  · exact ⟨null.unmarked, null.shape, null.support, null.predictor⟩
  · exact null

theorem build_loss (built : Path.build loss design l1 l2 ridgeParameter options = .ok path) :
    path.loss = loss := by
  obtain ⟨-, _, _, _, -, -, solved, rfl⟩ := build_eq_ok built
  exact (fitNull_finished solved).loss

theorem build_ridge_nonneg
    (built : Path.build loss design l1 l2 ridgeParameter options = .ok path) (row col : Nat) :
    0 ≤ path.ridgeParameter.get row col := by
  obtain ⟨-, _, parameter, _, chosen, -, solved, rfl⟩ := build_eq_ok built
  rw [(fitNull_finished solved).ridgeParameter]
  exact chooseRidge_nonneg chosen row col

theorem build_fresh (built : Path.build loss design l1 l2 ridgeParameter options = .ok path) :
    Fresh path := by
  obtain ⟨valid, penalty, parameter, fitted, -, wellFormed, solved, rfl⟩ := build_eq_ok built
  have same := fitNull_finished solved
  have null := (fitNull_nullFit wellFormed solved).warnOfRidge
  refine ⟨⟨null.unmarked, null.shape, null.support, null.predictor⟩, same.wellFormed wellFormed, ?_,
    rfl⟩
  rw [same.options]
  exact valid

theorem build_of_penalized {α : Type} [Scalar α] {loss : Loss α} {design : Design α}
    {l1 l2 : Array α} {options : PathOptions α} {penalty : Penalty α}
    (validated : options.validate = .ok ()) (outputs : loss.shape = design.outputShape)
    (accepted : Penalty.ofWeights design.inputShape (mixWeights options l1 l2).1
      (mixWeights options l1 l2).2 1 = .ok penalty)
    (penalized : penalty.unpenalized = []) :
    Path.build loss design l1 l2 none options =
      .ok ((blank loss design penalty (Mat.ofFn penalty.shape.rows penalty.shape.cols fun group _ =>
        if penalty.isUnpenalized group then 0 else 1) options).withGradient 1) := by
  let start := blank loss design penalty (Mat.ofFn penalty.shape.rows penalty.shape.cols
    fun group _ => if penalty.isUnpenalized group then 0 else 1) options
  have none : start.penalty.unpenalized = [] := penalized
  have solved : start.fitNull = .ok start := by simp [fitNull, none]
  have quiet : start.warnOfRidge = start := by simp [Path.warnOfRidge, hasUnpenalizedRidge, none]
  rw [build_iff]
  exact ⟨validated, outputs, penalty, _, start, accepted, rfl, solved, by rw [quiet]⟩

theorem build_penalized (validated : options.validate = .ok ())
    (unmixed : options.l1Share = none) (outputs : loss.shape = design.outputShape)
    (accepted : Penalty.ofWeights design.inputShape l1 l2 1 = .ok penalty)
    (penalized : penalty.unpenalized = []) :
    Path.build loss design l1 l2 none options =
      .ok ((blank loss design penalty (Mat.ofFn penalty.shape.rows penalty.shape.cols fun group _ =>
        if penalty.isUnpenalized group then 0 else 1) options).withGradient 1) := by
  have weights : mixWeights options l1 l2 = (l1, l2) := by simp [mixWeights, unmixed]
  refine build_of_penalized validated outputs ?_ penalized
  rw [weights]
  exact accepted

theorem build_of_solved {α : Type} [Scalar α] {loss : Loss α} {design : Design α} {l1 l2 : Array α}
    {options : PathOptions α} {penalty : Penalty α} {null : Subsolution α}
    (validated : options.validate = .ok ()) (unmixed : options.l1Share = none)
    (outputs : loss.shape = design.outputShape)
    (accepted : Penalty.ofWeights design.inputShape l1 l2 1 = .ok penalty)
    (some : penalty.unpenalized ≠ []) :
    let start := blank loss design penalty (Mat.ofFn penalty.shape.rows penalty.shape.cols
      fun group _ => if penalty.isUnpenalized group then 0 else 1) options
    start.solveSubproblem penalty.unpenalized nullLagrange options.nullSolve = .ok null →
    ∃ path, Path.build loss design l1 l2 none options = .ok path ∧ SameModel start path ∧
      path.solution = start.solution.scatterRows penalty.unpenalized null.solution := by
  intro start solved
  let fitted : Path α := { start with
    solution := start.solution.scatterRows penalty.unpenalized null.solution
    predictor := null.predictor
    step := null.step }
  have weights : mixWeights options l1 l2 = (l1, l2) := by simp [mixWeights, unmixed]
  have finished : start.fitNull = .ok fitted := by
    unfold fitNull
    exact (if_neg fun empty => some (List.isEmpty_iff.1 empty)).trans
      (Failure.bind_eq_ok.2 ⟨null, solved, rfl⟩)
  refine ⟨_, build_iff.2 ⟨validated, outputs, penalty, _, fitted, ?_, rfl, finished, rfl⟩,
    fitNull_finished finished, ?_⟩
  · rw [weights]
    exact accepted
  · unfold warnOfRidge
    split_ifs <;> rfl

end

end Path

end GroupLasso
