import GroupLasso.Proofs.Acceleration
import GroupLasso.Proofs.Convexity

/-!
A run that converges ends close to a stationary point. The last candidate comes with a subgradient of the
penalty there, and with it the gradient at the extrapolated point is what the candidate moved, divided by
the step. What the gradient changes over that move is at most its Lipschitz constant times as long.
-/

namespace GroupLasso

open Scalar

/-- The gradient is Lipschitz in the Frobenius norm. -/
structure Smooth.Lipschitz (smooth : Smooth ℝ) (constant : ℝ) : Prop where
  nonneg : 0 ≤ constant
  shape : ∀ point : Mat ℝ, point.shape = smooth.shape → (smooth.gradient point).shape = smooth.shape
  distance_le : ∀ point other : Mat ℝ, point.shape = smooth.shape → other.shape = smooth.shape →
    (smooth.gradient point).distance (smooth.gradient other) ≤ constant * point.distance other

namespace Problem

section
variable {problem : Problem ℝ} {point gradient found : Mat ℝ} {step : ℝ}

/-- The subgradient of the penalty that a proximal step leaves at its candidate. -/
noncomputable def slopes (point gradient found : Mat ℝ) (step : ℝ) : Mat ℝ :=
  Mat.ofFn found.rows found.cols fun group col =>
    1 / step * (point.get group col - found.get group col) - gradient.get group col

theorem slopes_isSubgradient (valid : problem.penalty.Valid)
    (pointShape : point.shape = problem.penalty.shape) (step_pos : 0 < step) {group : Nat}
    (bound : group < problem.penalty.groups) :
    let found := problem.candidate point gradient step
    problem.penalty.IsSubgradient group ((slopes point gradient found step).get group)
      (found.get group) := by
  intro found other
  have supports : ∑ col ∈ Finset.range problem.penalty.shape.cols,
      ((point.addScaled (-step) gradient).get group col - found.get group col) *
        (other col - found.get group col) + step * problem.penalty.rowCost group (found.get group) ≤
          step * problem.penalty.rowCost group other :=
    Penalty.proximal_supports valid step_pos.le bound other
  have slope : ∀ col ∈ Finset.range problem.penalty.shape.cols,
      ((point.addScaled (-step) gradient).get group col - found.get group col) *
        (other col - found.get group col) =
      step * ((slopes point gradient found step).get group col * (other col - found.get group col)) := by
    intro col member
    have colBound := Finset.mem_range.1 member
    have moved : (point.addScaled (-step) gradient).get group col =
        point.get group col + -step * gradient.get group col :=
      Mat.get_ofExtent pointShape bound colBound _
    have entry : (slopes point gradient found step).get group col =
        1 / step * (point.get group col - found.get group col) - gradient.get group col :=
      Mat.get_ofFn _ bound colBound
    rw [moved, entry]
    field_simp
    ring
  rw [Finset.sum_congr rfl slope, ← Finset.mul_sum, ← mul_add] at supports
  linarith [le_of_mul_le_mul_left supports step_pos]

theorem frobenius_add_slopes_le {shape : Shape} {here there : Mat ℝ} (hereShape : here.shape = shape)
    (thereShape : there.shape = shape) (pointShape : point.shape = shape)
    (foundShape : found.shape = shape) (step_pos : 0 < step) :
    (here.add (slopes point there found step)).frobenius ≤
      here.distance there + 1 / step * found.distance point := by
  have sumShape : (here.add (slopes point there found step)).shape = shape := hereShape
  have same : here.shape = (slopes point there found step).shape := hereShape.trans foundShape.symm
  have entry : ∀ row < shape.rows, ∀ col < shape.cols,
      (here.add (slopes point there found step)).get row col ^ 2 =
        (here.get row col - there.get row col +
          1 / step * (point.get row col - found.get row col)) ^ 2 := by
    intro row rowBound col colBound
    have slope : (slopes point there found step).get row col =
        1 / step * (point.get row col - found.get row col) - there.get row col :=
      Mat.get_ofExtent foundShape rowBound colBound _
    rw [Mat.get_add same, slope]
    ring
  rw [Mat.frobenius_eq_sum sumShape, Shape.sum_congr entry, Mat.distance_eq_sum hereShape thereShape,
    Mat.distance_comm foundShape pointShape, Mat.distance_eq_sum pointShape foundShape,
    ← Shape.sqrt_sum_scaled (by positivity)]
  exact Shape.sqrt_sum_add_le _ _

end

/-- A run that converges returns coefficients with a subgradient of the penalty in every group that cancels
the gradient up to the tolerance, and leaves these coefficients. -/
theorem solve_stationary {smooth : Smooth ℝ} {shape : Shape} {l1 l2 : Array ℝ} {lagrange constant : ℝ}
    {penalty : Penalty ℝ} {problem : Problem ℝ} {options : SolveOptions ℝ} {solution : Mat ℝ}
    (accepted : Penalty.ofWeights shape l1 l2 lagrange = .ok penalty)
    (prepared : Prepared smooth penalty problem) (lipschitz : smooth.Lipschitz constant)
    (solved : (problem.solve options).1 = .ok solution) :
    (problem.solve options).2.coefs = solution ∧ 0 < (problem.solve options).2.step ∧
      ∃ subgradient : Mat ℝ, subgradient.shape = shape ∧
        (∀ group < shape.rows,
          penalty.IsSubgradient group (subgradient.get group) (solution.get group)) ∧
        ((smooth.gradient solution).add subgradient).frobenius ≤
          (constant + 1 / (problem.solve options).2.step) * options.tolerance *
            max 1 solution.frobenius := by
  obtain ⟨fields, valid⟩ := Penalty.ofWeights_eq_ok.1 accepted
  have penaltyShape : penalty.shape = shape := congrArg Penalty.shape fields
  obtain ⟨rfl, rfl, shapes, coefsShape⟩ := prepared.fits
  subst penaltyShape
  obtain ⟨passes, iterate, step, reached, -, converged, finished⟩ := solve_eq_ok solved
  obtain ⟨found, settled⟩ := pass_eq_converged.1 converged
  have sound := reached.sound coefsShape
  have foundShape := accepted?_shape found
  have step_pos := (accepted?_step sound.step_pos found).1
  obtain ⟨-, -, candidate, -⟩ := accepted?_eq_some found
  rw [finished]
  refine ⟨rfl, step_pos, slopes iterate.extrapolated (problem.smooth.gradient iterate.extrapolated)
    solution step, foundShape, fun group bound => ?_, ?_⟩
  · rw [candidate]
    exact slopes_isSubgradient valid sound.extrapolated step_pos bound
  · have shape : ∀ point : Mat ℝ, point.shape = problem.penalty.shape →
        (problem.smooth.gradient point).shape = problem.penalty.shape :=
      fun point pointShape => (lipschitz.shape point (pointShape.trans shapes.symm)).trans shapes
    have change := lipschitz.distance_le solution iterate.extrapolated (foundShape.trans shapes.symm)
      (sound.extrapolated.trans shapes.symm)
    have factor : 0 ≤ constant + 1 / step := add_nonneg lipschitz.nonneg (by positivity)
    calc _ ≤ (problem.smooth.gradient solution).distance (problem.smooth.gradient iterate.extrapolated) +
          1 / step * solution.distance iterate.extrapolated :=
          frobenius_add_slopes_le (shape _ foundShape) (shape _ sound.extrapolated) sound.extrapolated
            foundShape step_pos
      _ ≤ (constant + 1 / step) * solution.distance iterate.extrapolated := by linarith
      _ ≤ (constant + 1 / step) * (options.tolerance * max solution.frobenius 1) :=
          mul_le_mul_of_nonneg_left settled factor
      _ = (constant + 1 / step) * options.tolerance * max 1 solution.frobenius := by
          rw [max_comm, mul_assoc]

theorem unit_lipschitz (lagrange : ℝ) : (Path.unitProblem lagrange).smooth.Lipschitz 1 := by
  have gradient : ∀ point : Mat ℝ, point.shape = ⟨1, 1⟩ →
      (Path.unitProblem lagrange).smooth.gradient point = Mat.ofFn 1 1 fun _ _ => point.get 0 0 - 1 :=
    fun point shape => Path.unit_gradient shape
  refine ⟨zero_le_one, fun point shape => ?_, fun point other shape otherShape => ?_⟩
  · rw [gradient point shape]
    rfl
  · have square : ∀ entry : ℝ, (Mat.ofFn 1 1 fun _ _ => entry).shape = ⟨1, 1⟩ := fun _ => rfl
    rw [gradient point shape, gradient other otherShape, Mat.distance_eq_sum (square _) (square _),
      Mat.distance_eq_sum shape otherShape, one_mul]
    refine (congrArg _ (Shape.sum_congr fun row rowBound col colBound => ?_)).le
    obtain rfl : row = 0 := Nat.lt_one_iff.1 rowBound
    obtain rfl : col = 0 := Nat.lt_one_iff.1 colBound
    rw [Mat.get_ofFn _ one_pos one_pos, Mat.get_ofFn _ one_pos one_pos, sub_sub_sub_cancel_right]

theorem solve_stationary_unit :
    let problem : Problem ℝ := Path.unitProblem (1 / 2)
    let options : SolveOptions ℝ := ⟨1 / 10, 3, some (1 / 2)⟩
    ∃ solution, (problem.solve options).1 = .ok solution ∧ (problem.solve options).2.coefs = solution ∧
      0 < (problem.solve options).2.step ∧ ∃ subgradient : Mat ℝ, subgradient.shape = ⟨1, 1⟩ ∧
        (∀ group < 1,
          problem.penalty.IsSubgradient group (subgradient.get group) (solution.get group)) ∧
        ((problem.smooth.gradient solution).add subgradient).frobenius ≤
          (1 + 1 / (problem.solve options).2.step) * options.tolerance * max 1 solution.frobenius := by
  intro problem options
  obtain ⟨_, solution, -, -, -, solved⟩ :=
    unit_settles (show options.initialStep = some (1 / 2) from rfl) le_rfl (by norm_num [options])
      (by norm_num [options])
  obtain ⟨accepted, prepared⟩ := unit_prepared one_half_pos.le
  exact ⟨solution, solved, solve_stationary accepted prepared (unit_lipschitz _) solved⟩

end Problem

end GroupLasso
