import GroupLasso.Proofs.Backtracking
import GroupLasso.Proofs.Losses

/-!
How much worse than the start a solution can be. The point that a run keeps is never worse than the start,
but a run that converges returns the candidate of its last pass without comparing the two. Where the
function lies above its tangents, that candidate exceeds the kept point by no more than the last
extrapolation, the tolerance and the slack of the bound allow, and this can be more than the kept point
gained.
-/

namespace GroupLasso

open Scalar

namespace Mat

variable {shape : Shape} {left right middle : Mat ℝ}

theorem distance_le_add (leftShape : left.shape = shape) (middleShape : middle.shape = shape)
    (rightShape : right.shape = shape) :
    left.distance right ≤ left.distance middle + middle.distance right := by
  have split : (shape.sum fun row col => (left.get row col - right.get row col) ^ 2) =
      shape.sum fun row col => ((left.get row col - middle.get row col) +
        (middle.get row col - right.get row col)) ^ 2 :=
    Shape.sum_congr fun row _ col _ => by rw [sub_add_sub_cancel]
  rw [distance_eq_sum leftShape rightShape, distance_eq_sum leftShape middleShape,
    distance_eq_sum middleShape rightShape, split]
  exact Shape.sqrt_sum_add_le _ _

theorem distance_sq_sub_le (leftShape : left.shape = shape) (middleShape : middle.shape = shape)
    (rightShape : right.shape = shape) : left.distance right ^ 2 - left.distance middle ^ 2 ≤
      2 * left.distance right * middle.distance right := by
  have triangle := distance_le_add leftShape middleShape rightShape
  have whole : 0 ≤ left.distance right := frobenius_nonneg _
  have rest : 0 ≤ left.distance middle := frobenius_nonneg _
  have moved : 0 ≤ middle.distance right := frobenius_nonneg _
  rcases le_total (left.distance right) (middle.distance right) with short | long
  · have near := mul_le_mul_of_nonneg_left short whole
    linarith [sq_nonneg (left.distance middle), mul_nonneg whole moved]
  · have square := pow_le_pow_left₀ (sub_nonneg.2 long) (sub_le_iff_le_add.2 triangle) 2
    linarith [sq_nonneg (middle.distance right)]

theorem distance_sq_sub_div_le {step limit : ℝ} (leftShape : left.shape = shape)
    (middleShape : middle.shape = shape) (rightShape : right.shape = shape) (step_pos : 0 < step)
    (moved : middle.distance right ≤ limit) :
    (left.distance right ^ 2 - left.distance middle ^ 2) / (2 * step) ≤
      left.distance right * limit / step :=
  calc (left.distance right ^ 2 - left.distance middle ^ 2) / (2 * step)
      ≤ 2 * left.distance right * middle.distance right / (2 * step) :=
        div_le_div_of_nonneg_right (distance_sq_sub_le leftShape middleShape rightShape) (by positivity)
    _ = left.distance right * middle.distance right / step := by
        rw [mul_assoc, mul_div_mul_left _ _ two_ne_zero]
    _ ≤ left.distance right * limit / step :=
        div_le_div_of_nonneg_right (mul_le_mul_of_nonneg_left moved (frobenius_nonneg _)) step_pos.le

end Mat

namespace Problem

section
variable {problem : Problem ℝ} {iterate : Iterate ℝ} {found : Mat ℝ} {step : ℝ}

/-- Room of the quadratic bound for rounding. -/
def slack {α : Type} [Scalar α] (problem : Problem α) (point found : Mat α) (step : α) : α :=
  1e-12 * Scalar.abs (bound (problem.smooth.value point) (problem.smooth.gradient point)
    (found.addScaled (-1) point) step)

theorem accepted?_le (accepted : problem.accepted? iterate = some (found, step)) :
    problem.smooth.value found ≤ bound (problem.smooth.value iterate.extrapolated)
      (problem.smooth.gradient iterate.extrapolated) (found.addScaled (-1) iterate.extrapolated) step +
        problem.slack iterate.extrapolated found step := by
  obtain ⟨count, rfl, rfl, first⟩ := accepted?_eq_some accepted
  exact of_decide_eq_true first.accepted

end

/-- The kept point of the last pass is no worse than the start. The solution exceeds it by at most the
distance of the last extrapolation times the move that the tolerance allows, over the step, and the slack
of the bound; a run that converges in its first pass extrapolated nothing. -/
theorem solve_excess {smooth : Smooth ℝ} {shape : Shape} {l1 l2 : Array ℝ} {lagrange : ℝ}
    {penalty : Penalty ℝ} {problem : Problem ℝ} {options : SolveOptions ℝ} {solution : Mat ℝ}
    (accepted : Penalty.ofWeights shape l1 l2 lagrange = .ok penalty)
    (prepared : Prepared smooth penalty problem)
    (tangent : ∀ point other : Mat ℝ, point.shape = shape → other.shape = shape →
      smooth.value point + (smooth.gradient point).inner (other.addScaled (-1) point) ≤
        smooth.value other)
    (solved : (problem.solve options).1 = .ok solution) :
    ∃ passes iterate, Passes problem options passes iterate ∧ passes < options.maxIterations ∧
      problem.pass options.tolerance passes iterate =
        .converged solution (problem.solve options).2.step ∧
      problem.objective iterate.kept ≤ problem.objective problem.coefs ∧
      problem.objective solution ≤ problem.objective iterate.kept +
        iterate.kept.distance iterate.extrapolated *
          (options.tolerance * max 1 solution.frobenius) / (problem.solve options).2.step +
        problem.slack iterate.extrapolated solution (problem.solve options).2.step ∧
      (passes = 0 → iterate.kept = problem.coefs ∧ iterate.extrapolated = problem.coefs) := by
  obtain ⟨fields, valid⟩ := Penalty.ofWeights_eq_ok.1 accepted
  have penaltyShape : penalty.shape = shape := congrArg Penalty.shape fields
  obtain ⟨rfl, rfl, -, coefsShape⟩ := prepared.fits
  subst penaltyShape
  obtain ⟨passes, iterate, step, reached, budget, last, finished⟩ := solve_eq_ok solved
  obtain ⟨found, settled⟩ := pass_eq_converged.1 last
  have sound := reached.sound coefsShape
  obtain ⟨step_pos, -⟩ := accepted?_step sound.step_pos found
  have foundShape := accepted?_shape found
  have finalStep : (problem.solve options).2.step = step := by rw [finished]
  have excess := candidate_excess_le valid sound (tangent _ _ sound.extrapolated sound.kept) found
    (accepted?_le found) sound.kept
  refine ⟨passes, iterate, reached, budget, finalStep ▸ last, reached.objective_le coefsShape, ?_, ?_⟩
  · have moved : solution.distance iterate.extrapolated ≤
        options.tolerance * max 1 solution.frobenius := by
      rwa [max_comm]
    have overshoot :=
      Mat.distance_sq_sub_div_le sound.kept foundShape sound.extrapolated step_pos moved
    rw [finalStep]
    linarith
  · rintro rfl
    cases reached
    exact ⟨rfl, rfl⟩

theorem solve_excess_unit :
    let problem : Problem ℝ := Path.unitProblem (1 / 2)
    let options : SolveOptions ℝ := ⟨1 / 10, 3, some (1 / 2)⟩
    ∃ iterate solution, (problem.solve options).1 = .ok solution ∧ Passes problem options 2 iterate ∧
      iterate.kept.get 0 0 < iterate.extrapolated.get 0 0 ∧
      problem.pass options.tolerance 2 iterate = .converged solution (problem.solve options).2.step ∧
      problem.objective iterate.kept ≤ problem.objective problem.coefs ∧
      problem.objective solution ≤ problem.objective iterate.kept +
        iterate.kept.distance iterate.extrapolated *
          (options.tolerance * max 1 solution.frobenius) / (problem.solve options).2.step +
        problem.slack iterate.extrapolated solution (problem.solve options).2.step := by
  intro problem options
  obtain ⟨iterate, solution, reached, beyond, converged, solved⟩ :=
    unit_settles (show options.initialStep = some (1 / 2) from rfl) le_rfl (by norm_num [options])
      (by norm_num [options])
  obtain ⟨accepted, prepared⟩ := unit_prepared one_half_pos.le
  obtain ⟨passes, other, again, -, last, below, excess, -⟩ :=
    solve_excess accepted prepared (fun _ _ => unit_tangent (1 / 2)) solved
  obtain rfl := reached.converged_unique converged again last
  obtain rfl := reached.unique again
  exact ⟨iterate, solution, solved, reached, beyond, last, below, excess⟩

/-! A solution that is worse than the start. -/

/-- One case with count one and one coefficient, without a penalty, from far below the best value. -/
def steepProblem {α : Type} [Scalar α] : Problem α :=
  let smooth : Composed α :=
    ⟨.poisson ⟨#[1], none, CaseWeights.unit 1⟩, Path.unitDesign, none⟩
  ⟨smooth.smooth, Path.unitPenalty.withLagrange 0, .ofFn 1 1 fun _ _ => -80, 1⟩

section
variable {point other : Mat ℝ} {step : ℝ}

theorem steep_accepted :
    Penalty.ofWeights ⟨1, 1⟩ #[1] #[0] 0 = .ok (steepProblem : Problem ℝ).penalty ∧
      Prepared (steepProblem : Problem ℝ).smooth steepProblem.penalty steepProblem := by
  have penalty : (steepProblem : Problem ℝ).penalty = ⟨⟨1, 1⟩, #[1], #[0], 0⟩ := rfl
  have valid : (steepProblem : Problem ℝ).penalty.Valid :=
    Penalty.valid_iff.2 (by simp [penalty, Penalty.groups])
  let built : Problem ℝ := { (steepProblem : Problem ℝ) with coefs := .zero 1 1 }
  have started : built.warmStart (.ofFn 1 1 fun _ _ => -80) = .ok steepProblem := rfl
  exact ⟨Penalty.ofWeights_eq_ok.2 ⟨penalty, valid⟩, .warm (.built rfl) started⟩

theorem steep_convex : (steepProblem : Problem ℝ).smooth.Convex := by
  refine Composed.convex_loss (Poisson.convex fun case => ?_) rfl
  exact CaseWeights.nonneg_of_validate (CaseWeights.validate_unit 1) case

theorem steep_predictor (shape : point.shape = ⟨1, 1⟩) :
    (Path.unitDesign : Design ℝ).dot point = point := by
  have cols : point.cols = 1 := Mat.cols_eq shape
  refine Path.unit_ext (congrArg (Shape.mk 1) cols) shape ?_
  simp [Path.unitDesign, Design.dot, Mat.mul, Mat.get_ofFn, cols]

theorem steep_value (shape : point.shape = ⟨1, 1⟩) :
    (steepProblem : Problem ℝ).smooth.value point = Real.exp (point.get 0 0) - point.get 0 0 := by
  change (Loss.poisson ⟨#[1], none, CaseWeights.unit 1⟩).value (Path.unitDesign.dot point) = _
  rw [steep_predictor shape]
  simp [Loss.value, Poisson.value, Poisson.shifted, CaseWeights.unit, Link.mean]
  rfl

theorem steep_gradient (shape : point.shape = ⟨1, 1⟩) :
    (steepProblem : Problem ℝ).smooth.gradient point =
      .ofFn 1 1 fun _ _ => Real.exp (point.get 0 0) - 1 := by
  change Path.unitDesign.adjoint ((Loss.poisson ⟨#[1], none, CaseWeights.unit 1⟩).gradient
    (Path.unitDesign.dot point)) = _
  rw [steep_predictor shape]
  refine Path.unit_ext rfl rfl ?_
  simp [Loss.gradient, Poisson.gradient, Poisson.shifted, CaseWeights.unit, Link.mean, Path.unitDesign,
    Design.adjoint, Mat.transposeMul, Mat.get_ofFn]
  rfl

theorem steep_objective (shape : point.shape = ⟨1, 1⟩) :
    (steepProblem : Problem ℝ).objective point = Real.exp (point.get 0 0) - point.get 0 0 := by
  have free : (steepProblem : Problem ℝ).penalty.value point = 0 := zero_mul _
  rw [objective, free, add_zero, steep_value shape]

theorem steep_candidate (shape : point.shape = ⟨1, 1⟩) (nonneg : 0 ≤ step) :
    (steepProblem : Problem ℝ).candidate point (steepProblem.smooth.gradient point) step =
      .ofFn 1 1 fun _ _ => point.get 0 0 - step * (Real.exp (point.get 0 0) - 1) := by
  have valid := (Penalty.ofWeights_eq_ok.1 steep_accepted.1).2
  have moved : (point.addScaled (-step) (steepProblem.smooth.gradient point)).shape =
      (steepProblem : Problem ℝ).penalty.shape := shape
  rw [candidate, Penalty.proximal_of_free valid (fun point => zero_mul _) moved nonneg,
    steep_gradient shape]
  refine Path.unit_ext shape rfl ?_
  rw [Mat.get_addScaled shape, Mat.get_ofFn _ one_pos one_pos, Mat.get_ofFn _ one_pos one_pos]
  ring

theorem steep_bound (shape : point.shape = ⟨1, 1⟩) (step_pos : 0 < step) :
    bound ((steepProblem : Problem ℝ).smooth.value point) (steepProblem.smooth.gradient point)
      ((steepProblem.candidate point (steepProblem.smooth.gradient point) step).addScaled (-1) point)
        step =
      Real.exp (point.get 0 0) - point.get 0 0 - step * (Real.exp (point.get 0 0) - 1) ^ 2 / 2 := by
  let found : Mat ℝ :=
    .ofFn 1 1 fun _ _ => point.get 0 0 - step * (Real.exp (point.get 0 0) - 1)
  have foundShape : found.shape = ⟨1, 1⟩ := rfl
  have entry : found.get 0 0 = point.get 0 0 - step * (Real.exp (point.get 0 0) - 1) :=
    Mat.get_ofFn _ one_pos one_pos
  rw [steep_candidate shape step_pos.le, steep_value shape, steep_gradient shape,
    Path.bound_entry shape foundShape, entry]
  field_simp
  ring

theorem one_le_exp_sub (value : ℝ) : 1 ≤ Real.exp value - value := by
  linarith [Real.add_one_le_exp value]

theorem steep_accepts (shape : point.shape = ⟨1, 1⟩) (step_pos : 0 < step) {entry next : ℝ}
    (here : point.get 0 0 = entry) (moved : next = entry - step * (Real.exp entry - 1))
    (below : Real.exp next - next ≤
      Real.exp entry - entry - step * (Real.exp entry - 1) ^ 2 / 2) :
    (steepProblem : Problem ℝ).accepts point (steepProblem.smooth.value point)
      (steepProblem.smooth.gradient point)
        (steepProblem.candidate point (steepProblem.smooth.gradient point) step) step := by
  have limit := steep_bound shape step_pos
  have value : (steepProblem : Problem ℝ).smooth.value
      (steepProblem.candidate point (steepProblem.smooth.gradient point) step) =
        Real.exp next - next := by
    rw [steep_candidate shape step_pos.le, steep_value rfl, Mat.get_ofFn _ one_pos one_pos, here, moved]
  rw [here] at limit
  refine accepts_of_le ?_
  rw [limit, value]
  exact below

theorem steep_step_lt (shape : point.shape = ⟨1, 1⟩) (step_pos : 0 < step)
    (accepted : (steepProblem : Problem ℝ).accepts point (steepProblem.smooth.value point)
      (steepProblem.smooth.gradient point)
        (steepProblem.candidate point (steepProblem.smooth.gradient point) step) step) :
    step * (Real.exp (point.get 0 0) - 1) ^ 2 < 2 * (Real.exp (point.get 0 0) - point.get 0 0) := by
  have below := of_decide_eq_true accepted
  simp only [steep_bound shape step_pos] at below
  rw [steep_candidate shape step_pos.le, steep_value rfl] at below
  have positive := zero_lt_one.trans_le ((one_le_exp_sub _).trans below)
  have bounded : 0 < Real.exp (point.get 0 0) - point.get 0 0 -
      step * (Real.exp (point.get 0 0) - 1) ^ 2 / 2 := by
    refine not_le.1 fun nonpos => positive.not_ge ?_
    rw [Scalar.abs_real, abs_of_nonpos nonpos]
    linarith
  linarith

theorem exp_le_of_le {entry : ℝ} (high : entry ≤ -40) : Real.exp entry ≤ 1 / 841 := by
  have large : (841 : ℝ) ≤ Real.exp 40 := by
    linarith [Real.quadratic_le_exp_of_nonneg (x := 40) (by norm_num)]
  calc Real.exp entry ≤ Real.exp (-40) := Real.exp_le_exp.2 high
    _ = 1 / Real.exp 40 := by rw [Real.exp_neg, one_div]
    _ ≤ 1 / 841 := one_div_le_one_div_of_le (by norm_num) large

theorem exp_neg_le {amount : ℝ} (nonneg : 0 ≤ amount) :
    Real.exp (-amount) ≤ 1 - amount + amount ^ 2 / 2 := by
  have large := Real.quadratic_le_exp_of_nonneg nonneg
  have product : (1 - amount + amount ^ 2 / 2) * (1 + amount + amount ^ 2 / 2) = 1 + amount ^ 4 / 4 := by
    ring
  have positive : 0 ≤ 1 - amount + amount ^ 2 / 2 := by
    linarith [sq_nonneg (1 - amount)]
  rw [Real.exp_neg, inv_le_iff_one_le_mul₀ (Real.exp_pos _)]
  calc (1 : ℝ) ≤ 1 + amount ^ 4 / 4 := le_add_of_nonneg_right (by positivity)
    _ = (1 - amount + amount ^ 2 / 2) * (1 + amount + amount ^ 2 / 2) := product.symm
    _ ≤ (1 - amount + amount ^ 2 / 2) * Real.exp amount := mul_le_mul_of_nonneg_left large positive

theorem steep_below {entry : ℝ} (slope : 0 ≤ Real.exp entry - 1) (step_nonneg : 0 ≤ step)
    (short : Real.exp entry * step ≤ 1) :
    Real.exp (entry - step * (Real.exp entry - 1)) - (entry - step * (Real.exp entry - 1)) ≤
      Real.exp entry - entry - step * (Real.exp entry - 1) ^ 2 / 2 := by
  obtain ⟨move, moveEq⟩ : ∃ move, move = step * (Real.exp entry - 1) := ⟨_, rfl⟩
  have nonneg : 0 ≤ move := moveEq ▸ mul_nonneg step_nonneg slope
  have square : step * (Real.exp entry - 1) ^ 2 = move * (Real.exp entry - 1) := by
    rw [moveEq]
    ring
  have moved : Real.exp (entry - move) ≤ Real.exp entry * (1 - move + move ^ 2 / 2) := by
    rw [sub_eq_add_neg, Real.exp_add]
    exact mul_le_mul_of_nonneg_left (exp_neg_le nonneg) (Real.exp_pos _).le
  have room : move * (Real.exp entry * move) ≤ move * (Real.exp entry - 1) := by
    refine mul_le_mul_of_nonneg_left ?_ nonneg
    rw [moveEq, ← mul_assoc]
    exact mul_le_of_le_one_left slope short
  rw [← moveEq, square]
  linarith

end

section
variable {options : SolveOptions ℝ} {iterate : Iterate ℝ} {passes : Nat} {entry : ℝ}

theorem steep_descends (reached : Passes steepProblem options passes iterate)
    (budget : passes < options.maxIterations) (tolerance : options.tolerance = 1 / 4)
    (step : iterate.step = 40) (kept : iterate.kept.get 0 0 = entry)
    (here : iterate.extrapolated.get 0 0 = entry) (low : -81 ≤ entry) (high : entry ≤ -40) :
    ∃ next, Passes steepProblem options (passes + 1) next ∧ next.step = 40 ∧
      next.kept.get 0 0 = entry - 40 * (Real.exp entry - 1) ∧
      next.extrapolated.get 0 0 = next.kept.get 0 0 +
        (iterate.momentum - 1) / next.momentum * (next.kept.get 0 0 - entry) ∧
      next.momentum ^ 2 - next.momentum = iterate.momentum ^ 2 ∧
      iterate.momentum + 1 / 2 ≤ next.momentum := by
  have sound := reached.sound rfl
  have pointShape : iterate.extrapolated.shape = ⟨1, 1⟩ := sound.extrapolated
  obtain ⟨moved, movedEq⟩ : ∃ moved, moved = entry - 40 * (Real.exp entry - 1) := ⟨_, rfl⟩
  have small := exp_le_of_le high
  have positive := Real.exp_pos entry
  have negative : Real.exp moved ≤ 1 := by
    rw [← Real.exp_zero]
    exact Real.exp_le_exp.2 (by linarith)
  have below : Real.exp moved - moved ≤
      Real.exp entry - entry - 40 * (Real.exp entry - 1) ^ 2 / 2 := by
    nlinarith
  let found : Mat ℝ := .ofFn 1 1 fun _ _ => moved
  have foundShape : found.shape = ⟨1, 1⟩ := rfl
  have foundEntry : found.get 0 0 = moved := Mat.get_ofFn _ one_pos one_pos
  have candidate : (steepProblem : Problem ℝ).candidate iterate.extrapolated
      (steepProblem.smooth.gradient iterate.extrapolated) 40 = found := by
    rw [steep_candidate pointShape (by norm_num), here, ← movedEq]
  have accepted : steepProblem.accepted? iterate = some (found, 40) := by
    have accepts := steep_accepts pointShape (by norm_num) here movedEq below
    unfold accepted?
    rw [step, search_of_accepts accepts, candidate]
  have far : options.tolerance * max found.frobenius 1 < found.distance iterate.extrapolated := by
    rw [tolerance, Path.unit_frobenius foundShape, unit_distance foundShape pointShape, foundEntry, here,
      abs_of_nonpos (by linarith), abs_of_pos (by linarith)]
    refine lt_of_le_of_lt (mul_le_mul_of_nonneg_left (max_le (c := 82) ?_ ?_) (by norm_num)) ?_
    · linarith
    · norm_num
    · linarith
  have improves : (steepProblem : Problem ℝ).objective found ≤ iterate.keptObjective := by
    rw [sound.keptObjective, steep_objective foundShape, steep_objective sound.kept, foundEntry, kept]
    nlinarith
  have keeps : ((steepProblem : Problem ℝ).advance iterate found 40).kept = found := by
    rw [kept_advance, if_pos improves]
  have onward := get_extrapolated_advance improves 40 one_pos one_pos
  obtain ⟨weight, grows⟩ := momentum_advance steepProblem iterate found 40
  refine ⟨_, reached.next budget (pass_eq_next.2 ⟨found, 40, accepted, far, rfl⟩), rfl, ?_, ?_, weight,
    grows⟩
  · rw [keeps, foundEntry, movedEq]
  · rw [onward, kept, keeps]

theorem steep_searches (sound : iterate.Sound steepProblem) (step : iterate.step = 40)
    (here : iterate.extrapolated.get 0 0 = entry) (low : 0 ≤ entry) (high : entry ≤ 12) :
    ∃ found last, steepProblem.accepted? iterate = some (found, last) := by
  have slope : 0 ≤ Real.exp entry - 1 := by
    linarith [Real.add_one_le_exp entry]
  have bounded : Real.exp entry ≤ 3 ^ 12 := by
    calc Real.exp entry ≤ Real.exp (12 * 1) := Real.exp_le_exp.2 (by linarith)
      _ = Real.exp 1 ^ 12 := by rw [← Real.exp_nat_mul]; norm_num
      _ ≤ 3 ^ 12 := pow_le_pow_left₀ (Real.exp_pos 1).le Real.exp_one_lt_three.le 12
  have short : Real.exp entry * (40 / 2 ^ 25) ≤ 1 := by
    linarith
  have below := steep_below slope (by norm_num) short
  rw [← step] at below
  refine accepted?_of_accepts sound.step_pos (.inr ?_)
    (steep_accepts sound.extrapolated (by rw [step]; norm_num) here rfl below)
  rw [step]
  norm_num [minStep]

theorem steep_settles (reached : Passes steepProblem options passes iterate)
    (budget : passes < options.maxIterations) (tolerance : options.tolerance = 1 / 4)
    (step : iterate.step = 40) (low : 11 ≤ iterate.extrapolated.get 0 0)
    (high : iterate.extrapolated.get 0 0 ≤ 12) :
    ∃ solution : Mat ℝ, (steepProblem.solve options).1 = .ok solution ∧ solution.shape = ⟨1, 1⟩ ∧
      9 ≤ solution.get 0 0 := by
  have sound := reached.sound rfl
  have pointShape : iterate.extrapolated.shape = ⟨1, 1⟩ := sound.extrapolated
  obtain ⟨entry, here⟩ : ∃ entry, iterate.extrapolated.get 0 0 = entry := ⟨_, rfl⟩
  rw [here] at low high
  have slope : 0 < Real.exp entry - 1 := by
    linarith [Real.add_one_le_exp entry]
  obtain ⟨found, last, accepted⟩ := steep_searches sound step here (by linarith) high
  obtain ⟨count, halved, candidate, first⟩ := accepted?_eq_some accepted
  have last_pos := (accepted?_step sound.step_pos accepted).1
  have near := steep_step_lt pointShape last_pos (halved ▸ first.accepted)
  have foundShape : found.shape = ⟨1, 1⟩ := accepted?_shape accepted
  have foundEntry : found.get 0 0 = entry - last * (Real.exp entry - 1) := by
    rw [candidate, steep_candidate pointShape last_pos.le, Mat.get_ofFn _ one_pos one_pos, here]
  have moved : last * (Real.exp entry - 1) < 2 := by
    rw [here] at near
    refine lt_of_mul_lt_mul_right ?_ slope.le
    linarith
  have onward : 0 < last * (Real.exp entry - 1) := mul_pos last_pos slope
  have settled : found.distance iterate.extrapolated ≤ options.tolerance * max found.frobenius 1 := by
    have large : 9 ≤ max found.frobenius 1 := by
      rw [Path.unit_frobenius foundShape, foundEntry]
      exact le_max_of_le_left (le_abs_self _ |>.trans' (by linarith))
    rw [tolerance, unit_distance foundShape pointShape, foundEntry, here, sub_sub_cancel_left, abs_neg,
      abs_of_pos onward]
    linarith
  refine ⟨found, reached.solve_eq_ok budget (pass_eq_converged.2 ⟨accepted, settled⟩), foundShape, ?_⟩
  rw [foundEntry]
  linarith

end

theorem lt_exp_sub {entry : ℝ} (far : 9 ≤ entry) : 82 < Real.exp entry - entry := by
  have root := Real.quadratic_le_exp_of_nonneg (by linarith : 0 ≤ entry / 2)
  have square : Real.exp entry = Real.exp (entry / 2) ^ 2 := by
    rw [← Real.exp_nat_mul]
    congr 1
    push_cast
    ring
  have line : 1 + 13 / 8 * entry ≤ Real.exp (entry / 2) := by nlinarith
  rw [square]
  nlinarith

/-- A run from minus eighty with a loose tolerance: the points that it keeps come down to the best value,
and the third pass returns a candidate far beyond it. -/
theorem solve_worsens :
    let problem : Problem ℝ := steepProblem
    let options : SolveOptions ℝ := ⟨1 / 4, 2000, some 40⟩
    Penalty.ofWeights ⟨1, 1⟩ #[1] #[0] 0 = .ok problem.penalty ∧
      Prepared problem.smooth problem.penalty problem ∧
      (∀ point other : Mat ℝ, point.shape = ⟨1, 1⟩ → other.shape = ⟨1, 1⟩ →
        problem.smooth.value point + (problem.smooth.gradient point).inner (other.addScaled (-1) point) ≤
          problem.smooth.value other) ∧
      ∃ solution, (problem.solve options).1 = .ok solution ∧
        problem.objective problem.coefs < problem.objective solution := by
  intro problem options
  refine ⟨steep_accepted.1, steep_accepted.2, fun _ _ shape otherShape =>
    steep_convex.above shape otherShape, ?_⟩
  have start : problem.coefs.get 0 0 = -80 := Mat.get_ofFn _ one_pos one_pos
  have step : problem.startingStep options = 40 := by
    simp [startingStep, options]
  have budget : 2 < options.maxIterations := by
    norm_num [options]
  have low : Real.exp (-80) ≤ 1 / 841 := exp_le_of_le (by norm_num)
  have low_pos := Real.exp_pos (-80)
  obtain ⟨first, reachedFirst, stepFirst, keptFirst, pointFirst, weightFirst, growsFirst⟩ :=
    steep_descends (.start : Passes problem options 0 _) (by omega) rfl step start start (by norm_num)
      (by norm_num)
  have unmoved : (problem.start options).momentum = 1 := rfl
  -- Momentum one does not extrapolate, so the second pass starts from the kept point again.
  rw [unmoved, sub_self, zero_div, zero_mul, add_zero, keptFirst] at pointFirst
  obtain ⟨entry, entryEq⟩ : ∃ entry, entry = -80 - 40 * (Real.exp (-80) - 1) := ⟨_, rfl⟩
  rw [← entryEq] at keptFirst pointFirst
  obtain ⟨second, reachedSecond, stepSecond, keptSecond, pointSecond, weightSecond, growsSecond⟩ :=
    steep_descends reachedFirst (by omega) rfl stepFirst keptFirst pointFirst (by linarith) (by linarith)
  rw [unmoved, one_pow] at weightFirst
  rw [unmoved] at growsFirst
  obtain ⟨shareLow, shareHigh⟩ :=
    onward_between weightFirst (by linarith) weightSecond growsSecond
  have small : Real.exp entry ≤ 1 / 841 := exp_le_of_le (by linarith)
  have small_pos := Real.exp_pos entry
  have move : second.kept.get 0 0 - entry = 40 - 40 * Real.exp entry := by
    rw [keptSecond]
    ring
  rw [move] at pointSecond
  have least := mul_le_mul_of_nonneg_right shareLow (by linarith : 0 ≤ 40 - 40 * Real.exp entry)
  have most := mul_le_mul_of_nonneg_right shareHigh (by linarith : 0 ≤ 40 - 40 * Real.exp entry)
  obtain ⟨solution, solved, shape, far⟩ :=
    steep_settles reachedSecond budget rfl stepSecond (by linarith) (by linarith)
  refine ⟨solution, solved, ?_⟩
  rw [steep_objective rfl, steep_objective shape, start]
  linarith [lt_exp_sub far]

end Problem

end GroupLasso
