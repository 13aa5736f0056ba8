import GroupLasso.Proofs.Passes
import GroupLasso.Proofs.Proximal

/-!
How fast the solver converges where no candidate needs the slack of the quadratic bound. Such a candidate
is worse than no other point by more than what it gained in squared distance to it. A potential adds to
the squared distance from an anchor the excess of the kept point over the other one, with a weight that
grows as the square of the number of passes. No pass increases it, whether or not its candidate is kept
and whether or not it shortened the step.
-/

namespace GroupLasso

open Scalar

namespace Problem

section
variable {problem : Problem ℝ} {point gradient found other : Mat ℝ} {step : ℝ}

theorem candidate_minimizes (valid : problem.penalty.Valid) (step_pos : 0 < step)
    (pointShape : point.shape = problem.penalty.shape)
    (otherShape : other.shape = problem.penalty.shape)
    (candidate : found = problem.candidate point gradient step) (value : ℝ) :
    bound value gradient (found.addScaled (-1) point) step + problem.penalty.value found +
        other.distance found ^ 2 / (2 * step) ≤
      bound value gradient (other.addScaled (-1) point) step + problem.penalty.value other := by
  have foundShape : found.shape = problem.penalty.shape := candidate ▸ rfl
  have supports : (problem.penalty.shape.sum fun row col =>
      ((point.addScaled (-step) gradient).get row col - found.get row col) *
        (other.get row col - found.get row col)) + step * problem.penalty.value found ≤
          step * problem.penalty.value other := by
    rw [candidate]
    exact Penalty.proximal_supports_value valid step_pos.le (point.addScaled (-step) gradient) other
  have squares := Mat.distance_sq_around otherShape foundShape pointShape
  have split : (problem.penalty.shape.sum fun row col =>
      ((point.addScaled (-step) gradient).get row col - found.get row col) *
        (other.get row col - found.get row col)) =
      (problem.penalty.shape.sum fun row col => (point.get row col - found.get row col) *
        (other.get row col - found.get row col)) +
          step * (gradient.inner (found.addScaled (-1) point) -
            gradient.inner (other.addScaled (-1) point)) := by
    rw [Mat.inner_difference_eq_sum _ foundShape pointShape,
      Mat.inner_difference_eq_sum _ otherShape pointShape, ← Shape.sum_sub, ← Shape.sum_mul_left,
      ← Shape.sum_add]
    refine Shape.sum_congr fun row rowBound col colBound => ?_
    have entry : (point.addScaled (-step) gradient).get row col =
        point.get row col + -step * gradient.get row col :=
      Mat.get_ofExtent pointShape rowBound colBound _
    rw [entry]
    ring
  have gain : (found.distance point ^ 2 + other.distance found ^ 2 - other.distance point ^ 2) /
      (2 * step) ≤ problem.penalty.value other - problem.penalty.value found +
        (gradient.inner (other.addScaled (-1) point) - gradient.inner (found.addScaled (-1) point)) := by
    rw [div_le_iff₀ (by positivity)]
    linarith
  rw [sub_div, add_div] at gain
  rw [bound, bound, Mat.inner_difference_self foundShape pointShape,
    Mat.inner_difference_self otherShape pointShape]
  linarith

end

/-- The smooth function is below its quadratic bound, without the slack that the solver allows. -/
def MeetsBound (problem : Problem ℝ) (point found : Mat ℝ) (step : ℝ) : Prop :=
  problem.smooth.value found ≤ bound (problem.smooth.value point) (problem.smooth.gradient point)
    (found.addScaled (-1) point) step

def MeetsBounds (problem : Problem ℝ) (options : SolveOptions ℝ) : Prop :=
  ∀ {passes : Nat} {iterate : Iterate ℝ} {found : Mat ℝ} {step : ℝ},
    Passes problem options passes iterate → passes < options.maxIterations →
    problem.accepted? iterate = some (found, step) →
      problem.MeetsBound iterate.extrapolated found step

section
variable {problem : Problem ℝ} {options : SolveOptions ℝ} {iterate next : Iterate ℝ}
  {found other : Mat ℝ} {step : ℝ} {passes : Nat}

theorem candidate_excess_le (valid : problem.penalty.Valid) (sound : iterate.Sound problem)
    (above : problem.smooth.value iterate.extrapolated +
      (problem.smooth.gradient iterate.extrapolated).inner
        (other.addScaled (-1) iterate.extrapolated) ≤ problem.smooth.value other)
    (accepted : problem.accepted? iterate = some (found, step)) {slack : ℝ}
    (near : problem.smooth.value found ≤ bound (problem.smooth.value iterate.extrapolated)
      (problem.smooth.gradient iterate.extrapolated) (found.addScaled (-1) iterate.extrapolated) step +
        slack)
    (otherShape : other.shape = problem.penalty.shape) :
    problem.objective found ≤ problem.objective other +
      (other.distance iterate.extrapolated ^ 2 - other.distance found ^ 2) / (2 * step) + slack := by
  obtain ⟨step_pos, -⟩ := accepted?_step sound.step_pos accepted
  obtain ⟨-, -, candidate, -⟩ := accepted?_eq_some accepted
  have minimal := candidate_minimizes valid step_pos sound.extrapolated otherShape candidate
    (problem.smooth.value iterate.extrapolated)
  have square : bound (problem.smooth.value iterate.extrapolated)
      (problem.smooth.gradient iterate.extrapolated)
        (other.addScaled (-1) iterate.extrapolated) step ≤
          problem.smooth.value other + other.distance iterate.extrapolated ^ 2 / (2 * step) := by
    rw [bound, Mat.inner_difference_self otherShape sound.extrapolated]
    linarith
  rw [objective, objective, sub_div]
  linarith

theorem candidate_gains (valid : problem.penalty.Valid) (sound : iterate.Sound problem)
    (above : problem.smooth.value iterate.extrapolated +
      (problem.smooth.gradient iterate.extrapolated).inner
        (other.addScaled (-1) iterate.extrapolated) ≤ problem.smooth.value other)
    (accepted : problem.accepted? iterate = some (found, step))
    (sharp : problem.MeetsBound iterate.extrapolated found step)
    (otherShape : other.shape = problem.penalty.shape) :
    2 * step * (problem.objective found - problem.objective other) ≤
      other.distance iterate.extrapolated ^ 2 - other.distance found ^ 2 := by
  obtain ⟨step_pos, -⟩ := accepted?_step sound.step_pos accepted
  have quotient := candidate_excess_le valid sound above accepted (sharp.trans_eq (add_zero _).symm)
    otherShape
  rw [add_zero, ← sub_le_iff_le_add', le_div_iff₀ (by positivity)] at quotient
  linarith

theorem momentum_advance (problem : Problem ℝ) (iterate : Iterate ℝ) (found : Mat ℝ) (step : ℝ) :
    (problem.advance iterate found step).momentum ^ 2 -
        (problem.advance iterate found step).momentum = iterate.momentum ^ 2 ∧
      iterate.momentum + 1 / 2 ≤ (problem.advance iterate found step).momentum := by
  have half : (0.5 : ℝ) = 1 / 2 := by norm_num
  have four : (4 : ℝ) * iterate.momentum * iterate.momentum = (2 * iterate.momentum) ^ 2 := by ring
  have momentum : (problem.advance iterate found step).momentum =
      1 / 2 * (1 + √(1 + (2 * iterate.momentum) ^ 2)) := by
    rw [← half, ← four]
    rfl
  have square : √(1 + (2 * iterate.momentum) ^ 2) ^ 2 = 1 + (2 * iterate.momentum) ^ 2 :=
    Real.sq_sqrt (by positivity)
  have root : 2 * iterate.momentum ≤ √(1 + (2 * iterate.momentum) ^ 2) :=
    Real.le_sqrt_of_sq_le (by linarith)
  rw [momentum]
  constructor
  · linear_combination square / 4
  · linarith

theorem Passes.momentum_ge (reached : Passes problem options passes iterate) :
    (passes + 2) / 2 ≤ iterate.momentum ∧
      (1 ≤ passes → ((passes + 1) / 2) ^ 2 ≤ iterate.momentum ^ 2 - iterate.momentum) := by
  induction reached with
  | start => norm_num [Problem.start]
  | @next passes iterate _ earlier budget passed ih =>
      obtain ⟨found, step, -, -, rfl⟩ := pass_eq_next.1 passed
      have nonneg : (0 : ℝ) ≤ passes := passes.cast_nonneg
      obtain ⟨weight, grows⟩ := momentum_advance problem iterate found step
      push_cast
      refine ⟨by linarith, fun _ => ?_⟩
      rw [weight]
      exact pow_le_pow_left₀ (by positivity) (by linarith) 2

/-- The point beyond the kept one toward the extrapolated one, at momentum times its distance. -/
def Iterate.anchor {α : Type} [Scalar α] (iterate : Iterate α) : Mat α :=
  Mat.ofFn iterate.kept.rows iterate.kept.cols fun row col =>
    iterate.momentum * iterate.extrapolated.get row col -
      (iterate.momentum - 1) * iterate.kept.get row col

def potential {α : Type} [Scalar α] (problem : Problem α) (other : Mat α) (iterate : Iterate α) : α :=
  2 * iterate.step * (iterate.momentum * iterate.momentum - iterate.momentum) *
      (problem.objective iterate.kept - problem.objective other) +
    iterate.anchor.distance other * iterate.anchor.distance other

theorem potential_real : problem.potential other iterate =
    2 * iterate.step * (iterate.momentum ^ 2 - iterate.momentum) *
      (problem.objective iterate.kept - problem.objective other) +
    iterate.anchor.distance other ^ 2 := by
  rw [sq, sq]
  rfl

theorem anchor_start (problem : Problem ℝ) (options : SolveOptions ℝ) :
    (problem.start options).anchor = problem.coefs := by
  refine Mat.ext_get rfl rfl ?_
  intro row rowBound col colBound
  exact (Mat.get_ofFn _ rowBound colBound).trans (by simp [Problem.start])

theorem potential_start (problem : Problem ℝ) (options : SolveOptions ℝ) (other : Mat ℝ) :
    problem.potential other (problem.start options) = problem.coefs.distance other ^ 2 := by
  have momentum : (problem.start options).momentum = 1 := rfl
  rw [potential_real, anchor_start, momentum, one_pow, sub_self, mul_zero, zero_mul, zero_add]

theorem get_anchor_advance (sound : iterate.Sound problem)
    (foundShape : found.shape = problem.penalty.shape) (one_le : 1 ≤ iterate.momentum) {row col : Nat}
    (rowBound : row < problem.penalty.shape.rows) (colBound : col < problem.penalty.shape.cols) :
    (problem.advance iterate found step).anchor.get row col =
      iterate.momentum * found.get row col - (iterate.momentum - 1) * iterate.kept.get row col := by
  let next := problem.advance iterate found step
  have keptShape : next.kept.shape = problem.penalty.shape :=
    (advance_shaped sound.toShaped foundShape step).kept
  have momentum_pos : 0 < next.momentum := by
    linarith [(momentum_advance problem iterate found step).2]
  have entry : next.extrapolated.get row col = next.kept.get row col +
      iterate.momentum / next.momentum * (found.get row col - next.kept.get row col) +
        (iterate.momentum - 1) / next.momentum * (next.kept.get row col - iterate.kept.get row col) :=
    Mat.get_ofExtent keptShape rowBound colBound _
  have anchor : next.anchor.get row col = next.momentum * next.extrapolated.get row col -
      (next.momentum - 1) * next.kept.get row col := Mat.get_ofExtent keptShape rowBound colBound _
  rw [anchor, entry]
  field_simp
  ring

theorem anchor_distances (sound : iterate.Sound problem)
    (foundShape : found.shape = problem.penalty.shape) (otherShape : other.shape = problem.penalty.shape)
    (one_le : 1 ≤ iterate.momentum) (step : ℝ) : iterate.anchor.distance other ^ 2 -
        (problem.advance iterate found step).anchor.distance other ^ 2 =
      (iterate.momentum ^ 2 - iterate.momentum) * (iterate.kept.distance iterate.extrapolated ^ 2 -
          iterate.kept.distance found ^ 2) +
        iterate.momentum * (other.distance iterate.extrapolated ^ 2 - other.distance found ^ 2) := by
  have anchorShape : iterate.anchor.shape = problem.penalty.shape := sound.kept
  have nextShape : (problem.advance iterate found step).anchor.shape = problem.penalty.shape :=
    (advance_shaped sound.toShaped foundShape step).kept
  rw [Mat.distance_sq anchorShape otherShape, Mat.distance_sq nextShape otherShape,
    Mat.distance_sq sound.kept sound.extrapolated, Mat.distance_sq sound.kept foundShape,
    Mat.distance_sq otherShape sound.extrapolated, Mat.distance_sq otherShape foundShape,
    ← Shape.sum_sub, ← Shape.sum_sub, ← Shape.sum_sub, ← Shape.sum_mul_left, ← Shape.sum_mul_left,
    ← Shape.sum_add]
  refine Shape.sum_congr fun row rowBound col colBound => ?_
  have anchor : iterate.anchor.get row col = iterate.momentum * iterate.extrapolated.get row col -
      (iterate.momentum - 1) * iterate.kept.get row col :=
    Mat.get_ofExtent sound.kept rowBound colBound _
  rw [get_anchor_advance sound foundShape one_le rowBound colBound, anchor]
  ring

theorem potential_advance_le (sound : iterate.Sound problem)
    (foundShape : found.shape = problem.penalty.shape) (otherShape : other.shape = problem.penalty.shape)
    (one_le : 1 ≤ iterate.momentum) (step_pos : 0 < step) (shorter : step ≤ iterate.step)
    (fromKept : 2 * step * (problem.objective found - problem.objective iterate.kept) ≤
      iterate.kept.distance iterate.extrapolated ^ 2 - iterate.kept.distance found ^ 2)
    (fromOther : 2 * step * (problem.objective found - problem.objective other) ≤
      other.distance iterate.extrapolated ^ 2 - other.distance found ^ 2)
    (worse : problem.objective other ≤ problem.objective iterate.kept) :
    problem.potential other (problem.advance iterate found step) ≤ problem.potential other iterate := by
  let next := problem.advance iterate found step
  have weight := (momentum_advance problem iterate found step).1
  have anchors := anchor_distances sound foundShape otherShape one_le step
  have momentum_nonneg : 0 ≤ iterate.momentum := by linarith
  have weight_nonneg : 0 ≤ iterate.momentum ^ 2 - iterate.momentum := by nlinarith
  -- The two gains are weighted so that together they have the weight of the next pass.
  have kept := mul_le_mul_of_nonneg_left fromKept weight_nonneg
  have gained := mul_le_mul_of_nonneg_left fromOther momentum_nonneg
  have improved : 2 * step * iterate.momentum ^ 2 * problem.objective next.kept ≤
      2 * step * iterate.momentum ^ 2 * problem.objective found :=
    mul_le_mul_of_nonneg_left (objective_advance_le sound).1 (by positivity)
  have shortened : 2 * step * (iterate.momentum ^ 2 - iterate.momentum) *
        (problem.objective iterate.kept - problem.objective other) ≤
      2 * iterate.step * (iterate.momentum ^ 2 - iterate.momentum) *
        (problem.objective iterate.kept - problem.objective other) := by
    have excess := mul_nonneg weight_nonneg (sub_nonneg.2 worse)
    have scaled := mul_le_mul_of_nonneg_right shorter excess
    linarith
  have nextStep : next.step = step := rfl
  rw [potential_real, potential_real, weight, nextStep]
  linarith

end

section
variable {problem : Problem ℝ} {options : SolveOptions ℝ} {iterate : Iterate ℝ} {other : Mat ℝ}
  {passes : Nat} (valid : problem.penalty.Valid)
  (coefsShape : problem.coefs.shape = problem.penalty.shape)
  (tangent : ∀ point other : Mat ℝ, point.shape = problem.penalty.shape →
    other.shape = problem.penalty.shape → problem.smooth.value point +
      (problem.smooth.gradient point).inner (other.addScaled (-1) point) ≤ problem.smooth.value other)
  (sharp : problem.MeetsBounds options) (otherShape : other.shape = problem.penalty.shape)

include valid coefsShape tangent sharp otherShape

theorem Passes.potential_le (reached : Passes problem options passes iterate)
    (worse : problem.objective other ≤ problem.objective iterate.kept) :
    problem.potential other iterate ≤ problem.coefs.distance other ^ 2 := by
  induction reached with
  | start => exact (potential_start problem options other).le
  | @next passes iterate _ earlier budget passed ih =>
      obtain ⟨found, step, accepted, -, rfl⟩ := pass_eq_next.1 passed
      have sound := earlier.sound coefsShape
      obtain ⟨step_pos, shorter⟩ := accepted?_step sound.step_pos accepted
      have momentum : 1 ≤ iterate.momentum := by
        have nonneg : (0 : ℝ) ≤ passes := passes.cast_nonneg
        linarith [earlier.momentum_ge.1]
      have before := worse.trans (objective_advance_le sound).2
      have gains : ∀ point : Mat ℝ, point.shape = problem.penalty.shape →
          2 * step * (problem.objective found - problem.objective point) ≤
          point.distance iterate.extrapolated ^ 2 - point.distance found ^ 2 := fun point shape =>
        candidate_gains valid sound (tangent _ _ sound.extrapolated shape) accepted
          (sharp earlier budget accepted) shape
      exact (potential_advance_le sound (accepted?_shape accepted) otherShape momentum step_pos shorter
        (gains _ sound.kept) (gains _ otherShape) before).trans (ih before)

theorem Passes.excess_le (reached : Passes problem options passes iterate) (some : 1 ≤ passes) :
    problem.objective iterate.kept - problem.objective other ≤
      2 * problem.coefs.distance other ^ 2 / (iterate.step * (passes + 1) ^ 2) := by
  have step_pos := (reached.sound coefsShape).step_pos
  rcases lt_or_ge (problem.objective iterate.kept) (problem.objective other) with better | worse
  · have nonneg : 0 ≤ 2 * problem.coefs.distance other ^ 2 / (iterate.step * (passes + 1) ^ 2) := by
      positivity
    linarith
  · have potential := reached.potential_le valid coefsShape tangent sharp otherShape worse
    have weight := reached.momentum_ge.2 some
    have anchor := sq_nonneg (iterate.anchor.distance other)
    have excess : 2 * iterate.step * ((passes + 1) / 2) ^ 2 *
        (problem.objective iterate.kept - problem.objective other) ≤
          problem.coefs.distance other ^ 2 := by
      have scaled := mul_le_mul_of_nonneg_right weight
        (mul_nonneg step_pos.le (sub_nonneg.2 worse))
      rw [potential_real] at potential
      linarith
    rw [le_div_iff₀ (by positivity)]
    linarith

end

/-- After some passes the kept point is worse than any other one by no more than twice the squared distance
from the start, divided by the step and the square of the number of passes plus one, and so are the
coefficients that a run leaves when it used up its budget. -/
theorem accelerated_rate {smooth : Smooth ℝ} {shape : Shape} {l1 l2 : Array ℝ} {lagrange : ℝ}
    {penalty : Penalty ℝ} {problem : Problem ℝ} {options : SolveOptions ℝ} {other : Mat ℝ}
    (accepted : Penalty.ofWeights shape l1 l2 lagrange = .ok penalty)
    (prepared : Prepared smooth penalty problem)
    (tangent : ∀ point other : Mat ℝ, point.shape = shape → other.shape = shape →
      smooth.value point + (smooth.gradient point).inner (other.addScaled (-1) point) ≤
        smooth.value other)
    (sharp : problem.MeetsBounds options) (otherShape : other.shape = shape) :
    (∀ passes iterate, 1 ≤ passes → Passes problem options passes iterate →
      problem.objective iterate.kept - problem.objective other ≤
        2 * problem.coefs.distance other ^ 2 / (iterate.step * (passes + 1) ^ 2)) ∧
    ∀ iterations, 1 ≤ options.maxIterations →
      (problem.solve options).1 = .error (.notConverged iterations) →
        problem.objective (problem.solve options).2.coefs - problem.objective other ≤
          2 * problem.coefs.distance other ^ 2 /
            ((problem.solve options).2.step * (options.maxIterations + 1) ^ 2) := by
  obtain ⟨fields, valid⟩ := Penalty.ofWeights_eq_ok.1 accepted
  have penaltyShape : penalty.shape = shape := congrArg Penalty.shape fields
  obtain ⟨rfl, rfl, -, coefsShape⟩ := prepared.fits
  subst penaltyShape
  have rate : ∀ passes iterate, 1 ≤ passes → Passes problem options passes iterate →
      problem.objective iterate.kept - problem.objective other ≤
        2 * problem.coefs.distance other ^ 2 / (iterate.step * (passes + 1) ^ 2) :=
    fun passes iterate some reached =>
      reached.excess_le valid coefsShape tangent sharp otherShape some
  refine ⟨rate, fun iterations budget failed => ?_⟩
  obtain ⟨-, iterate, all, finished⟩ := solve_eq_notConverged failed
  rw [finished, lastStep_of_pos budget]
  exact rate _ iterate budget all

/-! One coefficient. -/

section
variable {lagrange : ℝ} {options : SolveOptions ℝ} {point other : Mat ℝ}

theorem unit_prepared (nonneg : 0 ≤ lagrange) :
    Penalty.ofWeights ⟨1, 1⟩ #[1] #[0] lagrange = .ok (Path.unitProblem lagrange).penalty ∧
      Prepared (Path.unitProblem lagrange).smooth (Path.unitProblem lagrange).penalty
        (Path.unitProblem lagrange) := by
  have penalty : (Path.unitProblem lagrange).penalty = ⟨⟨1, 1⟩, #[1], #[0], lagrange⟩ := rfl
  have valid : (Path.unitProblem lagrange).penalty.Valid :=
    Penalty.valid_iff.2 (by simp [penalty, Penalty.groups, nonneg])
  exact ⟨Penalty.ofWeights_eq_ok.2 ⟨penalty, valid⟩, .built rfl⟩

theorem unit_expansion (lagrange : ℝ) (pointShape : point.shape = ⟨1, 1⟩)
    (otherShape : other.shape = ⟨1, 1⟩) : (Path.unitProblem lagrange).smooth.value other =
      (Path.unitProblem lagrange).smooth.value point +
        ((Path.unitProblem lagrange).smooth.gradient point).inner (other.addScaled (-1) point) +
          other.distance point ^ 2 / 2 := by
  have value : ∀ {coef : Mat ℝ}, coef.shape = ⟨1, 1⟩ → (Path.unitProblem lagrange).smooth.value coef =
      1 / 2 * (coef.get 0 0 - 1) ^ 2 := Path.unit_value
  have gradient : (Path.unitProblem lagrange).smooth.gradient point =
      Mat.ofFn 1 1 fun _ _ => point.get 0 0 - 1 := Path.unit_gradient pointShape
  rw [value pointShape, value otherShape, gradient, Mat.inner_difference_eq_sum _ otherShape pointShape,
    Mat.distance_sq otherShape pointShape]
  simp [Shape.sum, Mat.get_ofFn]
  ring

theorem unit_tangent (lagrange : ℝ) (pointShape : point.shape = ⟨1, 1⟩)
    (otherShape : other.shape = ⟨1, 1⟩) : (Path.unitProblem lagrange).smooth.value point +
      ((Path.unitProblem lagrange).smooth.gradient point).inner (other.addScaled (-1) point) ≤
        (Path.unitProblem lagrange).smooth.value other := by
  rw [unit_expansion lagrange pointShape otherShape]
  exact le_add_of_nonneg_right (by positivity)

theorem unit_distance (shape : point.shape = ⟨1, 1⟩) (otherShape : other.shape = ⟨1, 1⟩) :
    point.distance other = |point.get 0 0 - other.get 0 0| := by
  have difference : (point.addScaled (-1) other).shape = ⟨1, 1⟩ := shape
  rw [Mat.distance, Path.unit_frobenius difference, Mat.get_addScaled (shape.trans otherShape.symm),
    neg_one_mul, sub_eq_add_neg]

theorem unit_meetsBounds (short : (Path.unitProblem lagrange).startingStep options ≤ 1) :
    (Path.unitProblem lagrange).MeetsBounds options := by
  intro passes iterate found step reached _ accepted
  have sound := reached.sound rfl
  obtain ⟨step_pos, shorter⟩ := accepted?_step sound.step_pos accepted
  exact Path.unit_below sound.extrapolated (accepted?_shape accepted) step_pos
    ((shorter.trans reached.step_le).trans short)

end

theorem onward_between {second third : ℝ} (secondWeight : second ^ 2 - second = 1)
    (secondGrows : 3 / 2 ≤ second) (thirdWeight : third ^ 2 - third = second ^ 2)
    (thirdGrows : second + 1 / 2 ≤ third) :
    7 / 25 ≤ (second - 1) / third ∧ (second - 1) / third ≤ 3 / 10 := by
  have secondLow : 8 / 5 ≤ second := by nlinarith
  have secondHigh : second ≤ 163 / 100 := by nlinarith
  have thirdHigh : third ≤ 11 / 5 := by nlinarith
  have third_pos : 0 < third := by linarith
  rw [le_div_iff₀ third_pos, div_le_iff₀ third_pos]
  constructor <;> nlinarith

section
variable {options : SolveOptions ℝ} {iterate : Iterate ℝ} {passes : Nat} {point : Mat ℝ} {entry : ℝ}

theorem unit_halfway (sound : iterate.Sound (Path.unitProblem (1 / 2))) (step : iterate.step = 1 / 2)
    (here : iterate.extrapolated.get 0 0 = entry) (nonneg : 0 ≤ entry) :
    (Path.unitProblem (1 / 2)).accepted? iterate =
      some (.ofFn 1 1 fun _ _ => (entry + 1 / 2) / 2, 1 / 2) := by
  let problem : Problem ℝ := Path.unitProblem (1 / 2)
  have pointShape : iterate.extrapolated.shape = ⟨1, 1⟩ := sound.extrapolated
  have gradient : problem.smooth.gradient iterate.extrapolated =
      Mat.ofFn 1 1 fun _ _ => iterate.extrapolated.get 0 0 - 1 := Path.unit_gradient pointShape
  have moved : (iterate.extrapolated.addScaled (-(1 / 2))
      (problem.smooth.gradient iterate.extrapolated)).get 0 0 = (entry + 1) / 2 := by
    rw [gradient, Mat.get_addScaled pointShape, Mat.get_ofFn _ one_pos one_pos, here]
    ring
  have candidate : problem.candidate iterate.extrapolated
      (problem.smooth.gradient iterate.extrapolated) (1 / 2) =
        .ofFn 1 1 fun _ _ => (entry + 1 / 2) / 2 := by
    have halved : (entry + 1) / 2 - 1 / 2 * (1 / 2) = (entry + 1 / 2) / 2 := by ring
    rw [Problem.candidate, Path.unit_proximal (by rw [moved]; linarith), moved, halved]
  unfold accepted?
  rw [step, search_of_accepts (Path.unit_accepts pointShape rfl one_half_pos one_half_lt_one.le)]
  rw [candidate]

theorem unit_pass (sound : iterate.Sound (Path.unitProblem (1 / 2))) (step : iterate.step = 1 / 2)
    (here : iterate.extrapolated.get 0 0 = entry) (nonneg : 0 ≤ entry) (below : entry ≤ 1 / 2)
    (tolerance : ℝ) (iteration : Nat) :
    let found : Mat ℝ := .ofFn 1 1 fun _ _ => (entry + 1 / 2) / 2
    (Path.unitProblem (1 / 2)).pass tolerance iteration iterate =
      if (1 / 2 - entry) / 2 ≤ tolerance then .converged found (1 / 2)
      else .next ((Path.unitProblem (1 / 2)).advance iterate found (1 / 2)) := by
  intro found
  have pointShape : iterate.extrapolated.shape = ⟨1, 1⟩ := sound.extrapolated
  have foundShape : found.shape = ⟨1, 1⟩ := rfl
  have foundEntry : found.get 0 0 = (entry + 1 / 2) / 2 := Mat.get_ofFn _ one_pos one_pos
  have moved : (entry + 1 / 2) / 2 - entry = (1 / 2 - entry) / 2 := by ring
  rw [pass_real, unit_halfway sound step here nonneg]
  dsimp only
  rw [Path.unit_frobenius foundShape, unit_distance foundShape pointShape, foundEntry, here, moved,
    abs_of_nonneg (by linarith), abs_of_nonneg (by linarith), max_eq_right (by linarith), mul_one]

theorem unit_advances (reached : Passes (Path.unitProblem (1 / 2)) options passes iterate)
    (budget : passes < options.maxIterations) (step : iterate.step = 1 / 2)
    (here : iterate.extrapolated.get 0 0 = entry) (kept : iterate.kept.get 0 0 = entry)
    (nonneg : 0 ≤ entry) (below : entry ≤ 1 / 2) (far : options.tolerance < (1 / 2 - entry) / 2) :
    ∃ next, Passes (Path.unitProblem (1 / 2)) options (passes + 1) next ∧ next.step = 1 / 2 ∧
      next.kept.get 0 0 = (entry + 1 / 2) / 2 ∧
      next.extrapolated.get 0 0 = next.kept.get 0 0 +
        (iterate.momentum - 1) / next.momentum * (next.kept.get 0 0 - entry) ∧
      next.momentum ^ 2 - next.momentum = iterate.momentum ^ 2 ∧
      iterate.momentum + 1 / 2 ≤ next.momentum := by
  let problem : Problem ℝ := Path.unitProblem (1 / 2)
  let found : Mat ℝ := .ofFn 1 1 fun _ _ => (entry + 1 / 2) / 2
  have sound := reached.sound rfl
  have accepted : problem.accepted? iterate = some (found, 1 / 2) := unit_halfway sound step here nonneg
  have passed := (unit_pass sound step here nonneg below options.tolerance passes).trans
    (if_neg far.not_ge)
  have improves : problem.objective found ≤ iterate.keptObjective := by
    have still : iterate.extrapolated = iterate.kept :=
      Path.unit_ext sound.extrapolated sound.kept (here.trans kept.symm)
    have sharp : problem.MeetsBound iterate.extrapolated found (1 / 2) :=
      Path.unit_below sound.extrapolated rfl one_half_pos one_half_lt_one.le
    have gains := candidate_gains (Penalty.ofWeights_eq_ok.1 (unit_prepared one_half_pos.le).1).2 sound
      (unit_tangent _ sound.extrapolated sound.kept) accepted sharp sound.kept
    rw [still, Mat.distance_self] at gains
    rw [sound.keptObjective]
    linarith [sq_nonneg (iterate.kept.distance found)]
  have keeps : (problem.advance iterate found (1 / 2)).kept = found := by
    rw [kept_advance, if_pos improves]
  have onward := get_extrapolated_advance improves (1 / 2) one_pos one_pos
  obtain ⟨weight, grows⟩ := momentum_advance problem iterate found (1 / 2)
  refine ⟨_, reached.next budget passed, rfl, ?_, ?_, weight, grows⟩
  · rw [keeps]
    exact Mat.get_ofFn _ one_pos one_pos
  · rw [onward, kept, keeps]

theorem unit_extrapolates (first : options.initialStep = some (1 / 2))
    (budget : 2 ≤ options.maxIterations) (tight : options.tolerance < 1 / 8) :
    ∃ iterate, Passes (Path.unitProblem (1 / 2)) options 2 iterate ∧ iterate.step = 1 / 2 ∧
      iterate.kept.get 0 0 = 3 / 8 ∧ 41 / 100 ≤ iterate.extrapolated.get 0 0 ∧
      iterate.extrapolated.get 0 0 ≤ 42 / 100 := by
  let problem : Problem ℝ := Path.unitProblem (1 / 2)
  have start : problem.coefs.get 0 0 = 0 := Mat.get_zero ..
  have step : problem.startingStep options = 1 / 2 := by
    simp [startingStep, first]
  have unmoved : (problem.start options).momentum = 1 := rfl
  obtain ⟨second, reachedSecond, stepSecond, keptSecond, pointSecond, weightSecond, growsSecond⟩ :=
    unit_advances (.start : Passes problem options 0 _) (by omega) step start start le_rfl
      one_half_pos.le (by linarith)
  rw [unmoved, sub_self, zero_div, zero_mul, add_zero, keptSecond] at pointSecond
  obtain ⟨third, reachedThird, stepThird, keptThird, pointThird, weightThird, growsThird⟩ :=
    unit_advances reachedSecond (by omega) stepSecond pointSecond keptSecond (by norm_num) (by norm_num)
      (by linarith)
  rw [unmoved, one_pow] at weightSecond
  rw [unmoved] at growsSecond
  obtain ⟨shareLow, shareHigh⟩ :=
    onward_between weightSecond (by linarith) weightThird growsThird
  rw [keptThird] at pointThird
  refine ⟨third, reachedThird, stepThird, keptThird.trans (by norm_num), ?_, ?_⟩ <;> linarith

theorem unit_exhausts (first : options.initialStep = some (1 / 2)) (budget : options.maxIterations = 3)
    (tight : options.tolerance ≤ 1 / 100) :
    ((Path.unitProblem (1 / 2)).solve options).1 = .error (.notConverged 3) := by
  obtain ⟨iterate, reached, step, -, low, high⟩ :=
    unit_extrapolates first (by omega) (by linarith)
  have passed := (unit_pass (reached.sound rfl) step rfl (by linarith) (by linarith) options.tolerance
    2).trans (if_neg (by linarith))
  exact (reached.next (by omega) passed).solve_eq_notConverged budget.symm

theorem unit_settles (first : options.initialStep = some (1 / 2)) (budget : 3 ≤ options.maxIterations)
    (loose : 1 / 20 ≤ options.tolerance) (tight : options.tolerance < 1 / 8) :
    ∃ iterate solution, Passes (Path.unitProblem (1 / 2)) options 2 iterate ∧
      iterate.kept.get 0 0 < iterate.extrapolated.get 0 0 ∧
      (Path.unitProblem (1 / 2)).pass options.tolerance 2 iterate = .converged solution (1 / 2) ∧
      ((Path.unitProblem (1 / 2)).solve options).1 = .ok solution := by
  obtain ⟨iterate, reached, step, kept, low, high⟩ := unit_extrapolates first (by omega) tight
  have last := (unit_pass (reached.sound rfl) step rfl (by linarith) (by linarith) options.tolerance
    2).trans (if_pos (by linarith))
  exact ⟨iterate, _, reached, by linarith, last, reached.solve_eq_ok (by omega) last⟩

end

theorem accelerated_rate_unit :
    let problem : Problem ℝ := Path.unitProblem (1 / 2)
    let options : SolveOptions ℝ := ⟨1 / 100, 3, some (1 / 2)⟩
    (problem.solve options).1 = .error (.notConverged 3) ∧
      ∃ iterate, Passes problem options 2 iterate ∧
        iterate.kept.get 0 0 < iterate.extrapolated.get 0 0 ∧
        ∀ other : Mat ℝ, other.shape = ⟨1, 1⟩ →
          problem.objective iterate.kept - problem.objective other ≤
              2 * problem.coefs.distance other ^ 2 / (1 / 2 * (2 + 1) ^ 2) ∧
            problem.objective (problem.solve options).2.coefs - problem.objective other ≤
              2 * problem.coefs.distance other ^ 2 /
                ((problem.solve options).2.step * (3 + 1) ^ 2) := by
  intro problem options
  have starting : problem.startingStep options = 1 / 2 := by
    simp [startingStep, options]
  have failed : (problem.solve options).1 = .error (.notConverged 3) := unit_exhausts rfl rfl le_rfl
  obtain ⟨iterate, reached, step, kept, low, -⟩ :=
    unit_extrapolates (show options.initialStep = some (1 / 2) from rfl) (by decide)
      (by norm_num [options])
  refine ⟨failed, iterate, reached, by linarith, fun other otherShape => ?_⟩
  obtain ⟨accepted, prepared⟩ := unit_prepared one_half_pos.le
  obtain ⟨rate, exhausted⟩ := accelerated_rate accepted prepared (fun _ _ => unit_tangent (1 / 2))
    (unit_meetsBounds (starting.trans_le one_half_lt_one.le)) otherShape
  have after := rate 2 iterate one_le_two reached
  rw [step] at after
  exact ⟨after, exhausted 3 (by decide) failed⟩

end Problem

end GroupLasso
