import GroupLasso.Proofs.Frobenius

/-!
The proximal map is exact. What soft thresholding takes from a row lies in a cube and what shrinking
takes from the rest lies in a ball, and both are as long as they can be along the result, so that
together they are a subgradient of the penalty there. The result is therefore the only minimizer of
half the squared distance plus the penalty.
-/

namespace GroupLasso

open Scalar

namespace Penalty

theorem shrinkage_slack (norm : ℝ) {amount : ℝ} (nonneg : 0 ≤ amount) :
    0 ≤ 1 - shrinkage norm amount ∧ (1 - shrinkage norm amount) * norm ≤ amount ∧
      shrinkage norm amount * ((1 - shrinkage norm amount) * norm) =
        shrinkage norm amount * amount := by
  by_cases beyond : amount < norm
  · have positive : 0 < norm := nonneg.trans_lt beyond
    have taken : (1 - shrinkage norm amount) * norm = amount := by
      rw [shrinkage_of_lt beyond, sub_sub_cancel, div_mul_cancel₀ _ positive.ne']
    refine ⟨?_, taken.le, by rw [taken]⟩
    rw [shrinkage_of_lt beyond, sub_sub_cancel]
    positivity
  · rw [shrinkage_of_le (not_lt.1 beyond)]
    simpa using beyond

theorem sqrt_sum_scaled {width : Nat} {scale : ℝ} (nonneg : 0 ≤ scale) (row : Nat → ℝ) :
    √(∑ col ∈ Finset.range width, row col * scale * (row col * scale)) =
      scale * √(∑ col ∈ Finset.range width, row col * row col) := by
  have squares : ∑ col ∈ Finset.range width, row col * scale * (row col * scale) =
      scale ^ 2 * ∑ col ∈ Finset.range width, row col * row col := by
    rw [Finset.mul_sum]
    exact Finset.sum_congr rfl fun col _ => by ring
  rw [squares, Real.sqrt_mul (sq_nonneg scale), Real.sqrt_sq nonneg]

section
variable (width : Nat) {cube ball : ℝ} (row : Nat → ℝ)

noncomputable def restNorm (width : Nat) (cube : ℝ) (row : Nat → ℝ) : ℝ :=
  √(∑ col ∈ Finset.range width, softThreshold (row col) cube * softThreshold (row col) cube)

noncomputable def shrunk (width : Nat) (cube ball : ℝ) (row : Nat → ℝ) (col : Nat) : ℝ :=
  softThreshold (row col) cube * shrinkage (restNorm width cube row) ball

theorem sub_shrunk (cube_nonneg : 0 ≤ cube) (col : Nat) : row col - shrunk width cube ball row col =
    clamp (-cube) cube (row col) +
      softThreshold (row col) cube * (1 - shrinkage (restNorm width cube row) ball) := by
  have whole := clamp_add_softThreshold (row col) cube_nonneg
  rw [shrunk]
  linarith

theorem shrunk_gain_le (cube_nonneg : 0 ≤ cube) (ball_nonneg : 0 ≤ ball) (other : Nat → ℝ) :
    ∑ col ∈ Finset.range width, (row col - shrunk width cube ball row col) * other col ≤
      cube * ∑ col ∈ Finset.range width, |other col| +
        ball * √(∑ col ∈ Finset.range width, other col * other col) := by
  obtain ⟨slack_nonneg, slack, -⟩ := shrinkage_slack (restNorm width cube row) ball_nonneg
  simp only [sub_shrunk width row cube_nonneg]
  refine Gauge.gain_le_cost (fun col => Gauge.abs_clamp_le (row col) cube_nonneg) ?_ other
  simp only [sq]
  rw [sqrt_sum_scaled slack_nonneg]
  exact slack

theorem shrunk_gain (cube_nonneg : 0 ≤ cube) (ball_nonneg : 0 ≤ ball) :
    ∑ col ∈ Finset.range width,
        (row col - shrunk width cube ball row col) * shrunk width cube ball row col =
      cube * ∑ col ∈ Finset.range width, |shrunk width cube ball row col| +
        ball * √(∑ col ∈ Finset.range width,
          shrunk width cube ball row col * shrunk width cube ball row col) := by
  let length := restNorm width cube row
  let factor := shrinkage length ball
  have factor_nonneg : 0 ≤ factor := shrinkage_nonneg (Real.sqrt_nonneg _)
  have edge : factor * ((1 - factor) * length) = factor * ball := (shrinkage_slack length ball_nonneg).2.2
  have square : length * length =
      ∑ col ∈ Finset.range width, softThreshold (row col) cube * softThreshold (row col) cube :=
    Real.mul_self_sqrt (Finset.sum_nonneg fun col _ => mul_self_nonneg _)
  have entry : ∀ col, (row col - shrunk width cube ball row col) * shrunk width cube ball row col =
      cube * |shrunk width cube ball row col| + factor * (1 - factor) *
        (softThreshold (row col) cube * softThreshold (row col) cube) := by
    intro col
    have clipped := Gauge.mul_softThreshold (row col) cube_nonneg
    have size : |shrunk width cube ball row col| = |softThreshold (row col) cube| * factor := by
      rw [shrunk, abs_mul, abs_of_nonneg factor_nonneg]
    have found : shrunk width cube ball row col = softThreshold (row col) cube * factor := rfl
    rw [size, found]
    linear_combination factor * clipped
  have norm : √(∑ col ∈ Finset.range width,
      shrunk width cube ball row col * shrunk width cube ball row col) = factor * length :=
    sqrt_sum_scaled factor_nonneg _
  simp only [entry, Finset.sum_add_distrib, ← Finset.mul_sum, norm, ← square]
  linear_combination length * edge

theorem shrunk_supports (cube_nonneg : 0 ≤ cube) (ball_nonneg : 0 ≤ ball) (other : Nat → ℝ) :
    ∑ col ∈ Finset.range width, (row col - shrunk width cube ball row col) *
        (other col - shrunk width cube ball row col) +
        (cube * ∑ col ∈ Finset.range width, |shrunk width cube ball row col| +
          ball * √(∑ col ∈ Finset.range width,
            shrunk width cube ball row col * shrunk width cube ball row col)) ≤
      cube * ∑ col ∈ Finset.range width, |other col| +
        ball * √(∑ col ∈ Finset.range width, other col * other col) := by
  have along := shrunk_gain width row cube_nonneg ball_nonneg
  have beyond := shrunk_gain_le width row cube_nonneg ball_nonneg other
  simp only [mul_sub, Finset.sum_sub_distrib] at along beyond ⊢
  linarith

end

/-! The penalty as a sum over its groups. -/

def rowCost {α : Type} [Scalar α] (penalty : Penalty α) (group : Nat) (coef : Nat → α) : α :=
  penalty.lagrange * (penalty.l1At group * sumTo penalty.shape.cols (fun col => Scalar.abs (coef col)) +
    penalty.l2At group * sqrt (sumTo penalty.shape.cols fun col => coef col * coef col))

/-- The cost of a group lies above its value at some coefficients plus a linear function of the
difference. -/
def IsSubgradient (penalty : Penalty ℝ) (group : Nat) (slope coef : Nat → ℝ) : Prop :=
  ∀ other : Nat → ℝ, penalty.rowCost group coef +
    ∑ col ∈ Finset.range penalty.shape.cols, slope col * (other col - coef col) ≤
      penalty.rowCost group other

variable {penalty : Penalty ℝ} {coef other : Mat ℝ} {step : ℝ} {group : Nat}

theorem value_eq_rowCosts (penalty : Penalty ℝ) (coef : Mat ℝ) :
    penalty.value coef =
      ∑ group ∈ Finset.range penalty.groups, penalty.rowCost group (coef.get group) := by
  simp only [value, rowCost, sumTo_real, Finset.mul_sum]
  rfl

theorem rowCost_congr {left right : Nat → ℝ}
    (equal : ∀ col < penalty.shape.cols, left col = right col) :
    penalty.rowCost group left = penalty.rowCost group right := by
  have sums : ∀ term : ℝ → ℝ, ∑ col ∈ Finset.range penalty.shape.cols, term (left col) =
      ∑ col ∈ Finset.range penalty.shape.cols, term (right col) :=
    fun term => Finset.sum_congr rfl fun col member => by rw [equal col (Finset.mem_range.1 member)]
  simp only [rowCost, sumTo_real, sums Scalar.abs, sums fun entry => entry * entry]

theorem step_mul_rowCost (row : Nat → ℝ) : step * penalty.rowCost group row =
    step * penalty.lagrange * penalty.l1At group *
        ∑ col ∈ Finset.range penalty.shape.cols, |row col| +
      step * penalty.lagrange * penalty.l2At group *
        √(∑ col ∈ Finset.range penalty.shape.cols, row col * row col) := by
  simp only [rowCost, sumTo_real, abs_real, sqrt_real]
  ring

theorem get_proximal_eq_shrunk (bound : group < penalty.groups) (coef : Mat ℝ) (step : ℝ) :
    ∀ col < penalty.shape.cols, (penalty.proximal coef step).get group col =
      shrunk penalty.shape.cols (step * penalty.lagrange * penalty.l1At group)
        (step * penalty.lagrange * penalty.l2At group) (coef.get group) col := by
  intro col colBound
  have thresholded : ∀ col < penalty.shape.cols, (penalty.thresholded coef step).get group col =
      softThreshold (coef.get group col) (step * penalty.lagrange * penalty.l1At group) :=
    fun col colBound => Mat.get_ofFn _ bound colBound
  have length : (penalty.thresholded coef step).rowNorm group = restNorm penalty.shape.cols
      (step * penalty.lagrange * penalty.l1At group) (coef.get group) := by
    have cols : (penalty.thresholded coef step).cols = penalty.shape.cols := rfl
    rw [Mat.rowNorm, sqrt_real, sumTo_real, cols, restNorm]
    congr 1
    exact Finset.sum_congr rfl fun col member => by rw [thresholded col (Finset.mem_range.1 member)]
  rw [get_proximal bound colBound, thresholded col colBound, length, shrunk]

theorem proximal_supports (valid : penalty.Valid) (step_nonneg : 0 ≤ step)
    (bound : group < penalty.groups) (other : Nat → ℝ) :
    ∑ col ∈ Finset.range penalty.shape.cols,
        (coef.get group col - (penalty.proximal coef step).get group col) *
          (other col - (penalty.proximal coef step).get group col) +
      step * penalty.rowCost group ((penalty.proximal coef step).get group) ≤
        step * penalty.rowCost group other := by
  have scale_nonneg : 0 ≤ step * penalty.lagrange := mul_nonneg step_nonneg valid.lagrange_nonneg
  have supports := shrunk_supports penalty.shape.cols (coef.get group)
    (mul_nonneg scale_nonneg (valid.l1_nonneg group))
    (mul_nonneg scale_nonneg (valid.l2_nonneg group)) other
  have found := get_proximal_eq_shrunk bound coef step
  rw [rowCost_congr found, step_mul_rowCost, step_mul_rowCost,
    Finset.sum_congr rfl fun col member => by rw [found col (Finset.mem_range.1 member)]]
  exact supports

theorem proximal_supports_value (valid : penalty.Valid) (step_nonneg : 0 ≤ step) (coef other : Mat ℝ) :
    (penalty.shape.sum fun group col =>
      (coef.get group col - (penalty.proximal coef step).get group col) *
        (other.get group col - (penalty.proximal coef step).get group col)) +
      step * penalty.value (penalty.proximal coef step) ≤ step * penalty.value other := by
  have groups : penalty.shape.rows = penalty.groups := rfl
  rw [value_eq_rowCosts, value_eq_rowCosts, Finset.mul_sum, Finset.mul_sum, Shape.sum, groups,
    ← Finset.sum_add_distrib]
  exact Finset.sum_le_sum fun group member =>
    proximal_supports valid step_nonneg (Finset.mem_range.1 member) (other.get group)

/-- Half the squared distance to the coefficients plus a multiple of the penalty. -/
noncomputable def proximalCost (penalty : Penalty ℝ) (coef : Mat ℝ) (step : ℝ) (point : Mat ℝ) : ℝ :=
  1 / 2 * point.distance coef ^ 2 + step * penalty.value point

theorem proximalCost_add_le (valid : penalty.Valid) (coefShape : coef.shape = penalty.shape)
    (otherShape : other.shape = penalty.shape) (step_nonneg : 0 ≤ step) :
    penalty.proximalCost coef step (penalty.proximal coef step) +
        1 / 2 * other.distance (penalty.proximal coef step) ^ 2 ≤
      penalty.proximalCost coef step other := by
  let found := penalty.proximal coef step
  have foundShape : found.shape = penalty.shape := rfl
  have supports := proximal_supports_value valid step_nonneg coef other
  have squares := Mat.distance_sq_around otherShape foundShape coefShape
  rw [proximalCost, proximalCost, squares]
  linarith

theorem proximal_of_free (valid : penalty.Valid) (free : ∀ point, penalty.value point = 0)
    (shape : coef.shape = penalty.shape) (step_nonneg : 0 ≤ step) : penalty.proximal coef step = coef := by
  have least := proximalCost_add_le valid shape shape step_nonneg
  rw [proximalCost, proximalCost, free, free, Mat.distance_self] at least
  refine Mat.eq_of_distance_sq_nonpos rfl shape ?_
  linarith [sq_nonneg (coef.distance (penalty.proximal coef step))]

variable {shape : Shape} {l1 l2 : Array ℝ} {lagrange : ℝ}

/-- The proximal map minimizes half the squared distance plus the penalty, with half the squared
distance from the minimizer to spare at any other matrix, so that there is no other minimizer. -/
theorem proximal_minimizes (accepted : ofWeights shape l1 l2 lagrange = .ok penalty)
    (coefShape : coef.shape = shape) (step_nonneg : 0 ≤ step) :
    (∀ other : Mat ℝ, other.shape = shape →
      penalty.proximalCost coef step (penalty.proximal coef step) +
          1 / 2 * other.distance (penalty.proximal coef step) ^ 2 ≤
        penalty.proximalCost coef step other) ∧
    (penalty.proximal coef step).shape = shape ∧
    ∀ best : Mat ℝ, best.shape = shape →
      ((∀ other : Mat ℝ, other.shape = shape →
        penalty.proximalCost coef step best ≤ penalty.proximalCost coef step other) ↔
          best = penalty.proximal coef step) := by
  obtain ⟨rfl, valid⟩ := ofWeights_eq_ok.1 accepted
  let penalty : Penalty ℝ := ⟨shape, l1, l2, lagrange⟩
  have spare : ∀ other : Mat ℝ, other.shape = shape →
      penalty.proximalCost coef step (penalty.proximal coef step) +
        1 / 2 * other.distance (penalty.proximal coef step) ^ 2 ≤
          penalty.proximalCost coef step other :=
    fun other otherShape => proximalCost_add_le valid coefShape otherShape step_nonneg
  refine ⟨spare, rfl, fun best bestShape => ⟨fun minimal => ?_, ?_⟩⟩
  · have noMore := minimal (penalty.proximal coef step) rfl
    have found := spare best bestShape
    exact Mat.eq_of_distance_sq_nonpos bestShape (rfl : (penalty.proximal coef step).shape = shape)
      (by linarith)
  · rintro rfl other otherShape
    have square := sq_nonneg (other.distance (penalty.proximal coef step))
    exact (le_add_of_nonneg_right (by positivity)).trans (spare other otherShape)

theorem proximal_minimizes_pair :
    let penalty : Penalty ℝ := ⟨⟨1, 2⟩, #[1], #[1], 1⟩
    let coef : Mat ℝ := .ofFn 1 2 fun _ col => col + 4
    let found : Mat ℝ := .ofFn 1 2 fun _ col => 4 / 5 * (col + 3)
    penalty.proximal coef 1 = found ∧
      ∀ best : Mat ℝ, best.shape = ⟨1, 2⟩ →
        ((∀ other : Mat ℝ, other.shape = ⟨1, 2⟩ →
          penalty.proximalCost coef 1 best ≤ penalty.proximalCost coef 1 other) ↔ best = found) := by
  intro penalty coef closest
  have valid : penalty.Valid := valid_iff.2 (by simp [penalty, groups])
  have rest : ∀ col < 2, softThreshold (coef.get 0 col) 1 = col + 3 := by
    intro col bound
    have entry : coef.get 0 col = col + 4 := Mat.get_ofFn _ one_pos bound
    have nonneg : (0 : ℝ) ≤ col := col.cast_nonneg
    have beyond : (1 : ℝ) < col + 4 := by linarith
    rw [entry, softThreshold, if_pos beyond]
    ring
  have found : penalty.proximal coef 1 = closest := by
    refine Mat.ext_get rfl rfl ?_
    intro row (rowBound : row < 1) col (colBound : col < 2)
    obtain rfl : row = 0 := by omega
    have length : restNorm 2 1 (coef.get 0) = 5 := by
      rw [restNorm, Finset.sum_range_succ, Finset.sum_range_one, rest 0 two_pos, rest 1 one_lt_two]
      norm_num
    have factor : shrinkage (5 : ℝ) 1 = 4 / 5 := by
      rw [shrinkage_of_lt (by norm_num)]
      norm_num
    have amount : (1 : ℝ) * penalty.lagrange * 1 = 1 := by simp [penalty]
    have inside : 0 < penalty.groups := one_pos
    rw [get_proximal_eq_shrunk inside coef 1 col colBound, Mat.get_ofFn _ one_pos colBound]
    change shrunk 2 (1 * penalty.lagrange * 1) (1 * penalty.lagrange * 1) (coef.get 0) col = _
    rw [amount, shrunk, rest col colBound, length, factor, mul_comm]
  exact ⟨found, found ▸ (proximal_minimizes (ofWeights_eq_ok.2 ⟨rfl, valid⟩) rfl zero_le_one).2.2⟩

end Penalty

end GroupLasso
