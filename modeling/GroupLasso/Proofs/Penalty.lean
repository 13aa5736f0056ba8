import GroupLasso.Penalty
import GroupLasso.Proofs.Failure
import GroupLasso.Proofs.Gauge
import GroupLasso.Proofs.Matrix

/-!
The fixed points of the proximal map. A solution that a proximal gradient step leaves where it is
satisfies the stationarity conditions of the penalized problem in every group, and conversely, for
any step.
-/

namespace GroupLasso

open Scalar

namespace Penalty

structure Valid (penalty : Penalty ℝ) : Prop where
  l1_size : penalty.l1.size = penalty.groups
  l2_size : penalty.l2.size = penalty.groups
  l1_nonneg : ∀ group, 0 ≤ penalty.l1At group
  l2_nonneg : ∀ group, 0 ≤ penalty.l2At group
  lagrange_nonneg : 0 ≤ penalty.lagrange

theorem getD_nonneg_iff {weights : Array ℝ} :
    (∀ group, 0 ≤ weights.getD group 0) ↔ ∀ weight ∈ weights, 0 ≤ weight := by
  constructor
  · intro nonneg weight member
    obtain ⟨group, bound, rfl⟩ := Array.mem_iff_getElem.1 member
    simpa [Array.getD, bound] using nonneg group
  · intro nonneg group
    by_cases bound : group < weights.size
    · simpa [Array.getD, bound] using nonneg _ (Array.getElem_mem bound)
    · simp [Array.getD, bound]

theorem valid_iff {penalty : Penalty ℝ} :
    penalty.Valid ↔ penalty.l1.size = penalty.groups ∧ penalty.l2.size = penalty.groups ∧
      (∀ weight ∈ penalty.l1, 0 ≤ weight) ∧ (∀ weight ∈ penalty.l2, 0 ≤ weight) ∧
        0 ≤ penalty.lagrange := by
  rw [← getD_nonneg_iff, ← getD_nonneg_iff]
  constructor
  · intro valid
    exact ⟨valid.l1_size, valid.l2_size, valid.l1_nonneg, valid.l2_nonneg, valid.lagrange_nonneg⟩
  · rintro ⟨l1_size, l2_size, l1_nonneg, l2_nonneg, lagrange_nonneg⟩
    exact ⟨l1_size, l2_size, l1_nonneg, l2_nonneg, lagrange_nonneg⟩

theorem validateWeights_eq_ok {name : String} {weights : Array ℝ} {groups : Nat} {done : Unit} :
    validateWeights name weights groups = .ok done ↔
      weights.size = groups ∧ ∀ group, 0 ≤ weights.getD group 0 := by
  unfold validateWeights
  rw [Failure.bind_eq_ok, getD_nonneg_iff]
  simp only [Failure.expectLength_eq_ok]
  constructor
  · rintro ⟨_, sizes, accepted⟩
    refine ⟨sizes.symm, ?_⟩
    cases search : weights.find? fun weight => ¬ IsFiniteNonneg weight with
    | some weight =>
        rw [search] at accepted
        cases accepted
    | none => simpa using search
  · rintro ⟨sizes, nonneg⟩
    refine ⟨(), sizes.symm, ?_⟩
    have search : (weights.find? fun weight => ¬ IsFiniteNonneg weight) = none := by
      simpa using nonneg
    rw [search]
    rfl

theorem ofWeights_eq_ok {shape : Shape} {l1 l2 : Array ℝ} {lagrange : ℝ} {penalty : Penalty ℝ} :
    ofWeights shape l1 l2 lagrange = .ok penalty ↔
      penalty = ⟨shape, l1, l2, lagrange⟩ ∧ penalty.Valid := by
  unfold ofWeights
  simp only [Failure.bind_eq_ok, validateWeights_eq_ok, isFiniteNonneg_real]
  constructor
  · rintro ⟨_, first, _, second, accepted⟩
    split_ifs at accepted with nonneg
    · obtain rfl : _ = penalty := Except.ok.inj accepted
      exact ⟨rfl, first.1, second.1, first.2, second.2, nonneg⟩
    · cases accepted
  · rintro ⟨rfl, valid⟩
    refine ⟨(), ⟨valid.l1_size, valid.l1_nonneg⟩, (), ⟨valid.l2_size, valid.l2_nonneg⟩, ?_⟩
    rw [if_pos valid.lagrange_nonneg]
    rfl

theorem ofWeights_fields {α : Type} [Scalar α] {shape : Shape} {l1 l2 : Array α} {lagrange : α}
    {penalty : Penalty α} (accepted : ofWeights shape l1 l2 lagrange = .ok penalty) :
    IsFiniteNonneg lagrange ∧ penalty = ⟨shape, l1, l2, lagrange⟩ := by
  obtain ⟨_, _, accepted⟩ := Failure.bind_eq_ok.1 accepted
  obtain ⟨_, _, accepted⟩ := Failure.bind_eq_ok.1 accepted
  obtain ⟨nonneg, finished⟩ := Failure.guard_eq_ok.1 accepted
  cases finished
  exact ⟨nonneg, rfl⟩

theorem mem_unpenalized {α : Type} [Scalar α] {penalty : Penalty α} {group : Nat} :
    group ∈ penalty.unpenalized ↔ group < penalty.groups ∧ penalty.isUnpenalized group = true := by
  rw [unpenalized, List.mem_filter, List.mem_range]

theorem unpenalized_nodup {α : Type} [Scalar α] (penalty : Penalty α) : penalty.unpenalized.Nodup :=
  List.nodup_range.filter _

theorem shrinkage_of_le {norm amount : ℝ} (within : norm ≤ amount) : shrinkage norm amount = 0 :=
  if_neg within.not_gt

theorem shrinkage_of_lt {norm amount : ℝ} (beyond : amount < norm) :
    shrinkage norm amount = 1 - amount / norm := if_pos beyond

theorem shrinkage_nonneg {norm amount : ℝ} (nonneg : 0 ≤ norm) : 0 ≤ shrinkage norm amount := by
  by_cases beyond : amount < norm
  · rw [shrinkage_of_lt beyond, sub_nonneg]
    exact div_le_one_of_le₀ beyond.le nonneg
  · rw [shrinkage_of_le (not_lt.1 beyond)]

theorem shrink_eq_zero {vector : List ℝ} {amount : ℝ} (nonneg : 0 ≤ amount) :
    (∀ entry ∈ vector, shrinkage (norm vector) amount * entry = 0) ↔ norm vector ≤ amount := by
  constructor
  · intro vanishes
    by_contra beyond
    have longer : amount < norm vector := not_le.1 beyond
    have positive : 0 < norm vector := nonneg.trans_lt longer
    have factor : shrinkage (norm vector) amount ≠ 0 := by
      rw [shrinkage_of_lt longer, sub_ne_zero]
      exact (div_lt_one positive |>.2 longer).ne'
    have zero : norm vector = 0 := by
      rw [norm_eq_zero_real]
      intro entry member
      exact (mul_eq_zero.1 (vanishes entry member)).resolve_left factor
    exact positive.ne' zero
  · intro within entry _
    rw [shrinkage_of_le within, zero_mul]

theorem map_mul_cancel {factor inverse : ℝ} (one : inverse * factor = 1) (vector : List ℝ) :
    (vector.map (factor * ·)).map (inverse * ·) = vector := by
  rw [List.map_map]
  conv_rhs => rw [← List.map_id vector]
  apply List.map_congr_left
  intro entry _
  simp only [Function.comp_apply, id_eq]
  linear_combination entry * one

theorem shrink_eq_iff {vector target : List ℝ} {amount : ℝ} (nonneg : 0 ≤ amount)
    (nonzero : norm target ≠ 0) :
    target = vector.map (shrinkage (norm vector) amount * ·) ↔
      vector = target.map ((1 + amount / norm target) * ·) := by
  have positive : 0 < norm target := norm_pos_real nonzero
  have inverse : norm vector = norm target + amount →
      (1 + amount / norm target) * (1 - amount / norm vector) = 1 := by
    intro length
    have : norm target + amount ≠ 0 := by linarith
    rw [length]
    field_simp
    ring
  constructor
  · intro shrunk
    have length : norm target = shrinkage (norm vector) amount * norm vector := by
      conv_lhs => rw [shrunk]
      rw [norm_mul_real, abs_of_nonneg (shrinkage_nonneg (norm_nonneg_real vector))]
    have beyond : amount < norm vector := by
      by_contra within
      rw [shrinkage_of_le (not_lt.1 within), zero_mul] at length
      exact nonzero length
    have vector_pos : 0 < norm vector := nonneg.trans_lt beyond
    rw [shrinkage_of_lt beyond] at length shrunk
    have longer : norm vector = norm target + amount := by
      rw [length]
      field_simp
      ring
    rw [← map_mul_cancel (inverse longer) vector, ← shrunk]
  · intro grown
    have longer : norm vector = norm target + amount := by
      conv_lhs => rw [grown]
      rw [norm_mul_real, abs_of_nonneg (by positivity)]
      field_simp
    have beyond : amount < norm vector := by linarith
    rw [shrinkage_of_lt beyond,
      ← map_mul_cancel ((mul_comm _ _).trans (inverse longer)) target, ← grown]

/-! The proximal gradient step, row by row. -/

theorem step_threshold_iff {coef gradient cube ball step length : ℝ} (cube_nonneg : 0 ≤ cube)
    (ball_nonneg : 0 ≤ ball) (step_pos : 0 < step) (length_pos : 0 < length) :
    softThreshold (coef + -step * gradient) (step * cube) = (1 + step * ball / length) * coef ↔
      (coef = 0 → |gradient| ≤ cube) ∧
        (coef ≠ 0 → -gradient = cube * sign coef + ball * (coef / length)) := by
  have amount_nonneg : 0 ≤ step * cube := mul_nonneg step_pos.le cube_nonneg
  have factor_pos : 0 < 1 + step * ball / length := by positivity
  by_cases zero : coef = 0
  · subst zero
    rw [mul_zero, softThreshold_eq_zero, zero_add, abs_mul, abs_neg, abs_of_pos step_pos,
      mul_le_mul_iff_right₀ step_pos]
    exact ⟨fun within => ⟨fun _ => within, fun nonzero => absurd rfl nonzero⟩,
      fun stationary => stationary.1 rfl⟩
  · rw [softThreshold_eq_iff amount_nonneg (mul_ne_zero factor_pos.ne' zero), sign_mul factor_pos]
    have divided : step * ball / length * coef = step * (ball * (coef / length)) := by ring
    constructor
    · intro moved
      refine ⟨fun vanishes => absurd vanishes zero, fun _ => ?_⟩
      apply mul_left_cancel₀ step_pos.ne'
      linear_combination moved + divided
    · intro stationary
      linear_combination step * stationary.2 zero - divided

def steppedRow {α : Type} [Scalar α] (penalty : Penalty α) (gradient coef : Mat α) (step : α)
    (group : Nat) : List α :=
  (List.range coef.cols).map fun col =>
    softThreshold (coef.get group col + -step * gradient.get group col)
      (step * (penalty.lagrange * penalty.l1At group))

theorem row_proximal (penalty : Penalty ℝ) {gradient coef : Mat ℝ} (step : ℝ) {group : Nat}
    (shape : coef.shape = penalty.shape) (bound : group < penalty.groups) :
    (penalty.proximal (coef.addScaled (-step) gradient) step).row group =
      (penalty.steppedRow gradient coef step group).map
        (shrinkage (norm (penalty.steppedRow gradient coef step group))
          (step * (penalty.lagrange * penalty.l2At group)) * ·) := by
  have cols : coef.cols = penalty.shape.cols := Mat.cols_eq shape
  have groupBound : group < penalty.shape.rows := bound
  have listed : (Mat.ofFn penalty.shape.rows penalty.shape.cols fun group col =>
      softThreshold ((coef.addScaled (-step) gradient).get group col)
        (step * penalty.lagrange * penalty.l1At group)).row group =
      penalty.steppedRow gradient coef step group := by
    rw [Mat.row_ofFn _ groupBound, steppedRow, ← cols]
    apply List.map_congr_left
    intro col member
    rw [Mat.addScaled, Mat.get_ofFn _ (Mat.rows_eq shape ▸ groupBound) (List.mem_range.1 member),
      mul_assoc]
  unfold proximal
  rw [Mat.row_ofFn _ groupBound, ← listed, ← Mat.rowNorm_eq_norm_row, Mat.row, List.map_map]
  apply List.map_congr_left
  intro col _
  simp [groupBound, mul_comm, mul_assoc]

/-- The conditions on one group under which no direction improves on a solution with this smooth
gradient: a zero group may stay at zero, and on a nonzero group the gradient is balanced by a
subgradient of the penalty. -/
structure Stationary (penalty : Penalty ℝ) (gradient coef : Mat ℝ) (group : Nat) : Prop where
  inBall : coef.rowNorm group = 0 →
    Gauge.softNorm ((gradient.row group).map (- ·)) (penalty.lagrange * penalty.l1At group) ≤
      penalty.lagrange * penalty.l2At group
  inCube : coef.rowNorm group ≠ 0 → ∀ col < coef.cols, coef.get group col = 0 →
    |gradient.get group col| ≤ penalty.lagrange * penalty.l1At group
  onEdge : ∀ col < coef.cols, coef.get group col ≠ 0 →
    -gradient.get group col =
      penalty.lagrange * penalty.l1At group * sign (coef.get group col) +
        penalty.lagrange * penalty.l2At group * (coef.get group col / coef.rowNorm group)

section
variable {penalty : Penalty ℝ} {gradient coef : Mat ℝ} {step : ℝ} {group : Nat}

theorem row_fixed_of_zero (valid : penalty.Valid) (coefShape : coef.shape = penalty.shape)
    (gradientShape : gradient.shape = penalty.shape) (step_pos : 0 < step)
    (bound : group < penalty.groups) (zero : coef.rowNorm group = 0) :
    coef.row group = (penalty.proximal (coef.addScaled (-step) gradient) step).row group ↔
      Gauge.softNorm ((gradient.row group).map (- ·)) (penalty.lagrange * penalty.l1At group) ≤
        penalty.lagrange * penalty.l2At group := by
  have gradientCols : gradient.cols = coef.cols :=
    (Mat.cols_eq gradientShape).trans (Mat.cols_eq coefShape).symm
  have ball_nonneg : 0 ≤ step * (penalty.lagrange * penalty.l2At group) :=
    mul_nonneg step_pos.le (mul_nonneg valid.lagrange_nonneg (valid.l2_nonneg group))
  have vanishes := Mat.rowNorm_eq_zero.1 zero
  have length : norm (penalty.steppedRow gradient coef step group) =
      step * Gauge.softNorm ((gradient.row group).map (- ·))
        (penalty.lagrange * penalty.l1At group) := by
    have scaled : penalty.steppedRow gradient coef step group =
        (((gradient.row group).map (- ·)).map fun entry =>
          softThreshold entry (penalty.lagrange * penalty.l1At group)).map (step * ·) := by
      simp only [steppedRow, Mat.row, List.map_map, gradientCols]
      apply List.map_congr_left
      intro col member
      rw [vanishes col (List.mem_range.1 member), zero_add, neg_mul, ← mul_neg,
        softThreshold_mul step_pos]
      rfl
    rw [scaled, norm_mul_real, abs_of_pos step_pos, Gauge.softNorm]
  rw [row_proximal penalty step coefShape bound, ← mul_le_mul_iff_right₀ step_pos, ← length,
    ← shrink_eq_zero ball_nonneg]
  rw [Mat.row, steppedRow, List.map_map, List.map_inj_left]
  simp only [List.mem_map, List.mem_range, forall_exists_index, and_imp,
    forall_apply_eq_imp_iff₂, Function.comp_apply]
  exact forall₂_congr fun col colBound => by rw [vanishes col colBound, eq_comm]

theorem row_fixed_of_nonzero (valid : penalty.Valid) (coefShape : coef.shape = penalty.shape)
    (step_pos : 0 < step) (bound : group < penalty.groups) (nonzero : coef.rowNorm group ≠ 0) :
    coef.row group = (penalty.proximal (coef.addScaled (-step) gradient) step).row group ↔
      ∀ col < coef.cols,
        (coef.get group col = 0 →
          |gradient.get group col| ≤ penalty.lagrange * penalty.l1At group) ∧
        (coef.get group col ≠ 0 → -gradient.get group col =
          penalty.lagrange * penalty.l1At group * sign (coef.get group col) +
            penalty.lagrange * penalty.l2At group *
              (coef.get group col / coef.rowNorm group)) := by
  have cube_nonneg := mul_nonneg valid.lagrange_nonneg (valid.l1_nonneg group)
  have ball_nonneg := mul_nonneg valid.lagrange_nonneg (valid.l2_nonneg group)
  have length_pos : 0 < coef.rowNorm group := Mat.rowNorm_pos_iff.2 nonzero
  rw [Mat.rowNorm_eq_norm_row] at nonzero
  rw [row_proximal penalty step coefShape bound,
    shrink_eq_iff (mul_nonneg step_pos.le ball_nonneg) nonzero, ← Mat.rowNorm_eq_norm_row,
    steppedRow, Mat.row, List.map_map, List.map_inj_left]
  simp only [List.mem_range, Function.comp_apply]
  exact forall₂_congr fun col _ =>
    step_threshold_iff cube_nonneg ball_nonneg step_pos length_pos

/-- A solution stays where it is under a proximal gradient step of any length exactly when it is
stationary in every group. -/
theorem fixedPoint_iff (valid : penalty.Valid) (coefShape : coef.shape = penalty.shape)
    (gradientShape : gradient.shape = penalty.shape) (step_pos : 0 < step) :
    coef = penalty.proximal (coef.addScaled (-step) gradient) step ↔
      ∀ group < penalty.groups, penalty.Stationary gradient coef group := by
  have rows : coef.rows = penalty.groups := Mat.rows_eq coefShape
  rw [Mat.eq_iff_rows rows (Mat.cols_eq coefShape), rows]
  refine forall₂_congr fun group bound => ?_
  by_cases zero : coef.rowNorm group = 0
  · rw [row_fixed_of_zero valid coefShape gradientShape step_pos bound zero]
    refine ⟨fun inBall => ⟨fun _ => inBall, fun nonzero => absurd zero nonzero, ?_⟩,
      fun stationary => stationary.inBall zero⟩
    intro col colBound nonzero
    exact absurd (Mat.rowNorm_eq_zero.1 zero col colBound) nonzero
  · rw [row_fixed_of_nonzero valid coefShape step_pos bound zero]
    constructor
    · intro balanced
      exact ⟨fun vanishes => absurd vanishes zero, fun _ col colBound => (balanced col colBound).1,
        fun col colBound => (balanced col colBound).2⟩
    · intro stationary col colBound
      exact ⟨stationary.inCube zero col colBound, stationary.onEdge col colBound⟩

end

end Penalty

end GroupLasso
