import GroupLasso.Path.Basic
import GroupLasso.Proofs.Matrix
import GroupLasso.Proofs.Penalty

/-!
The gauge as a dual norm. A gradient is in the dual ball of a penalty exactly when moving along no
direction gains more from the gradient than the penalty costs, and the largest Lagrange value of
interest is the least at which that holds of the penalized groups.
-/

namespace GroupLasso

open Scalar

namespace Gauge

theorem softNorm_neg (vector : List ℝ) {amount : ℝ} (nonneg : 0 ≤ amount) :
    softNorm (vector.map (- ·)) amount = softNorm vector amount := by
  unfold softNorm
  rw [norm_real, norm_real, List.map_map, List.map_map, List.map_map]
  congr 2
  apply List.map_congr_left
  intro entry _
  simp only [Function.comp_apply]
  rw [← abs_mul_abs_self, ← abs_mul_abs_self (softThreshold entry amount),
    abs_softThreshold nonneg, abs_softThreshold nonneg, abs_neg]

theorem magnitudes_neg (vector : List ℝ) : magnitudes (vector.map (- ·)) = magnitudes vector := by
  have sizes : (vector.map (- ·)).map Scalar.abs = vector.map Scalar.abs := by
    rw [List.map_map]
    exact List.map_congr_left fun entry _ => abs_neg entry
  rw [magnitudes, magnitudes, sizes]

theorem gauge_neg (vector : List ℝ) (l1 l2 : ℝ) :
    gauge (vector.map (- ·)) l1 l2 = gauge vector l1 l2 := by
  have length : norm (vector.map (- ·)) = norm vector := by simp [norm_real, Function.comp_def]
  simp only [gauge, crossing, magnitudes_neg, length]

section
variable {width : Nat} {force : Nat → ℝ} {cube ball : ℝ}

theorem softNorm_range (force : Nat → ℝ) (width : Nat) (cube : ℝ) :
    softNorm ((List.range width).map force) cube =
      √(∑ col ∈ Finset.range width, softThreshold (force col) cube ^ 2) := by
  rw [softNorm, norm_real, List.map_map, List.map_map]
  simp only [sq]
  rfl

theorem mul_softThreshold (value : ℝ) (nonneg : 0 ≤ cube) :
    value * softThreshold value cube =
      softThreshold value cube ^ 2 + cube * |softThreshold value cube| := by
  by_cases vanishes : softThreshold value cube = 0
  · rw [vanishes, abs_zero]
    ring
  · have edge := (softThreshold_eq_iff nonneg vanishes).1 rfl
    have size : sign (softThreshold value cube) * softThreshold value cube =
        |softThreshold value cube| := by
      unfold sign
      split_ifs with positive negative
      · rw [abs_of_pos positive, one_mul]
      · rw [abs_of_neg negative, neg_one_mul]
      · exact absurd (le_antisymm (not_lt.1 positive) (not_lt.1 negative)) vanishes
    calc value * softThreshold value cube
        = (softThreshold value cube + cube * sign (softThreshold value cube)) *
            softThreshold value cube := by rw [← edge]
      _ = softThreshold value cube ^ 2 +
            cube * (sign (softThreshold value cube) * softThreshold value cube) := by ring
      _ = softThreshold value cube ^ 2 + cube * |softThreshold value cube| := by rw [size]

theorem abs_clamp_le (value : ℝ) (nonneg : 0 ≤ cube) : |clamp (-cube) cube value| ≤ cube := by
  unfold clamp
  split_ifs with below above
  · rw [abs_neg, abs_of_nonneg nonneg]
  · rw [abs_of_nonneg nonneg]
  · exact abs_le.2 ⟨not_lt.1 below, not_lt.1 above⟩

theorem gain_le_cost {clipped rest : Nat → ℝ} (inCube : ∀ col, |clipped col| ≤ cube)
    (inBall : √(∑ col ∈ Finset.range width, rest col ^ 2) ≤ ball) (direction : Nat → ℝ) :
    ∑ col ∈ Finset.range width, (clipped col + rest col) * direction col ≤
      cube * ∑ col ∈ Finset.range width, |direction col| +
        ball * √(∑ col ∈ Finset.range width, direction col * direction col) := by
  have first : ∑ col ∈ Finset.range width, clipped col * direction col ≤
      cube * ∑ col ∈ Finset.range width, |direction col| := by
    rw [Finset.mul_sum]
    refine Finset.sum_le_sum fun col _ => (le_abs_self _).trans ?_
    rw [abs_mul]
    exact mul_le_mul_of_nonneg_right (inCube col) (abs_nonneg _)
  have second : ∑ col ∈ Finset.range width, rest col * direction col ≤
      ball * √(∑ col ∈ Finset.range width, direction col * direction col) := by
    have schwarz := Real.sum_mul_le_sqrt_mul_sqrt (Finset.range width) rest direction
    have squares : ∑ col ∈ Finset.range width, direction col ^ 2 =
        ∑ col ∈ Finset.range width, direction col * direction col :=
      Finset.sum_congr rfl fun col _ => sq (direction col)
    rw [squares] at schwarz
    exact schwarz.trans (mul_le_mul_of_nonneg_right inBall (Real.sqrt_nonneg _))
  simp only [add_mul, Finset.sum_add_distrib]
  exact add_le_add first second

theorem gain_rest (force : Nat → ℝ) (width : Nat) (cube_nonneg : 0 ≤ cube) :
    ∑ col ∈ Finset.range width, force col * softThreshold (force col) cube =
      softNorm ((List.range width).map force) cube ^ 2 +
        cube * ∑ col ∈ Finset.range width, |softThreshold (force col) cube| := by
  rw [softNorm_range, Real.sq_sqrt (Finset.sum_nonneg fun col _ => sq_nonneg _), Finset.mul_sum,
    ← Finset.sum_add_distrib]
  exact Finset.sum_congr rfl fun col _ => mul_softThreshold (force col) cube_nonneg

/-- A vector is in the sum of a cube and a ball exactly when no direction gains more from it than the
two norms of the direction cost. -/
theorem softNorm_le_iff (cube_nonneg : 0 ≤ cube) (ball_nonneg : 0 ≤ ball) :
    softNorm ((List.range width).map force) cube ≤ ball ↔
      ∀ direction : Nat → ℝ, 0 ≤ ∑ col ∈ Finset.range width, force col * direction col +
        (cube * ∑ col ∈ Finset.range width, |direction col| +
          ball * √(∑ col ∈ Finset.range width, direction col * direction col)) := by
  let rest := fun col => softThreshold (force col) cube
  have length : softNorm ((List.range width).map force) cube =
      √(∑ col ∈ Finset.range width, rest col ^ 2) := softNorm_range force width cube
  constructor
  · intro inside direction
    have backwards := gain_le_cost (fun col => abs_clamp_le (force col) cube_nonneg)
      (length ▸ inside) fun col => -direction col
    simp only [rest, clamp_add_softThreshold _ cube_nonneg, mul_neg, neg_mul, neg_neg,
      Finset.sum_neg_distrib, abs_neg] at backwards
    linarith
  -- The direction against what thresholding leaves gains most.
  · intro costs
    have against := costs fun col => -rest col
    have gain : ∑ col ∈ Finset.range width, force col * rest col = _ :=
      gain_rest force width cube_nonneg
    have size : √(∑ col ∈ Finset.range width, -rest col * -rest col) =
        softNorm ((List.range width).map force) cube := by
      rw [length]
      congr 1
      exact Finset.sum_congr rfl fun col _ => by ring
    beta_reduce at against
    rw [size] at against
    simp only [mul_neg, Finset.sum_neg_distrib, abs_neg, gain] at against
    have bounded : softNorm ((List.range width).map force) cube ^ 2 ≤
        ball * softNorm ((List.range width).map force) cube := by linarith
    rcases (softNorm_nonneg ((List.range width).map force) cube).eq_or_lt with zero | positive
    · rw [← zero]
      exact ball_nonneg
    · rw [sq] at bounded
      exact le_of_mul_le_mul_right bounded positive

end

end Gauge

/-! The whole penalty. -/

namespace Mat

def single {α : Type} [Scalar α] (rows cols index : Nat) (entry : Nat → α) : Mat α :=
  ofFn rows cols fun row col => if row = index then entry col else 0

section
variable {shape : Shape} {index : Nat}

theorem get_single {entry : Nat → ℝ} {row col : Nat} (rowBound : row < shape.rows)
    (colBound : col < shape.cols) :
    (single shape.rows shape.cols index entry).get row col = if row = index then entry col else 0 :=
  get_ofFn _ rowBound colBound

theorem sum_row_single (entry : Nat → ℝ) (term : Nat → ℝ → ℝ) (vanishes : ∀ col, term col 0 = 0)
    {row : Nat} (rowBound : row < shape.rows) :
    ∑ col ∈ Finset.range shape.cols, term col ((single shape.rows shape.cols index entry).get row col) =
      if row = index then ∑ col ∈ Finset.range shape.cols, term col (entry col) else 0 := by
  have read : ∀ col ∈ Finset.range shape.cols, (single shape.rows shape.cols index entry).get row col = _ :=
    fun col member => get_single rowBound (Finset.mem_range.1 member)
  split_ifs with here
  · exact Finset.sum_congr rfl fun col member => by rw [read col member, if_pos here]
  · exact Finset.sum_eq_zero fun col member => by rw [read col member, if_neg here, vanishes]

theorem inner_single {gradient : Mat ℝ} (gradientShape : gradient.shape = shape)
    (bound : index < shape.rows) (entry : Nat → ℝ) :
    gradient.inner (single shape.rows shape.cols index entry) =
      ∑ col ∈ Finset.range shape.cols, gradient.get index col * entry col := by
  have gains : ∀ row < shape.rows, ∑ col ∈ Finset.range shape.cols,
      gradient.get row col * (single shape.rows shape.cols index entry).get row col = _ :=
    fun row => sum_row_single entry (fun col value => gradient.get row col * value) fun _ => mul_zero _
  rw [inner_real, rows_eq gradientShape, cols_eq gradientShape,
    Finset.sum_eq_single_of_mem index (Finset.mem_range.2 bound)]
  · rw [gains index bound, if_pos rfl]
  · intro row member other
    rw [gains row (Finset.mem_range.1 member), if_neg other]

end

end Mat

namespace Penalty

variable {penalty : Penalty ℝ} {gradient : Mat ℝ} {group : Nat}

theorem isUnpenalized_eq_false :
    penalty.isUnpenalized group = false ↔ ¬ (penalty.l1At group = 0 ∧ penalty.l2At group = 0) := by
  simp [isUnpenalized]

theorem value_real (penalty : Penalty ℝ) (coef : Mat ℝ) : penalty.value coef =
    ∑ group ∈ Finset.range penalty.groups,
      (penalty.lagrange * penalty.l1At group *
          ∑ col ∈ Finset.range penalty.shape.cols, |coef.get group col| +
        penalty.lagrange * penalty.l2At group *
          √(∑ col ∈ Finset.range penalty.shape.cols, coef.get group col * coef.get group col)) := by
  simp only [value, sumTo_real, abs_real, sqrt_real, Finset.mul_sum, mul_add, mul_assoc]
  rfl

theorem value_single (penalty : Penalty ℝ) (bound : group < penalty.groups) (entry : Nat → ℝ) :
    penalty.value (Mat.single penalty.shape.rows penalty.shape.cols group entry) =
      penalty.lagrange * penalty.l1At group * ∑ col ∈ Finset.range penalty.shape.cols, |entry col| +
        penalty.lagrange * penalty.l2At group *
          √(∑ col ∈ Finset.range penalty.shape.cols, entry col * entry col) := by
  let direction := Mat.single penalty.shape.rows penalty.shape.cols group entry
  have sizes : ∀ row < penalty.groups,
      ∑ col ∈ Finset.range penalty.shape.cols, |direction.get row col| = _ :=
    fun _ => Mat.sum_row_single entry (fun _ value => |value|) fun _ => abs_zero
  have squares : ∀ row < penalty.groups,
      ∑ col ∈ Finset.range penalty.shape.cols, direction.get row col * direction.get row col = _ :=
    fun _ => Mat.sum_row_single entry (fun _ value => value * value) fun _ => mul_zero 0
  rw [value_real, Finset.sum_eq_single_of_mem group (Finset.mem_range.2 bound)]
  · rw [sizes group bound, squares group bound, if_pos rfl, if_pos rfl]
  · intro row member other
    rw [sizes row (Finset.mem_range.1 member), squares row (Finset.mem_range.1 member), if_neg other,
      if_neg other, Real.sqrt_zero, mul_zero, mul_zero, add_zero]

/-- The gradient is in the dual ball in every group: a zero row could stay at zero. -/
def InDualBall {α : Type} [Scalar α] (penalty : Penalty α) (gradient : Mat α) (group : Nat) : Prop :=
  Gauge.softNorm (gradient.row group) (penalty.lagrange * penalty.l1At group) ≤
    penalty.lagrange * penalty.l2At group

theorem inDualBall_unpenalized (unpenalized : penalty.isUnpenalized group = true)
    (zero : ∀ col, gradient.get group col = 0) : penalty.InDualBall gradient group := by
  obtain ⟨l1, l2⟩ : penalty.l1At group = 0 ∧ penalty.l2At group = 0 := by
    simpa [isUnpenalized] using unpenalized
  refine le_of_eq_of_le (Gauge.softNorm_eq_zero.2 ?_) (by rw [l2, mul_zero])
  simp [Mat.row, zero, l1]

theorem inDualBall_iff (valid : penalty.Valid) (gradientShape : gradient.shape = penalty.shape) :
    (∀ group < penalty.groups, penalty.InDualBall gradient group) ↔
      ∀ direction : Mat ℝ, direction.shape = penalty.shape →
        0 ≤ gradient.inner direction + penalty.value direction := by
  have rows : gradient.rows = penalty.groups := Mat.rows_eq gradientShape
  have cols : gradient.cols = penalty.shape.cols := Mat.cols_eq gradientShape
  have cube_nonneg : ∀ group, 0 ≤ penalty.lagrange * penalty.l1At group :=
    fun group => mul_nonneg valid.lagrange_nonneg (valid.l1_nonneg group)
  have ball_nonneg : ∀ group, 0 ≤ penalty.lagrange * penalty.l2At group :=
    fun group => mul_nonneg valid.lagrange_nonneg (valid.l2_nonneg group)
  constructor
  · intro inBall direction _
    rw [Mat.inner_real, value_real, rows, cols, ← Finset.sum_add_distrib]
    apply Finset.sum_nonneg
    intro group member
    have inside := inBall group (Finset.mem_range.1 member)
    rw [InDualBall, Mat.row, cols,
      Gauge.softNorm_le_iff (cube_nonneg group) (ball_nonneg group)] at inside
    exact inside (direction.get group)
  · intro costs group bound
    rw [InDualBall, Mat.row, cols, Gauge.softNorm_le_iff (cube_nonneg group) (ball_nonneg group)]
    intro entries
    have cost := costs (Mat.single penalty.shape.rows penalty.shape.cols group entries) rfl
    rwa [Mat.inner_single gradientShape bound, value_single penalty bound] at cost

theorem foldl_larger_le {measure : Nat → ℝ} {groups : List Nat} {start bound : ℝ} :
    groups.foldl (fun largest group => larger largest (measure group)) start ≤ bound ↔
      start ≤ bound ∧ ∀ group ∈ groups, measure group ≤ bound := by
  induction groups generalizing start with
  | nil => simp
  | cons group rest ih =>
      rw [List.foldl_cons, ih, larger_real, max_le_iff, List.forall_mem_cons, and_assoc]

theorem dualNorm_le_iff {bound : ℝ} : penalty.dualNorm gradient ≤ bound ↔
    0 ≤ bound ∧ ∀ group < penalty.groups, penalty.isUnpenalized group = false →
      penalty.gauge gradient group ≤ bound := by
  rw [dualNorm, foldl_larger_le]
  simp only [List.mem_filter, List.mem_range, Bool.not_eq_true', and_imp]

theorem gauge_isGauge (valid : penalty.Valid) (gradient : Mat ℝ)
    (penalized : penalty.isUnpenalized group = false) :
    Gauge.gauge (gradient.row group) (penalty.l1At group) (penalty.l2At group) =
        .finite (penalty.gauge gradient group) ∧
      Gauge.IsGauge (gradient.row group) (penalty.l1At group) (penalty.l2At group)
        (penalty.gauge gradient group) := by
  obtain ⟨radius, found, isGauge⟩ := Gauge.gauge_isGauge (gradient.row group)
    (valid.l1_nonneg group) (valid.l2_nonneg group) (isUnpenalized_eq_false.1 penalized)
  have equal : penalty.gauge gradient group = radius := congrArg Radius.toScalar found
  rw [equal]
  exact ⟨found, isGauge⟩

end Penalty

namespace Path

variable {path : Path ℝ} {lagrange : ℝ}

theorem gauge_le_lagrangeMax (alpha_pos : 0 < path.options.alpha) {group : Nat}
    (bound : group < path.groups) (penalized : path.penalty.isUnpenalized group = false) :
    path.penalty.gauge path.gradient group ≤ path.options.alpha * path.lagrangeMax := by
  have largest : path.penalty.dualNorm path.gradient ≤ path.options.alpha * path.lagrangeMax :=
    (div_le_iff₀' alpha_pos).1 le_rfl
  exact (Penalty.dualNorm_le_iff.1 largest).2 group bound penalized

theorem lagrangeMax_le_iff (valid : path.penalty.Valid) (alpha_pos : 0 < path.options.alpha)
    (nonneg : 0 ≤ lagrange) : path.lagrangeMax ≤ lagrange ↔
      ∀ group < path.groups, path.penalty.isUnpenalized group = false →
        (path.penalty.withLagrange (path.options.alpha * lagrange)).InDualBall path.gradient group := by
  have scaled : 0 ≤ path.options.alpha * lagrange := mul_nonneg alpha_pos.le nonneg
  rw [lagrangeMax, div_le_iff₀' alpha_pos, Penalty.dualNorm_le_iff, and_iff_right scaled]
  refine forall₃_congr fun group _ penalized => ?_
  exact (Penalty.gauge_isGauge valid path.gradient penalized).2.le_iff (valid.l1_nonneg group)
    (valid.l2_nonneg group) scaled

end Path

end GroupLasso
