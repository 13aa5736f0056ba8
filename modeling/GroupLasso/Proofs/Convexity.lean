import GroupLasso.Proofs.Design
import GroupLasso.Proofs.Failure
import GroupLasso.Proofs.Restriction

/-!
Convex losses. The Gaussian, the multinomial and the Poisson loss lie above their tangents; so does what
a design and a ridge term make of them. Gradients are continuous along lines, so that what holds at all
points near one point of a line holds there.
-/

namespace GroupLasso

open Scalar

/-- A function that lies above its tangents, with a gradient that is continuous along lines. -/
structure Smooth.Convex (smooth : Smooth ℝ) : Prop where
  shape : ∀ point, (smooth.gradient point).shape = smooth.shape
  above : ∀ {point other : Mat ℝ}, point.shape = smooth.shape → other.shape = smooth.shape →
    smooth.value point + (smooth.gradient point).inner (other.addScaled (-1) point) ≤
      smooth.value other
  continuous : ∀ {point direction : Mat ℝ}, point.shape = smooth.shape →
    direction.shape = smooth.shape → ∀ row col,
      Continuous fun time => (smooth.gradient (point.addScaled time direction)).get row col

namespace Mat

theorem inner_difference {gradient point other : Mat ℝ} (shape : other.shape = point.shape) :
    gradient.inner (other.addScaled (-1) point) =
      ∑ row ∈ Finset.range gradient.rows, ∑ col ∈ Finset.range gradient.cols,
        gradient.get row col * (other.get row col - point.get row col) := by
  rw [inner_real]
  refine Finset.sum_congr rfl fun row _ => Finset.sum_congr rfl fun col _ => ?_
  rw [get_addScaled shape]
  ring

theorem continuous_get {matrix : ℝ → Mat ℝ} (shape : Shape)
    (shapes : ∀ time, (matrix time).shape = shape)
    (inside : ∀ row < shape.rows, ∀ col < shape.cols,
      Continuous fun time => (matrix time).get row col) (row col : Nat) :
    Continuous fun time => (matrix time).get row col := by
  by_cases within : row < shape.rows ∧ col < shape.cols
  · exact inside row within.1 col within.2
  · have outside : ∀ time, (matrix time).get row col = 0 := by
      intro time
      have rows : (matrix time).rows = shape.rows := rows_eq (shapes time)
      have cols : (matrix time).cols = shape.cols := cols_eq (shapes time)
      exact get_eq_zero (by omega)
    simp only [outside]
    exact continuous_const

theorem continuous_line {point direction : Mat ℝ} (shape : point.shape = direction.shape)
    (row col : Nat) : Continuous fun time => (point.addScaled time direction).get row col := by
  simp only [get_addScaled shape]
  fun_prop

end Mat

theorem CaseWeights.nonneg_of_validate {weights : Array ℝ} {cases : Nat} {done : Unit}
    (accepted : validate weights cases = .ok done) (row : Nat) : 0 ≤ weights.getD row 0 := by
  obtain ⟨_, _, checked⟩ := Failure.bind_eq_ok.1 accepted
  have nonneg : ∀ index (bound : index < weights.size), 0 ≤ weights[index] := by
    simpa using Failure.unless_eq_ok.1 checked
  refine Penalty.getD_nonneg_iff.2 (fun weight member => ?_) row
  obtain ⟨index, bound, rfl⟩ := Array.mem_iff_getElem.1 member
  exact nonneg index bound

theorem Multinomial.nonneg_of_badCount {counts : Mat ℝ} (accepted : badCount? counts = none)
    (row col : Nat) : 0 ≤ counts.get row col := by
  by_cases inside : row < counts.rows ∧ col < counts.cols
  · simp only [badCount?, List.findSome?_eq_none_iff, List.mem_range] at accepted
    simpa using accepted col inside.2 row inside.1
  · exact (Mat.get_eq_zero (by omega)).ge

def Loss.smooth {α : Type} [Scalar α] (loss : Loss α) : Smooth α :=
  ⟨loss.shape, loss.value, loss.gradient⟩

section
variable {point other direction : Mat ℝ}

theorem Gaussian.value_real (loss : Gaussian ℝ) (eta : Mat ℝ) : loss.value eta =
    ∑ row ∈ Finset.range loss.response.rows, ∑ col ∈ Finset.range loss.response.cols,
      1 / 2 * (loss.weights.getD row 0 * (eta.get row col - loss.response.get row col) ^ 2) := by
  have half : (0.5 : ℝ) = 1 / 2 := by norm_num
  simp only [value, sumTo_real, half, Finset.mul_sum]
  rw [Finset.sum_comm]
  exact Finset.sum_congr rfl fun row _ => Finset.sum_congr rfl fun col _ => by ring

theorem Gaussian.convex {loss : Gaussian ℝ} (nonneg : ∀ row, 0 ≤ loss.weights.getD row 0) :
    (Loss.gaussian loss).smooth.Convex := by
  refine ⟨fun _ => rfl, fun {point other} shape otherShape => ?_, fun {point direction} shape along =>
    Mat.continuous_get loss.response.shape (fun _ => rfl) fun row rowBound col colBound => ?_⟩
  · change loss.value point + (loss.gradient point).inner _ ≤ loss.value other
    have rows : (loss.gradient point).rows = loss.response.rows := rfl
    have cols : (loss.gradient point).cols = loss.response.cols := rfl
    rw [value_real, value_real, Mat.inner_difference (otherShape.trans shape.symm), rows, cols,
      ← Finset.sum_add_distrib]
    refine Finset.sum_le_sum fun row rowMember => ?_
    rw [← Finset.sum_add_distrib]
    refine Finset.sum_le_sum fun col member => ?_
    have entry : (loss.gradient point).get row col =
        loss.weights.getD row 0 * (point.get row col - loss.response.get row col) :=
      Mat.get_ofFn _ (Finset.mem_range.1 rowMember) (Finset.mem_range.1 member)
    have square := mul_nonneg (nonneg row) (sq_nonneg (other.get row col - point.get row col))
    rw [entry]
    linarith
  · have entry : ∀ time, ((Loss.gaussian loss).smooth.gradient (point.addScaled time direction)).get
        row col = loss.weights.getD row 0 *
          ((point.addScaled time direction).get row col - loss.response.get row col) :=
      fun time => Mat.get_ofFn _ rowBound colBound
    have line := Mat.continuous_line (shape.trans along.symm) row col
    simp only [entry]
    fun_prop

theorem Poisson.shifted_sub (loss : Poisson ℝ) (other point : Mat ℝ) (row : Nat) :
    loss.shifted other row - loss.shifted point row = other.get row 0 - point.get row 0 := by
  unfold shifted
  cases loss.offset with
  | none => rfl
  | some offset => exact add_sub_add_right_eq_sub _ _ _

theorem exp_tangent (point other : ℝ) :
    Real.exp point + Real.exp point * (other - point) ≤ Real.exp other := by
  have above := mul_le_mul_of_nonneg_left (Real.add_one_le_exp (other - point))
    (Real.exp_pos point).le
  rw [← Real.exp_add, add_sub_cancel] at above
  linarith

theorem Poisson.convex {loss : Poisson ℝ} (nonneg : ∀ row, 0 ≤ loss.weights.getD row 0) :
    (Loss.poisson loss).smooth.Convex := by
  refine ⟨fun _ => rfl, fun {point other} shape otherShape => ?_, fun {point direction} shape along =>
    Mat.continuous_get ⟨loss.counts.size, 1⟩ (fun _ => rfl) fun row rowBound col colBound => ?_⟩
  · change loss.value point + (loss.gradient point).inner _ ≤ loss.value other
    rw [value, value, sumTo_real, sumTo_real]
    have rows : (loss.gradient point).rows = loss.counts.size := rfl
    have cols : (loss.gradient point).cols = 1 := rfl
    rw [Mat.inner_difference (otherShape.trans shape.symm), rows, cols, ← Finset.sum_add_distrib]
    refine Finset.sum_le_sum fun row member => ?_
    have entry : (loss.gradient point).get row 0 = loss.weights.getD row 0 *
        (Real.exp (loss.shifted point row) - loss.counts.getD row 0) :=
      Mat.get_ofFn _ (Finset.mem_range.1 member) one_pos
    rw [Finset.sum_range_one, entry, ← loss.shifted_sub]
    have above := mul_le_mul_of_nonneg_left
      (exp_tangent (loss.shifted point row) (loss.shifted other row)) (nonneg row)
    change loss.weights.getD row 0 * (Real.exp (loss.shifted point row) - _) + _ ≤
      loss.weights.getD row 0 * (Real.exp (loss.shifted other row) - _)
    linarith
  · have entry : ∀ time, ((Loss.poisson loss).smooth.gradient (point.addScaled time direction)).get
        row col = loss.weights.getD row 0 *
          (Real.exp (loss.shifted (point.addScaled time direction) row) - loss.counts.getD row 0) :=
      fun time => Mat.get_ofFn _ rowBound colBound
    have line := Mat.continuous_line (shape.trans along.symm) row 0
    have shifted : Continuous fun time => loss.shifted (point.addScaled time direction) row := by
      unfold Poisson.shifted
      cases loss.offset with
      | none => exact line
      | some offset => exact line.add continuous_const
    simp only [entry]
    fun_prop

namespace Multinomial

noncomputable def logSumExp (width : Nat) (eta : Nat → ℝ) : ℝ :=
  Real.log (∑ col ∈ Finset.range width, Real.exp (eta col))

noncomputable def softmax (width : Nat) (eta : Nat → ℝ) (col : Nat) : ℝ :=
  Real.exp (eta col) / ∑ other ∈ Finset.range width, Real.exp (eta other)

theorem sum_exp_pos {width : Nat} (some : 0 < width) (eta : Nat → ℝ) :
    0 < ∑ col ∈ Finset.range width, Real.exp (eta col) :=
  Finset.sum_pos (fun _ _ => Real.exp_pos _) ⟨0, Finset.mem_range.2 some⟩

theorem logSumExp_tangent {width : Nat} (some : 0 < width) (point other : Nat → ℝ) :
    logSumExp width point +
        ∑ col ∈ Finset.range width, softmax width point col * (other col - point col) ≤
      logSumExp width other := by
  let total := ∑ col ∈ Finset.range width, Real.exp (point col)
  have total_pos : 0 < total := sum_exp_pos some point
  let mean := ∑ col ∈ Finset.range width, softmax width point col * (other col - point col)
  have moved : ∑ col ∈ Finset.range width, Real.exp (point col) * (other col - point col) =
      total * mean := by
    rw [Finset.mul_sum]
    refine Finset.sum_congr rfl fun col _ => ?_
    change _ = total * (Real.exp (point col) / total * (other col - point col))
    field_simp
  -- Each exponential lies above its tangent at the point shifted by the mean, and the slopes cancel.
  have tangents : Real.exp mean * total ≤ ∑ col ∈ Finset.range width, Real.exp (other col) := by
    calc Real.exp mean * total
        = Real.exp mean * (total + total * mean - mean * total) := by ring
      _ = ∑ col ∈ Finset.range width, (Real.exp (point col + mean) +
            Real.exp (point col + mean) * (other col - (point col + mean))) := by
          rw [← moved, Finset.mul_sum, ← Finset.sum_add_distrib, ← Finset.sum_sub_distrib,
            Finset.mul_sum]
          refine Finset.sum_congr rfl fun col _ => ?_
          rw [Real.exp_add]
          ring
      _ ≤ ∑ col ∈ Finset.range width, Real.exp (other col) :=
          Finset.sum_le_sum fun col _ => exp_tangent _ _
  rw [logSumExp, logSumExp, Real.le_log_iff_exp_le (sum_exp_pos some other), Real.exp_add,
    Real.exp_log total_pos, mul_comm]
  exact tangents

theorem expSum_real (eta : Mat ℝ) (row : Nat) : (rowScale eta row).expSum =
    Real.exp (-(rowScale eta row).max) *
      ∑ col ∈ Finset.range eta.cols, Real.exp (eta.get row col) := by
  simp only [rowScale, sumTo_real, Finset.mul_sum, ← Real.exp_add]
  refine Finset.sum_congr rfl fun col _ => ?_
  rw [neg_add_eq_sub]
  rfl

theorem rowScale_log {eta : Mat ℝ} (some : 0 < eta.cols) (row : Nat) :
    (rowScale eta row).max + Scalar.log (rowScale eta row).expSum =
      logSumExp eta.cols (eta.get row) := by
  change (rowScale eta row).max + Real.log (rowScale eta row).expSum = _
  rw [expSum_real, Real.log_mul (Real.exp_ne_zero _) (sum_exp_pos some _).ne', Real.log_exp,
    logSumExp]
  ring

theorem get_probabilities {eta : Mat ℝ} {row col : Nat} (rowBound : row < eta.rows)
    (colBound : col < eta.cols) :
    (probabilities eta).get row col = softmax eta.cols (eta.get row) col := by
  have entry : (probabilities eta).get row col =
      Real.exp (eta.get row col - (rowScale eta row).max) / (rowScale eta row).expSum := by
    refine (Mat.get_ofFn _ rowBound colBound).trans ?_
    simp [rowBound, exp]
  rw [entry, expSum_real, sub_eq_neg_add, Real.exp_add,
    mul_div_mul_left _ _ (Real.exp_ne_zero _), softmax]

section
variable {loss : Multinomial ℝ}

theorem value_real {eta : Mat ℝ} (cols : eta.cols = loss.counts.cols) : loss.value eta =
    ∑ row ∈ Finset.range loss.counts.rows, loss.weights.getD row 0 *
      (loss.total row * logSumExp eta.cols (eta.get row) -
        ∑ col ∈ Finset.range eta.cols, loss.counts.get row col * eta.get row col) := by
  rw [value, sumTo_real]
  refine Finset.sum_congr rfl fun row _ => ?_
  have entire : loss.caseLoss eta row = loss.weights.getD row 0 *
      (loss.total row * logSumExp eta.cols (eta.get row) -
        ∑ col ∈ Finset.range eta.cols, loss.counts.get row col * eta.get row col) := by
    simp only [caseLoss, sumTo_real, ← cols]
    rcases Nat.eq_zero_or_pos eta.cols with none | some
    · have nothing : loss.total row = 0 := by simp [total, ← cols, none]
      rw [nothing, zero_mul, zero_mul]
    · rw [rowScale_log some]
  rw [entire]
  split_ifs with ignored
  · rw [(isZero_real _).1 ignored, zero_mul]
  · rfl

theorem get_gradient {eta : Mat ℝ} (shape : eta.shape = loss.counts.shape) {row col : Nat}
    (rowBound : row < loss.counts.rows) (colBound : col < loss.counts.cols) :
    (loss.gradient eta).get row col = loss.weights.getD row 0 *
      (loss.total row * softmax eta.cols (eta.get row) col - loss.counts.get row col) := by
  have rows : eta.rows = loss.counts.rows := Mat.rows_eq shape
  have cols : eta.cols = loss.counts.cols := Mat.cols_eq shape
  refine (Mat.get_ofFn _ rowBound colBound).trans ?_
  rw [get_probabilities (rows ▸ rowBound) (cols ▸ colBound)]
  simp [rowBound]

theorem convex (counts : ∀ row col, 0 ≤ loss.counts.get row col)
    (nonneg : ∀ row, 0 ≤ loss.weights.getD row 0) : (Loss.multinomial loss).smooth.Convex := by
  refine ⟨fun _ => rfl, fun {point other} shape otherShape => ?_, fun {point direction} shape along =>
    Mat.continuous_get loss.counts.shape (fun _ => rfl) fun row rowBound col colBound => ?_⟩
  · change loss.value point + (loss.gradient point).inner _ ≤ loss.value other
    have pointCols : point.cols = loss.counts.cols := Mat.cols_eq shape
    have otherCols : other.cols = loss.counts.cols := Mat.cols_eq otherShape
    have rows : (loss.gradient point).rows = loss.counts.rows := rfl
    have cols : (loss.gradient point).cols = loss.counts.cols := rfl
    rw [value_real pointCols, value_real otherCols,
      Mat.inner_difference (otherShape.trans shape.symm), rows, cols, ← Finset.sum_add_distrib,
      pointCols, otherCols]
    refine Finset.sum_le_sum fun row member => ?_
    have slope : ∑ col ∈ Finset.range loss.counts.cols,
        (loss.gradient point).get row col * (other.get row col - point.get row col) =
          loss.weights.getD row 0 * (loss.total row * (∑ col ∈ Finset.range loss.counts.cols,
              softmax loss.counts.cols (point.get row) col * (other.get row col - point.get row col)) -
            (∑ col ∈ Finset.range loss.counts.cols, loss.counts.get row col * other.get row col -
              ∑ col ∈ Finset.range loss.counts.cols, loss.counts.get row col * point.get row col)) := by
      rw [← Finset.sum_sub_distrib, Finset.mul_sum, ← Finset.sum_sub_distrib, Finset.mul_sum]
      refine Finset.sum_congr rfl fun col colMember => ?_
      rw [get_gradient shape (Finset.mem_range.1 member) (Finset.mem_range.1 colMember), pointCols]
      ring
    have total_nonneg : 0 ≤ loss.total row := by
      rw [total, sumTo_real]
      exact Finset.sum_nonneg fun col _ => counts row col
    rw [slope]
    rcases Nat.eq_zero_or_pos loss.counts.cols with none | some
    · have nothing : loss.total row = 0 := by simp [total, none]
      simp [nothing, none]
    · have above := mul_le_mul_of_nonneg_left
        (mul_le_mul_of_nonneg_left (logSumExp_tangent some (point.get row) (other.get row))
          total_nonneg) (nonneg row)
      linarith
  · have lineShape : ∀ time, (point.addScaled time direction).shape = loss.counts.shape :=
      fun _ => shape
    have entry : ∀ time, ((Loss.multinomial loss).smooth.gradient
        (point.addScaled time direction)).get row col = loss.weights.getD row 0 *
          (loss.total row * softmax point.cols ((point.addScaled time direction).get row) col -
            loss.counts.get row col) :=
      fun time => get_gradient (lineShape time) rowBound colBound
    have line := Mat.continuous_line (shape.trans along.symm) row
    have some : 0 < point.cols := (Nat.zero_le col).trans_lt (colBound.trans_eq (Mat.cols_eq shape).symm)
    have softmax : Continuous fun time =>
        softmax point.cols ((point.addScaled time direction).get row) col := by
      unfold Multinomial.softmax
      refine (line col).rexp.div ?_ fun time => (sum_exp_pos some _).ne'
      exact continuous_finsetSum _ fun other _ => (line other).rexp
    simp only [entry]
    fun_prop

end

end Multinomial

/-- The families whose loss is convex, with counts and weights of the cases that are accepted. -/
def Loss.Natural (loss : Loss ℝ) : Prop :=
  match loss with
  | .gaussian loss => CaseWeights.validate loss.weights loss.response.rows = .ok ()
  | .multinomial loss => Multinomial.badCount? loss.counts = none ∧
      CaseWeights.validate loss.weights loss.counts.rows = .ok ()
  | .poisson loss => CaseWeights.validate loss.weights loss.counts.size = .ok ()
  | .cloglog _ => False

theorem Loss.Natural.convex {loss : Loss ℝ} (natural : loss.Natural) : loss.smooth.Convex := by
  cases loss with
  | gaussian loss => exact Gaussian.convex (CaseWeights.nonneg_of_validate natural)
  | multinomial loss =>
      exact Multinomial.convex (Multinomial.nonneg_of_badCount natural.1)
        (CaseWeights.nonneg_of_validate natural.2)
  | poisson loss => exact Poisson.convex (CaseWeights.nonneg_of_validate natural)
  | cloglog loss => exact natural.elim

/-! Sums, ridge terms and designs. -/

namespace Mat

theorem get_add {left right : Mat ℝ} (shape : left.shape = right.shape) (row col : Nat) :
    (left.add right).get row col = left.get row col + right.get row col := by
  have scaled : left.add right = left.addScaled 1 right := by
    simp only [add, addScaled, one_mul]
  rw [scaled, get_addScaled shape, one_mul]

theorem inner_add {left right : Mat ℝ} (shape : left.shape = right.shape) (other : Mat ℝ) :
    (left.add right).inner other = left.inner other + right.inner other := by
  have rows : left.rows = right.rows := rows_eq shape
  have cols : left.cols = right.cols := cols_eq shape
  have sumRows : (left.add right).rows = left.rows := rfl
  have sumCols : (left.add right).cols = left.cols := rfl
  simp only [inner_real, sumRows, sumCols, ← rows, ← cols, get_add shape, add_mul,
    Finset.sum_add_distrib]

end Mat

theorem Smooth.Convex.add {first second : Smooth ℝ} (convex : first.Convex)
    (secondConvex : second.Convex) (same : first.shape = second.shape) :
    (⟨first.shape, fun coef => first.value coef + second.value coef,
      fun coef => (first.gradient coef).add (second.gradient coef)⟩ : Smooth ℝ).Convex := by
  have shapes : ∀ coef, (first.gradient coef).shape = (second.gradient coef).shape :=
    fun coef => (convex.shape coef).trans (same.trans (secondConvex.shape coef).symm)
  refine ⟨convex.shape, fun {point other} shape otherShape => ?_,
    fun {point direction} shape along row col => ?_⟩
  · have above := convex.above shape otherShape
    have secondAbove := secondConvex.above (shape.trans same) (otherShape.trans same)
    simp only [Mat.inner_add (shapes point)]
    linarith
  · simp only [Mat.get_add (shapes _)]
    exact (convex.continuous shape along row col).add
      (secondConvex.continuous (shape.trans same) (along.trans same) row col)

theorem Ridge.convex {ridge : Ridge ℝ} (nonneg : ∀ row col, 0 ≤ ridge.diag.get row col) :
    ridge.smooth.Convex := by
  refine ⟨fun _ => rfl, fun {point other} shape otherShape => ?_,
    fun {point direction} shape along row col => ?_⟩
  · change ridge.value point + (ridge.gradient point).inner _ ≤ ridge.value other
    have rows : (ridge.gradient point).rows = ridge.diag.rows := rfl
    have cols : (ridge.gradient point).cols = ridge.diag.cols := rfl
    rw [value_eq, value_eq, Mat.inner_difference (otherShape.trans shape.symm), rows, cols,
      Finset.mul_sum, Finset.mul_sum, ← Finset.sum_add_distrib]
    refine Finset.sum_le_sum fun row _ => ?_
    rw [Finset.mul_sum, Finset.mul_sum, ← Finset.sum_add_distrib]
    refine Finset.sum_le_sum fun col _ => ?_
    have square := mul_nonneg (nonneg row col) (sq_nonneg (other.get row col - point.get row col))
    rw [get_gradient]
    linarith
  · have line := Mat.continuous_line (shape.trans along.symm) row col
    have entry : ∀ coef, (ridge.smooth.gradient coef).get row col =
        ridge.diag.get row col * coef.get row col := fun coef => ridge.get_gradient row col
    simp only [entry]
    fun_prop

theorem Composed.convex_loss {loss : Loss ℝ} {design : Design ℝ} (convex : loss.smooth.Convex)
    (outputs : loss.shape = design.outputShape) :
    (⟨loss, design, none⟩ : Composed ℝ).smooth.Convex := by
  have gradientShape : ∀ eta, (loss.gradient eta).shape = design.outputShape :=
    fun eta => (convex.shape eta).trans outputs
  have predictorShape : ∀ {coef : Mat ℝ}, coef.shape = design.inputShape →
      (design.dot coef).shape = loss.shape :=
    fun shape => (Design.shape_dot shape).trans outputs.symm
  refine ⟨fun coef => Design.shape_adjoint design (gradientShape _), fun {point other} shape
    otherShape => ?_, fun {point direction} shape along => Mat.continuous_get design.inputShape
      (fun _ => Design.shape_adjoint design (gradientShape _)) fun group bound col _ => ?_⟩
  · change loss.value (design.dot point) +
      (design.adjoint (loss.gradient (design.dot point))).inner (other.addScaled (-1) point) ≤
        loss.value (design.dot other)
    have inputs : other.shape = design.inputShape := otherShape
    have difference : (other.addScaled (-1) point).shape = design.inputShape := otherShape
    rw [Design.inner_adjoint difference (gradientShape _), Design.dot_addScaled inputs shape]
    exact convex.above (predictorShape shape) (predictorShape otherShape)
  · have entry : ∀ time, ((⟨loss, design, none⟩ : Composed ℝ).smooth.gradient
        (point.addScaled time direction)).get group col =
          ∑ row ∈ Finset.range design.outputShape.rows, (design.matrix col).get row group *
            (loss.gradient ((design.dot point).addScaled time (design.dot direction))).get row col := by
      intro time
      have inputs : point.shape = design.inputShape := shape
      rw [← Design.dot_addScaled inputs along]
      exact Design.get_adjoint (gradientShape _) bound col
    have line := convex.continuous (predictorShape shape) (predictorShape along)
    simp only [entry]
    exact continuous_finsetSum _ fun row _ => continuous_const.mul (line row col)

theorem Composed.convex {function : Composed ℝ} (convex : function.loss.smooth.Convex)
    (outputs : function.loss.shape = function.design.outputShape)
    (ridged : ∀ ridge ∈ function.ridge, ridge.diag.shape = function.design.inputShape ∧
      ∀ row col, 0 ≤ ridge.diag.get row col) : function.smooth.Convex := by
  obtain ⟨loss, design, term⟩ := function
  have plain := convex_loss convex outputs
  cases term with
  | none => exact plain
  | some ridge =>
      obtain ⟨shape, nonneg⟩ := ridged ridge rfl
      exact plain.add (Ridge.convex nonneg) shape.symm

end

end GroupLasso
