import GroupLasso.Design
import GroupLasso.Proofs.Matrix

/-!
Designs as linear maps. The entries of a linear predictor and of the adjoint are sums over the groups
and over the cases, for a shared matrix and for blocks alike, also for blocks of different extents,
whose entries outside count as zero.
-/

namespace GroupLasso.Design

open Scalar

variable {design : Design ℝ} {coef other output : Mat ℝ}

theorem shape_dot (shape : coef.shape = design.inputShape) :
    (design.dot coef).shape = design.outputShape := by
  cases design with
  | dense matrix responses => exact congrArg (Shape.mk matrix.rows) (Mat.cols_eq shape)
  | block first rest => rfl

theorem get_dot (shape : coef.shape = design.inputShape) {row : Nat}
    (rowBound : row < design.outputShape.rows) (col : Nat) : (design.dot coef).get row col =
      ∑ group ∈ Finset.range design.inputShape.rows,
        (design.matrix col).get row group * coef.get group col := by
  by_cases colBound : col < design.responses
  · cases design with
    | dense matrix responses =>
        have cols : coef.cols = responses := Mat.cols_eq shape
        have entry : (matrix.mul coef).get row col = sumTo matrix.cols fun group =>
            matrix.get row group * coef.get group col := Mat.get_ofFn _ rowBound (cols ▸ colBound)
        rw [Design.dot, entry, sumTo_real]
        rfl
    | block first rest =>
        have entry : ((block first rest).dot coef).get row col =
            sumTo (blockAt first rest col).cols fun group =>
              (blockAt first rest col).get row group * coef.get group col :=
          Mat.get_ofFn _ rowBound colBound
        have rows : coef.rows = first.cols := Mat.rows_eq shape
        rw [entry, sumTo_real]
        apply Mat.sum_extent
        rintro group (outside | outside)
        · rw [Mat.get_eq_zero (.inr outside), zero_mul]
        · have beyond : coef.rows ≤ group := rows ▸ outside
          rw [Mat.get_eq_zero (.inl beyond), mul_zero]
  · have cols : coef.cols = design.responses := Mat.cols_eq shape
    have predictorCols : (design.dot coef).cols = design.responses := Mat.cols_eq (shape_dot shape)
    have outside := not_lt.1 colBound
    rw [Mat.get_eq_zero (.inr (predictorCols.trans_le outside))]
    symm
    apply Finset.sum_eq_zero
    intro group _
    rw [Mat.get_eq_zero (.inr (cols.trans_le outside)), mul_zero]

theorem shape_adjoint (design : Design ℝ) {output : Mat ℝ} (shape : output.shape = design.outputShape) :
    (design.adjoint output).shape = design.inputShape := by
  cases design with
  | dense matrix responses => exact congrArg (Shape.mk matrix.cols) (Mat.cols_eq shape)
  | block first rest => rfl

theorem get_adjoint (shape : output.shape = design.outputShape) {group : Nat}
    (bound : group < design.inputShape.rows) (col : Nat) : (design.adjoint output).get group col =
      ∑ row ∈ Finset.range design.outputShape.rows,
        (design.matrix col).get row group * output.get row col := by
  by_cases colBound : col < design.responses
  · cases design with
    | dense matrix responses =>
        have cols : output.cols = responses := Mat.cols_eq shape
        have entry : (matrix.transposeMul output).get group col = sumTo matrix.rows fun row =>
            matrix.get row group * output.get row col := Mat.get_ofFn _ bound (cols ▸ colBound)
        rw [adjoint, entry, sumTo_real]
        rfl
    | block first rest =>
        have entry : ((block first rest).adjoint output).get group col =
            sumTo (blockAt first rest col).rows fun row =>
              (blockAt first rest col).get row group * output.get row col :=
          Mat.get_ofFn _ bound colBound
        have rows : output.rows = first.rows := Mat.rows_eq shape
        rw [entry, sumTo_real]
        apply Mat.sum_extent
        rintro row (outside | outside)
        · rw [Mat.get_eq_zero (.inl outside), zero_mul]
        · have beyond : output.rows ≤ row := rows ▸ outside
          rw [Mat.get_eq_zero (.inl beyond), mul_zero]
  · have cols : output.cols = design.responses := Mat.cols_eq shape
    have adjointCols : (design.adjoint output).cols = design.responses :=
      Mat.cols_eq (shape_adjoint design shape)
    have outside := not_lt.1 colBound
    rw [Mat.get_eq_zero (.inr (adjointCols.trans_le outside))]
    symm
    apply Finset.sum_eq_zero
    intro row _
    rw [Mat.get_eq_zero (.inr (cols.trans_le outside)), mul_zero]

theorem dot_addScaled (shape : coef.shape = design.inputShape)
    (otherShape : other.shape = design.inputShape) (scale : ℝ) :
    design.dot (coef.addScaled scale other) =
      (design.dot coef).addScaled scale (design.dot other) := by
  have sumShape : (coef.addScaled scale other).shape = design.inputShape := shape
  have predictors : (design.dot coef).shape = (design.dot other).shape :=
    (shape_dot shape).trans (shape_dot otherShape).symm
  have same : (design.dot (coef.addScaled scale other)).shape = (design.dot coef).shape :=
    (shape_dot sumShape).trans (shape_dot shape).symm
  refine Mat.ext_get (Mat.rows_eq same) (Mat.cols_eq same) ?_
  intro row bound col _
  have rowBound : row < design.outputShape.rows := bound.trans_eq (Mat.rows_eq (shape_dot sumShape))
  rw [Mat.get_addScaled predictors, get_dot sumShape rowBound, get_dot shape rowBound,
    get_dot otherShape rowBound, Finset.mul_sum, ← Finset.sum_add_distrib]
  apply Finset.sum_congr rfl
  intro group _
  rw [Mat.get_addScaled (shape.trans otherShape.symm)]
  ring

/-- The inner product of an adjoint with coefficients is that of the output with their predictor. -/
theorem inner_adjoint (shape : coef.shape = design.inputShape)
    (outputShape : output.shape = design.outputShape) :
    (design.adjoint output).inner coef = output.inner (design.dot coef) := by
  have rows : (design.adjoint output).rows = design.inputShape.rows :=
    Mat.rows_eq (shape_adjoint design outputShape)
  have cols : (design.adjoint output).cols = output.cols :=
    (Mat.cols_eq (shape_adjoint design outputShape)).trans (Mat.cols_eq outputShape).symm
  have outputRows : output.rows = design.outputShape.rows := Mat.rows_eq outputShape
  rw [Mat.inner_real, Mat.inner_real, rows, cols, outputRows]
  have term : ∀ group ∈ Finset.range design.inputShape.rows, ∀ col,
      (design.adjoint output).get group col * coef.get group col =
        ∑ row ∈ Finset.range design.outputShape.rows,
          output.get row col * ((design.matrix col).get row group * coef.get group col) := by
    intro group member col
    rw [get_adjoint outputShape (Finset.mem_range.1 member), Finset.sum_mul]
    exact Finset.sum_congr rfl fun row _ => by ring
  calc ∑ group ∈ Finset.range design.inputShape.rows, ∑ col ∈ Finset.range output.cols,
        (design.adjoint output).get group col * coef.get group col
      = ∑ group ∈ Finset.range design.inputShape.rows, ∑ row ∈ Finset.range design.outputShape.rows,
          ∑ col ∈ Finset.range output.cols,
            output.get row col * ((design.matrix col).get row group * coef.get group col) := by
        refine Finset.sum_congr rfl fun group member => ?_
        rw [Finset.sum_comm]
        exact Finset.sum_congr rfl fun col _ => term group member col
    _ = ∑ row ∈ Finset.range design.outputShape.rows, ∑ col ∈ Finset.range output.cols,
          output.get row col * (design.dot coef).get row col := by
        rw [Finset.sum_comm]
        refine Finset.sum_congr rfl fun row member => ?_
        rw [Finset.sum_comm]
        refine Finset.sum_congr rfl fun col _ => ?_
        rw [get_dot shape (Finset.mem_range.1 member), Finset.mul_sum]

end GroupLasso.Design
