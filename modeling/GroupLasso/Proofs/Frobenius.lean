import GroupLasso.Proofs.Reorder

/-!
Sums over the entries of matrices of one shape. Inner product, Frobenius norm and distance are such
sums, so that what holds entry by entry holds of them.
-/

namespace GroupLasso

open Scalar

namespace Shape

noncomputable def sum (shape : Shape) (term : Nat → Nat → ℝ) : ℝ :=
  ∑ row ∈ Finset.range shape.rows, ∑ col ∈ Finset.range shape.cols, term row col

variable {shape : Shape} {left right : Nat → Nat → ℝ}

theorem sum_congr (equal : ∀ row < shape.rows, ∀ col < shape.cols, left row col = right row col) :
    shape.sum left = shape.sum right :=
  Finset.sum_congr rfl fun row member => Finset.sum_congr rfl fun col colMember =>
    equal row (Finset.mem_range.1 member) col (Finset.mem_range.1 colMember)

theorem sum_add (left right : Nat → Nat → ℝ) :
    (shape.sum fun row col => left row col + right row col) = shape.sum left + shape.sum right := by
  simp only [sum, Finset.sum_add_distrib]

theorem sum_sub (left right : Nat → Nat → ℝ) :
    (shape.sum fun row col => left row col - right row col) = shape.sum left - shape.sum right := by
  simp only [sum, Finset.sum_sub_distrib]

theorem sum_mul_left (scale : ℝ) (term : Nat → Nat → ℝ) :
    (shape.sum fun row col => scale * term row col) = scale * shape.sum term := by
  simp only [sum, Finset.mul_sum]

theorem sum_sq_nonneg (term : Nat → Nat → ℝ) : 0 ≤ shape.sum fun row col => term row col ^ 2 :=
  Finset.sum_nonneg fun _ _ => Finset.sum_nonneg fun _ _ => sq_nonneg _

theorem sum_sq_eq_zero {term : Nat → Nat → ℝ} :
    (shape.sum fun row col => term row col ^ 2) = 0 ↔
      ∀ row < shape.rows, ∀ col < shape.cols, term row col = 0 := by
  have rowNonneg : ∀ row ∈ Finset.range shape.rows,
      0 ≤ ∑ col ∈ Finset.range shape.cols, term row col ^ 2 :=
    fun _ _ => Finset.sum_nonneg fun _ _ => sq_nonneg _
  rw [sum, Finset.sum_eq_zero_iff_of_nonneg rowNonneg]
  refine forall_congr' fun row => ?_
  rw [Finset.mem_range, Finset.sum_eq_zero_iff_of_nonneg fun _ _ => sq_nonneg _]
  simp

theorem sum_mul_le (left right : Nat → Nat → ℝ) :
    (shape.sum fun row col => left row col * right row col) ≤
      √(shape.sum fun row col => left row col ^ 2) * √(shape.sum fun row col => right row col ^ 2) := by
  simp only [sum, ← Finset.sum_product']
  exact Real.sum_mul_le_sqrt_mul_sqrt _ _ _

theorem sqrt_sum_scaled {scale : ℝ} (nonneg : 0 ≤ scale) (term : Nat → Nat → ℝ) :
    √(shape.sum fun row col => (scale * term row col) ^ 2) =
      scale * √(shape.sum fun row col => term row col ^ 2) := by
  simp only [mul_pow, sum_mul_left]
  rw [Real.sqrt_mul (sq_nonneg scale), Real.sqrt_sq nonneg]

theorem sqrt_sum_add_le (left right : Nat → Nat → ℝ) :
    √(shape.sum fun row col => (left row col + right row col) ^ 2) ≤
      √(shape.sum fun row col => left row col ^ 2) + √(shape.sum fun row col => right row col ^ 2) := by
  have expanded : (shape.sum fun row col => (left row col + right row col) ^ 2) =
      (shape.sum fun row col => left row col ^ 2) +
        2 * (shape.sum fun row col => left row col * right row col) +
          shape.sum fun row col => right row col ^ 2 := by
    rw [← sum_mul_left, ← sum_add, ← sum_add]
    exact sum_congr fun row _ col _ => by ring
  have schwarz : (shape.sum fun row col => left row col * right row col) ≤ _ :=
    sum_mul_le left right
  rw [Real.sqrt_le_left (by positivity), expanded, add_sq, Real.sq_sqrt (sum_sq_nonneg _),
    Real.sq_sqrt (sum_sq_nonneg _)]
  linarith

end Shape

namespace Mat

/-- The Frobenius norm of the difference of two matrices. -/
def distance {α : Type} [Scalar α] (left right : Mat α) : α := (left.addScaled (-1) right).frobenius

variable {shape : Shape} {left right matrix : Mat ℝ} {row col : Nat}

theorem get_ofExtent (matrixShape : matrix.shape = shape) (rowBound : row < shape.rows)
    (colBound : col < shape.cols) (entry : Nat → Nat → ℝ) :
    (ofFn matrix.rows matrix.cols entry).get row col = entry row col :=
  get_ofFn entry ((rows_eq matrixShape).symm ▸ rowBound) ((cols_eq matrixShape).symm ▸ colBound)

theorem inner_eq_sum (left : Mat ℝ) (rightShape : right.shape = shape) :
    left.inner right = shape.sum fun row col => left.get row col * right.get row col := by
  have rows : right.rows = shape.rows := rows_eq rightShape
  have cols : right.cols = shape.cols := cols_eq rightShape
  have outside : ∀ row col, (left.rows ≤ row ∨ left.cols ≤ col) ∨ shape.rows ≤ row ∨ shape.cols ≤ col →
      left.get row col * right.get row col = 0 := by
    rintro row col (outside | outside)
    · rw [get_eq_zero outside, zero_mul]
    · have vanishes : right.get row col = 0 := get_eq_zero (by rwa [rows, cols])
      rw [vanishes, mul_zero]
  rw [inner_real, Shape.sum]
  calc ∑ row ∈ Finset.range left.rows, ∑ col ∈ Finset.range left.cols,
        left.get row col * right.get row col
      = ∑ row ∈ Finset.range left.rows, ∑ col ∈ Finset.range shape.cols,
        left.get row col * right.get row col :=
        Finset.sum_congr rfl fun row _ => sum_extent fun col beyond => outside row col (by tauto)
    _ = ∑ row ∈ Finset.range shape.rows, ∑ col ∈ Finset.range shape.cols,
        left.get row col * right.get row col :=
        sum_extent fun row beyond => Finset.sum_eq_zero fun col _ => outside row col (by tauto)

theorem inner_difference_eq_sum (gradient : Mat ℝ) (leftShape : left.shape = shape)
    (rightShape : right.shape = shape) : gradient.inner (left.addScaled (-1) right) =
      shape.sum fun row col => gradient.get row col * (left.get row col - right.get row col) := by
  have difference : (left.addScaled (-1) right).shape = shape := leftShape
  rw [inner_eq_sum gradient difference]
  refine Shape.sum_congr fun row _ col _ => ?_
  rw [get_addScaled (leftShape.trans rightShape.symm), neg_one_mul, ← sub_eq_add_neg]

theorem frobenius_eq_sum (matrixShape : matrix.shape = shape) :
    matrix.frobenius = √(shape.sum fun row col => matrix.get row col ^ 2) := by
  rw [frobenius_eq_inner, inner_eq_sum matrix matrixShape]
  simp only [sq]

theorem distance_eq_sum (leftShape : left.shape = shape) (rightShape : right.shape = shape) :
    left.distance right = √(shape.sum fun row col => (left.get row col - right.get row col) ^ 2) := by
  have difference : (left.addScaled (-1) right).shape = shape := leftShape
  rw [distance, frobenius_eq_sum difference]
  congr 1
  refine Shape.sum_congr fun row _ col _ => ?_
  rw [get_addScaled (leftShape.trans rightShape.symm), neg_one_mul, ← sub_eq_add_neg]

theorem distance_self (matrix : Mat ℝ) : matrix.distance matrix = 0 := by
  rw [distance_eq_sum rfl rfl]
  simp [Shape.sum]

theorem distance_sq (leftShape : left.shape = shape) (rightShape : right.shape = shape) :
    left.distance right ^ 2 =
      shape.sum fun row col => (left.get row col - right.get row col) ^ 2 := by
  rw [distance_eq_sum leftShape rightShape, Real.sq_sqrt (Shape.sum_sq_nonneg _)]

theorem distance_sq_around {middle : Mat ℝ} (leftShape : left.shape = shape)
    (middleShape : middle.shape = shape) (rightShape : right.shape = shape) :
    left.distance right ^ 2 = left.distance middle ^ 2 + middle.distance right ^ 2 -
      2 * shape.sum fun row col => (right.get row col - middle.get row col) *
        (left.get row col - middle.get row col) := by
  rw [distance_sq leftShape rightShape, distance_sq leftShape middleShape,
    distance_sq middleShape rightShape, ← Shape.sum_mul_left, ← Shape.sum_add, ← Shape.sum_sub]
  exact Shape.sum_congr fun row _ col _ => by ring

theorem inner_difference_self (leftShape : left.shape = shape) (rightShape : right.shape = shape) :
    (left.addScaled (-1) right).inner (left.addScaled (-1) right) = left.distance right ^ 2 := by
  have same : left.shape = right.shape := leftShape.trans rightShape.symm
  rw [inner_difference_eq_sum _ leftShape rightShape, distance_sq leftShape rightShape]
  refine Shape.sum_congr fun row _ col _ => ?_
  rw [get_addScaled same]
  ring

theorem distance_comm (leftShape : left.shape = shape) (rightShape : right.shape = shape) :
    left.distance right = right.distance left := by
  rw [distance_eq_sum leftShape rightShape, distance_eq_sum rightShape leftShape]
  congr 1
  exact Shape.sum_congr fun row _ col _ => by ring

theorem eq_of_distance_sq_nonpos (leftShape : left.shape = shape) (rightShape : right.shape = shape)
    (nonpos : left.distance right ^ 2 ≤ 0) : left = right := by
  have zero := le_antisymm nonpos (sq_nonneg _)
  rw [distance_sq leftShape rightShape, Shape.sum_sq_eq_zero] at zero
  refine ext_get ((rows_eq leftShape).trans (rows_eq rightShape).symm)
    ((cols_eq leftShape).trans (cols_eq rightShape).symm) fun row rowBound col colBound => ?_
  exact sub_eq_zero.1 (zero row (rows_eq leftShape ▸ rowBound) col (cols_eq leftShape ▸ colBound))

end Mat

end GroupLasso
