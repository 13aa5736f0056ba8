import GroupLasso.Proofs.Resample

/-!
The multinomial loss as the likelihood states it. The row maxima that are taken out of the exponentials
cancel, in the value where they are added back as well as in the probabilities, so that both are those of the
plain formula. A constant that is added to all predictors of a case cancels in the same way.
-/

namespace GroupLasso

open Scalar

namespace Mat

def shiftRows {α : Type} [Scalar α] (matrix : Mat α) (shift : Nat → α) : Mat α :=
  ofFn matrix.rows matrix.cols fun row col => matrix.get row col + shift row

theorem get_shiftRows {matrix : Mat ℝ} {shift : Nat → ℝ} {row col : Nat} (rowBound : row < matrix.rows)
    (colBound : col < matrix.cols) :
    (matrix.shiftRows shift).get row col = matrix.get row col + shift row :=
  get_ofFn _ rowBound colBound

end Mat

theorem Loss.Sound.value?_eq_sum {loss : Loss ℝ} {eta : Mat ℝ} (sound : loss.Sound)
    (shape : eta.shape = loss.shape) : loss.value? eta =
      some (∑ case ∈ Finset.range loss.shape.rows, loss.caseLoss eta case) := by
  rw [value?_eq_some (CaseWeights.size_of_validate sound.weights) shape,
    value_eq_sum sound.data shape]

namespace Multinomial

section
variable {width : Nat} {point other : Nat → ℝ} {shift : ℝ}

theorem softmax_pos (some : 0 < width) (point : Nat → ℝ) (col : Nat) : 0 < softmax width point col :=
  div_pos (Real.exp_pos _) (sum_exp_pos some point)

theorem sum_softmax (some : 0 < width) (point : Nat → ℝ) :
    ∑ col ∈ Finset.range width, softmax width point col = 1 := by
  simp only [softmax]
  rw [← Finset.sum_div, div_self (sum_exp_pos some point).ne']

theorem sum_exp_shifted (shifted : ∀ col < width, other col = point col + shift) :
    ∑ col ∈ Finset.range width, Real.exp (other col) =
      Real.exp shift * ∑ col ∈ Finset.range width, Real.exp (point col) := by
  rw [Finset.mul_sum]
  refine Finset.sum_congr rfl fun col member => ?_
  rw [shifted col (Finset.mem_range.1 member), add_comm, Real.exp_add]

theorem softmax_shifted (shifted : ∀ col < width, other col = point col + shift) {col : Nat}
    (bound : col < width) : softmax width other col = softmax width point col := by
  rw [softmax, softmax, sum_exp_shifted shifted, shifted col bound, add_comm, Real.exp_add,
    mul_div_mul_left _ _ (Real.exp_ne_zero shift)]

theorem logSumExp_shifted (some : 0 < width) (shifted : ∀ col < width, other col = point col + shift) :
    logSumExp width other = shift + logSumExp width point := by
  rw [logSumExp, logSumExp, sum_exp_shifted shifted,
    Real.log_mul (Real.exp_ne_zero shift) (sum_exp_pos some point).ne', Real.log_exp]

end

section
variable {loss : Multinomial ℝ} {eta : Mat ℝ}

theorem total_real (loss : Multinomial ℝ) (row : Nat) :
    loss.total row = ∑ col ∈ Finset.range loss.counts.cols, loss.counts.get row col := sumTo_real _ _

theorem get_probabilities_sized (shape : eta.shape = loss.counts.shape) {row col : Nat}
    (bound : row < loss.counts.rows) (colBound : col < loss.counts.cols) :
    (probabilities eta).get row col = softmax loss.counts.cols (eta.get row) col := by
  have cols : eta.cols = loss.counts.cols := Mat.cols_eq shape
  rw [get_probabilities (Mat.rows_eq shape ▸ bound) (cols ▸ colBound), cols]

theorem probabilities_shiftRows (eta : Mat ℝ) (shift : Nat → ℝ) :
    probabilities (eta.shiftRows shift) = probabilities eta := by
  refine Mat.ext_get rfl rfl fun row bound col colBound => ?_
  have rowBound : row < eta.rows := bound
  have inside : col < eta.cols := colBound
  have shiftedBound : row < (eta.shiftRows shift).rows := bound
  have shifted : ∀ other < eta.cols, (eta.shiftRows shift).get row other = eta.get row other + shift row :=
    fun other otherBound => Mat.get_shiftRows rowBound otherBound
  rw [get_probabilities rowBound inside, get_probabilities shiftedBound colBound]
  exact softmax_shifted shifted inside

theorem gradient_shiftRows (loss : Multinomial ℝ) (eta : Mat ℝ) (shift : Nat → ℝ) :
    loss.gradient (eta.shiftRows shift) = loss.gradient eta := by
  simp only [gradient, probabilities_shiftRows]

theorem sum_gradient (some : 0 < loss.counts.cols) (shape : eta.shape = loss.counts.shape) {row : Nat}
    (bound : row < loss.counts.rows) :
    ∑ col ∈ Finset.range loss.counts.cols, (loss.gradient eta).get row col = 0 := by
  have cols : eta.cols = loss.counts.cols := Mat.cols_eq shape
  calc ∑ col ∈ Finset.range loss.counts.cols, (loss.gradient eta).get row col
      = ∑ col ∈ Finset.range loss.counts.cols, loss.weights.getD row 0 *
          (loss.total row * softmax eta.cols (eta.get row) col - loss.counts.get row col) :=
        Finset.sum_congr rfl fun col member => get_gradient shape bound (Finset.mem_range.1 member)
    _ = loss.weights.getD row 0 * (loss.total row * 1 - loss.total row) := by
        rw [← Finset.mul_sum, Finset.sum_sub_distrib, ← Finset.mul_sum, ← total_real, cols,
          sum_softmax some]
    _ = 0 := by ring

theorem cost_shiftRows (some : 0 < loss.counts.cols) (shape : eta.shape = loss.counts.shape)
    (shift : Nat → ℝ) {row : Nat} (bound : row < loss.counts.rows) :
    (Loss.multinomial loss).cost (eta.shiftRows shift) row = (Loss.multinomial loss).cost eta row := by
  have rows : eta.rows = loss.counts.rows := Mat.rows_eq shape
  have cols : eta.cols = loss.counts.cols := Mat.cols_eq shape
  have entry : ∀ col < loss.counts.cols,
      (eta.shiftRows shift).get row col = eta.get row col + shift row :=
    fun col colBound => Mat.get_shiftRows (rows ▸ bound) (cols ▸ colBound)
  have linear : ∑ col ∈ Finset.range loss.counts.cols,
      loss.counts.get row col * (eta.shiftRows shift).get row col =
        ∑ col ∈ Finset.range loss.counts.cols, loss.counts.get row col * eta.get row col +
          loss.total row * shift row := by
    rw [total_real, Finset.sum_mul, ← Finset.sum_add_distrib]
    refine Finset.sum_congr rfl fun col member => ?_
    rw [entry col (Finset.mem_range.1 member)]
    ring
  simp only [Loss.cost]
  rw [logSumExp_shifted some entry, linear]
  ring

theorem value?_shiftRows (sound : (Loss.multinomial loss).Sound) (some : 0 < loss.counts.cols)
    (shape : eta.shape = loss.counts.shape) (shift : Nat → ℝ) :
    (Loss.multinomial loss).value? (eta.shiftRows shift) = (Loss.multinomial loss).value? eta := by
  have same : (eta.shiftRows shift).shape = loss.counts.shape := shape
  rw [sound.value?_eq_sum same, sound.value?_eq_sum shape]
  congr 1
  refine Finset.sum_congr rfl fun row member => ?_
  rw [Loss.caseLoss, Loss.caseLoss, cost_shiftRows some shape shift (Finset.mem_range.1 member)]

/-- Value, gradient and probabilities are those of the plain formula, without the maxima that are taken out.
The probabilities of a case are positive and sum to one, its row of the gradient sums to zero, and a
constant that is added to its predictors changes none of them. -/
theorem stabilized_exact (constructed : (Loss.multinomial loss).Constructed)
    (categories : 0 < loss.counts.cols) (shape : eta.shape = loss.counts.shape) :
    let total := fun row => ∑ col ∈ Finset.range loss.counts.cols, loss.counts.get row col
    let expSum := fun row => ∑ col ∈ Finset.range loss.counts.cols, Real.exp (eta.get row col)
    (Loss.multinomial loss).value? eta = some (∑ row ∈ Finset.range loss.counts.rows,
      loss.weights.getD row 0 * (total row * Real.log (expSum row) -
        ∑ col ∈ Finset.range loss.counts.cols, loss.counts.get row col * eta.get row col)) ∧
    (∃ gradient, (Loss.multinomial loss).gradient? eta = some gradient ∧
      gradient.shape = loss.counts.shape ∧ ∀ row < loss.counts.rows,
        (∀ col < loss.counts.cols, gradient.get row col = loss.weights.getD row 0 *
          (total row * (Real.exp (eta.get row col) / expSum row) - loss.counts.get row col)) ∧
        ∑ col ∈ Finset.range loss.counts.cols, gradient.get row col = 0) ∧
    (∀ row < loss.counts.rows,
      (∀ col < loss.counts.cols,
        (probabilities eta).get row col = Real.exp (eta.get row col) / expSum row ∧
        0 < (probabilities eta).get row col) ∧
      ∑ col ∈ Finset.range loss.counts.cols, (probabilities eta).get row col = 1) ∧
    ∀ shift : Nat → ℝ,
      (Loss.multinomial loss).value? (eta.shiftRows shift) = (Loss.multinomial loss).value? eta ∧
      (Loss.multinomial loss).gradient? (eta.shiftRows shift) = (Loss.multinomial loss).gradient? eta ∧
      probabilities (eta.shiftRows shift) = probabilities eta := by
  intro total expSum
  have sound := constructed.sound
  have sized := CaseWeights.size_of_validate sound.weights
  refine ⟨?_, ⟨loss.gradient eta, Loss.gradient?_eq_some sized shape, rfl, fun row bound =>
    ⟨fun col colBound => ?_, sum_gradient categories shape bound⟩⟩, fun row bound =>
    ⟨fun col colBound => ?_, ?_⟩, fun shift => ⟨?_, ?_, probabilities_shiftRows eta shift⟩⟩
  · rw [sound.value?_eq_sum shape]
    simp only [Loss.caseLoss, Loss.cost, total_real]
    rfl
  · rw [get_gradient shape bound colBound, Mat.cols_eq shape, total_real]
    rfl
  · rw [get_probabilities_sized shape bound colBound]
    exact ⟨rfl, softmax_pos categories _ _⟩
  · rw [← sum_softmax categories (eta.get row)]
    exact Finset.sum_congr rfl fun col member =>
      get_probabilities_sized shape bound (Finset.mem_range.1 member)
  · exact value?_shiftRows sound categories shape shift
  · have same : (eta.shiftRows shift).shape = loss.counts.shape := shape
    rw [Loss.gradient?_eq_some sized same, Loss.gradient?_eq_some sized shape]
    exact congrArg some (loss.gradient_shiftRows eta shift)

end

theorem stabilized_exact_weighted :
    let counts : Mat ℝ := .ofFn 2 2 fun row col => if row = 0 then col + 1 else 3 * col
    let loss : Multinomial ℝ := ⟨counts, #[2, 0]⟩
    let eta : Mat ℝ := .ofFn 2 2 fun row _ => row
    (Loss.multinomial loss).Constructed ∧
      (Loss.multinomial loss).value? eta = some (2 * (3 * Real.log 2)) ∧
      (∃ gradient, (Loss.multinomial loss).gradient? eta = some gradient ∧
        gradient.get 0 0 = 1 ∧ gradient.get 0 1 = -1) ∧
      (probabilities eta).get 1 0 = 1 / 2 ∧
      (Loss.multinomial loss).value? (eta.shiftRows fun row => 1000 - row) =
        some (2 * (3 * Real.log 2)) := by
  intro counts loss eta
  have valid : CaseWeights.validate #[2, 0] 2 = (.ok () : Except (Failure ℝ) Unit) :=
    Failure.bind_eq_ok.2 ⟨(), rfl, Failure.unless_eq_ok.2 (by simp)⟩
  have faultless : badCount? counts = none := by
    norm_num [badCount?, counts, List.range_succ, Mat.get_ofFn]
  have constructed : (Loss.multinomial loss).Constructed := .weightedCounts <|
    Failure.bind_eq_ok.2 ⟨(), valid,
      Failure.bind_eq_ok.2 ⟨_, ofCounts_eq_ok.2 ⟨faultless, rfl⟩, rfl⟩⟩
  have count : loss.counts.get 0 0 = 1 ∧ loss.counts.get 0 1 = 2 := by
    norm_num [loss, counts, Mat.get_ofFn]
  have predictor : ∀ row < 2, ∀ col < 2, eta.get row col = row :=
    fun _ bound _ colBound => Mat.get_ofFn _ bound colBound
  have weight : loss.weights.getD 0 0 = 2 ∧ loss.weights.getD 1 0 = 0 := ⟨rfl, rfl⟩
  have both : ∀ term : Nat → ℝ, ∑ index ∈ Finset.range 2, term index = term 0 + term 1 :=
    fun term => by rw [Finset.sum_range_succ, Finset.sum_range_one]
  obtain ⟨value, ⟨gradient, found, -, entries⟩, probability, shifted⟩ :=
    stabilized_exact constructed (show 0 < 2 by decide) (show eta.shape = counts.shape from rfl)
  have rows : loss.counts.rows = 2 := rfl
  have cols : loss.counts.cols = 2 := rfl
  simp only [rows, cols, both] at value entries probability
  have evaluated : (Loss.multinomial loss).value? eta = some (2 * (3 * Real.log 2)) := by
    rw [value]
    simp only [count, weight, predictor, zero_lt_two, one_lt_two]
    norm_num
  refine ⟨constructed, evaluated, ⟨gradient, found, ?_, ?_⟩, ?_, (shifted _).1.trans evaluated⟩
  · rw [(entries 0 two_pos).1 0 two_pos]
    simp only [count, weight, predictor, zero_lt_two, one_lt_two]
    norm_num
  · rw [(entries 0 two_pos).1 1 one_lt_two]
    simp only [count, weight, predictor, zero_lt_two, one_lt_two]
    norm_num
  · rw [((probability 1 one_lt_two).1 0 two_pos).1]
    simp only [predictor, zero_lt_two, one_lt_two]
    rw [← two_mul, div_mul_cancel_right₀ (Real.exp_ne_zero _), inv_eq_one_div]

end Multinomial

end GroupLasso
