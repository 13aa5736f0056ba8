import GroupLasso.Proofs.Cloglog
import GroupLasso.Proofs.Exact

/-!
A loss over a list of its cases. Only the weights change, to the number of times that the list names the
case times what they were, and everything that is computed from a loss is linear in the weights: the value
is the sum of the losses of its cases, and the gradient has a row for each case that reads only this case.
-/

namespace GroupLasso

open Scalar

namespace CaseWeights

section
variable {weights chosen : Array ℝ} {indices : List Nat}

theorem repeated_eq_count (weights : Array ℝ) (indices : List Nat) (case : Nat) :
    repeated weights indices case = indices.count case * weights.getD case 0 := by
  have passed : ∀ total : ℝ,
      indices.foldl (fun total index =>
        if index = case then total + weights.getD case 0 else total) total =
          total + indices.count case * weights.getD case 0 := by
    induction indices with
    | nil => simp
    | cons index rest ih =>
        intro total
        rw [List.foldl_cons, ih, List.count_cons]
        by_cases same : index = case
        · simp only [same, if_true, BEq.rfl]
          push_cast
          ring
        · simp [same]
  rw [repeated, passed, zero_add]

theorem select_eq_ok : select weights indices = .ok chosen ↔
    (indices ≠ [] ∧ ∀ index ∈ indices, index < weights.size) ∧
      chosen = Array.ofFn (n := weights.size) fun case => repeated weights indices case := by
  unfold select
  cases indices with
  | nil => simp
  | cons first rest =>
      cases search : (first :: rest).find? (weights.size ≤ ·) with
      | some index =>
          have outside := List.find?_some search
          have listed := List.mem_of_find?_eq_some search
          simp only [List.isEmpty_cons, Bool.false_eq_true, if_false, reduceCtorEq, false_iff]
          rintro ⟨⟨-, inside⟩, -⟩
          exact (inside index listed).not_ge (of_decide_eq_true outside)
      | none =>
          have inside : ∀ index ∈ first :: rest, index < weights.size := by
            simpa using search
          simp only [List.isEmpty_cons, Bool.false_eq_true, if_false, Except.ok.injEq]
          constructor
          · rintro rfl
            exact ⟨⟨List.cons_ne_nil _ _, inside⟩, rfl⟩
          · rintro ⟨-, rfl⟩
            rfl

theorem select_eq_error {before after : List Nat} {index : Nat}
    (inside : ∀ case ∈ before, case < weights.size) (outside : weights.size ≤ index) :
    select weights (before ++ index :: after) = .error (.caseOutOfRange index weights.size) := by
  have search : (before ++ index :: after).find? (weights.size ≤ ·) = some index := by
    rw [List.find?_append, List.find?_eq_none.2 (by simpa using inside)]
    simp [outside]
  have some : (before ++ index :: after).isEmpty = false := by simp
  unfold select
  simp only [some, Bool.false_eq_true, if_false, search]

theorem size_of_validate {cases : Nat} {done : Unit} (accepted : validate weights cases = .ok done) :
    weights.size = cases := by
  obtain ⟨_, sized, _⟩ := Failure.bind_eq_ok.1 accepted
  exact (Failure.expectLength_eq_ok.1 sized).symm

theorem getD_select (selected : select weights indices = .ok chosen) (case : Nat) :
    chosen.getD case 0 = indices.count case * weights.getD case 0 := by
  obtain ⟨-, rfl⟩ := select_eq_ok.1 selected
  by_cases bound : case < weights.size
  · simp only [Array.getD, Array.size_ofFn, bound, dif_pos, Array.getInternal_eq_getElem,
      Array.getElem_ofFn, repeated_eq_count]
  · simp [Array.getD, bound]

theorem size_select (selected : select weights indices = .ok chosen) : chosen.size = weights.size := by
  obtain ⟨-, rfl⟩ := select_eq_ok.1 selected
  exact Array.size_ofFn

theorem select_perm {other : List Nat} (perm : indices.Perm other)
    (selected : select weights indices = .ok chosen) : select weights other = .ok chosen := by
  obtain ⟨⟨some, inside⟩, rfl⟩ := select_eq_ok.1 selected
  refine select_eq_ok.2 ⟨⟨fun none => some (none ▸ perm).eq_nil, fun index listed =>
    inside index (perm.mem_iff.2 listed)⟩, ?_⟩
  simp only [repeated_eq_count, perm.count_eq]

end

theorem sum_count_mul {indices : List Nat} {count : Nat} (inside : ∀ index ∈ indices, index < count)
    (term : Nat → ℝ) :
    ∑ case ∈ Finset.range count, indices.count case * term case = (indices.map term).sum := by
  rw [Finset.sum_list_map_count]
  simp only [nsmul_eq_mul]
  refine (Finset.sum_subset (fun index listed => ?_) fun index _ unlisted => ?_).symm
  · exact Finset.mem_range.2 (inside index (List.mem_toFinset.1 listed))
  · rw [List.count_eq_zero_of_not_mem fun listed => unlisted (List.mem_toFinset.2 listed),
      Nat.cast_zero, zero_mul]

end CaseWeights

def Gaussian.cost {α : Type} [Scalar α] (loss : Gaussian α) (eta : Mat α) (case : Nat) : α :=
  0.5 * sumTo loss.response.cols fun col =>
    let residual := eta.get case col - loss.response.get case col
    residual * residual

theorem Gaussian.cost_real (loss : Gaussian ℝ) (eta : Mat ℝ) (case : Nat) : loss.cost eta case =
    ∑ col ∈ Finset.range loss.response.cols,
      1 / 2 * (eta.get case col - loss.response.get case col) ^ 2 := by
  have half : (0.5 : ℝ) = 1 / 2 := by norm_num
  simp only [cost, sumTo_real, half, Finset.mul_sum, sq]

namespace Loss

noncomputable def cost (loss : Loss ℝ) (eta : Mat ℝ) (case : Nat) : ℝ :=
  match loss with
  | gaussian loss => loss.cost eta case
  | multinomial loss =>
      loss.total case * Multinomial.logSumExp loss.counts.cols (eta.get case) -
        ∑ col ∈ Finset.range loss.counts.cols, loss.counts.get case col * eta.get case col
  | poisson loss =>
      Real.exp (loss.shifted eta case) - loss.counts.getD case 0 * loss.shifted eta case
  | cloglog loss =>
      let rate := loss.rate (eta.get case 0) case
      (loss.trials.getD case 0 - loss.successes.getD case 0) * rate -
        loss.successes.getD case 0 * Real.log (1 - Real.exp (-rate))

noncomputable def slope (loss : Loss ℝ) (eta : Mat ℝ) (case col : Nat) : ℝ :=
  match loss with
  | gaussian loss => eta.get case col - loss.response.get case col
  | multinomial loss =>
      loss.total case * Multinomial.softmax loss.counts.cols (eta.get case) col -
        loss.counts.get case col
  | poisson loss => Real.exp (loss.shifted eta case) - loss.counts.getD case 0
  | cloglog loss =>
      let rate := loss.rate (eta.get case 0) case
      let ratio := if rate < Cloglog.smallRate then 1 else rate / (Real.exp rate - 1)
      (loss.trials.getD case 0 - loss.successes.getD case 0) * rate -
        loss.successes.getD case 0 * ratio

noncomputable def caseLoss (loss : Loss ℝ) (eta : Mat ℝ) (case : Nat) : ℝ :=
  loss.weights.getD case 0 * loss.cost eta case

section
variable {loss : Loss ℝ} {eta other : Mat ℝ} {case col : Nat}

theorem value_eq_sum (data : loss.SoundData) (shape : eta.shape = loss.shape) :
    loss.value eta = ∑ case ∈ Finset.range loss.shape.rows, loss.caseLoss eta case := by
  cases loss with
  | gaussian loss =>
      refine (loss.value_real eta).trans (Finset.sum_congr rfl fun row _ => ?_)
      simp only [caseLoss, cost, Gaussian.cost_real, Finset.mul_sum]
      exact Finset.sum_congr rfl fun col _ => mul_left_comm _ _ _
  | multinomial loss =>
      have cols : eta.cols = loss.counts.cols := Mat.cols_eq shape
      refine (loss.value_real cols).trans ?_
      rw [cols]
      rfl
  | poisson loss => exact sumTo_real _ _
  | cloglog loss =>
      have rows : eta.rows = loss.successes.size := Mat.rows_eq shape
      refine (loss.value_real eta).trans ?_
      rw [rows]
      refine Finset.sum_congr rfl fun case _ => ?_
      have probability : ∀ rate : ℝ, -Scalar.expm1 (-rate) = 1 - Real.exp (-rate) :=
        fun _ => neg_sub _ _
      simp only [Cloglog.caseLoss, caseLoss, cost, weights, probability]
      rcases (Cloglog.Binomial.nonneg data case).eq_or_lt with none | some
      · rw [← none, if_neg (lt_irrefl 0)]
        ring
      · rw [if_pos some]
        change _ * (-_ * Real.log _ + _) = _
        ring

theorem get_gradient (shape : eta.shape = loss.shape) (bound : case < loss.shape.rows)
    (colBound : col < loss.shape.cols) :
    (loss.gradient eta).get case col = loss.weights.getD case 0 * loss.slope eta case col := by
  cases loss with
  | gaussian loss => exact Mat.get_ofFn _ bound colBound
  | multinomial loss =>
      have cols : eta.cols = loss.counts.cols := Mat.cols_eq shape
      refine (Multinomial.get_gradient shape bound colBound).trans ?_
      rw [cols]
      rfl
  | poisson loss => exact Mat.get_ofFn _ bound colBound
  | cloglog loss =>
      obtain rfl : col = 0 := Nat.lt_one_iff.1 colBound
      have difference : ∀ rate : ℝ, Scalar.expm1 rate = Real.exp rate - 1 := fun _ => rfl
      refine (Mat.get_ofFn _ bound one_pos).trans ?_
      simp only [slope, weights, difference]
      ring

theorem cost_congr (loss : Loss ℝ) (same : ∀ col, eta.get case col = other.get case col) :
    loss.cost eta case = loss.cost other case := by
  cases loss <;> simp only [cost, Gaussian.cost, same, Poisson.shifted, Multinomial.logSumExp]

theorem slope_congr (loss : Loss ℝ) (same : ∀ col, eta.get case col = other.get case col) (col : Nat) :
    loss.slope eta case col = loss.slope other case col := by
  cases loss <;> simp only [slope, same, Poisson.shifted, Multinomial.softmax]

end

section
variable (loss : Loss ℝ) (weights : Array ℝ)

@[simp] theorem shape_withWeights : (loss.withWeights weights).shape = loss.shape := by
  cases loss <;> rfl

@[simp] theorem weights_withWeights : (loss.withWeights weights).weights = weights := by
  cases loss <;> rfl

@[simp] theorem cost_withWeights (eta : Mat ℝ) (case : Nat) :
    (loss.withWeights weights).cost eta case = loss.cost eta case := by
  cases loss <;> rfl

@[simp] theorem slope_withWeights (eta : Mat ℝ) (case col : Nat) :
    (loss.withWeights weights).slope eta case col = loss.slope eta case col := by
  cases loss <;> rfl

end

theorem soundData_withWeights {loss : Loss ℝ} (data : loss.SoundData) (weights : Array ℝ) :
    (loss.withWeights weights).SoundData := by
  cases loss with
  | gaussian loss => trivial
  | multinomial loss => exact data
  | poisson loss => trivial
  | cloglog loss =>
      have binomial : loss.Binomial := data
      exact ⟨binomial.nonneg, binomial.le_trials⟩

theorem get_gradient_withWeights {loss : Loss ℝ} {weights : Array ℝ} {eta : Mat ℝ} {factor : ℝ}
    {case : Nat} (shape : eta.shape = loss.shape)
    (scaled : weights.getD case 0 = factor * loss.weights.getD case 0) (col : Nat) :
    ((loss.withWeights weights).gradient eta).get case col =
      factor * (loss.gradient eta).get case col := by
  have same := shape_withWeights loss weights
  by_cases inside : case < loss.shape.rows ∧ col < loss.shape.cols
  · rw [get_gradient shape inside.1 inside.2, get_gradient (shape.trans same.symm)
      (same.symm ▸ inside.1) (same.symm ▸ inside.2), weights_withWeights, slope_withWeights, scaled,
      mul_assoc]
  · have outside : loss.shape.rows ≤ case ∨ loss.shape.cols ≤ col := by omega
    rw [Mat.get_eq_zero, Mat.get_eq_zero, mul_zero]
    · rwa [Mat.rows_eq (loss.shape_gradient eta), Mat.cols_eq (loss.shape_gradient eta)]
    · rwa [Mat.rows_eq ((loss.withWeights weights).shape_gradient eta),
        Mat.cols_eq ((loss.withWeights weights).shape_gradient eta), same]

section
variable {loss : Loss ℝ} {eta : Mat ℝ} (sized : loss.weights.size = loss.shape.rows)
  (shape : eta.shape = loss.shape)

include sized shape

theorem value?_eq_some : loss.value? eta = some (loss.value eta) := by
  have rows : eta.rows = loss.shape.rows := Mat.rows_eq shape
  have cols : eta.cols = loss.shape.cols := Mat.cols_eq shape
  have covers : eta.Covers loss.shape.rows loss.shape.cols := .inr (.inr ⟨rows.ge, cols.ge⟩)
  cases loss with
  | gaussian loss => exact if_pos (decide_eq_true ⟨covers, .inr sized.ge⟩)
  | multinomial loss =>
      exact if_pos (decide_eq_true ⟨sized.ge, fun row bound =>
        .inr ⟨cols.ge, .inr (rows.symm ▸ bound)⟩⟩)
  | poisson loss => exact if_pos (decide_eq_true ⟨covers, sized.ge⟩)
  | cloglog loss =>
      exact if_pos (decide_eq_true ⟨.inr (cols.symm ▸ one_pos), rows.le, (rows.trans sized.symm).le⟩)

theorem gradient?_eq_some : loss.gradient? eta = some (loss.gradient eta) := by
  have rows : eta.rows = loss.shape.rows := Mat.rows_eq shape
  have cols : eta.cols = loss.shape.cols := Mat.cols_eq shape
  have covers : eta.Covers loss.shape.rows loss.shape.cols := .inr (.inr ⟨rows.ge, cols.ge⟩)
  cases loss with
  | gaussian loss => exact if_pos (decide_eq_true ⟨covers, .inr sized.ge⟩)
  | multinomial loss => exact if_pos (decide_eq_true ⟨sized.ge, covers⟩)
  | poisson loss => exact if_pos (decide_eq_true ⟨covers, sized.ge⟩)
  | cloglog loss => exact if_pos (decide_eq_true ⟨covers, sized.ge⟩)

end

/-! A loss over a list of its cases. -/

/-- The loss that counts every case of another one as often as a list names it. It can be evaluated at
every predictor of that loss and reads the rows of the listed cases only. -/
structure Resampled (loss : Loss ℝ) (indices : List Nat) (chosen : Loss ℝ) : Prop where
  shape : chosen.shape = loss.shape
  weights : ∀ case, chosen.weights.getD case 0 = indices.count case * loss.weights.getD case 0
  value : ∀ eta : Mat ℝ, eta.shape = loss.shape →
    chosen.value? eta = some (indices.map (loss.caseLoss eta)).sum
  gradient : ∀ eta : Mat ℝ, eta.shape = loss.shape → ∃ gradient, chosen.gradient? eta = some gradient ∧
    gradient.shape = loss.shape ∧
      ∀ case col, gradient.get case col = indices.count case * (loss.gradient eta).get case col
  listed : ∀ eta other : Mat ℝ, eta.shape = loss.shape → other.shape = loss.shape →
    (∀ case ∈ indices, ∀ col, eta.get case col = other.get case col) →
      chosen.value? eta = chosen.value? other ∧ chosen.gradient? eta = chosen.gradient? other

section
variable {loss chosen : Loss ℝ} {indices : List Nat}

theorem subsample_eq_ok : loss.subsample indices = .ok chosen ↔
    ∃ weights, CaseWeights.select loss.weights indices = .ok weights ∧
      chosen = loss.withWeights weights := by
  rw [subsample, Failure.bind_eq_ok]
  refine exists_congr fun weights => and_congr_right fun _ => ?_
  exact ⟨fun found => (Except.ok.inj found).symm, fun found => found ▸ rfl⟩

theorem sized_subsample (sized : loss.weights.size = loss.shape.rows)
    (selected : loss.subsample indices = .ok chosen) : chosen.weights.size = chosen.shape.rows := by
  obtain ⟨weights, selection, rfl⟩ := subsample_eq_ok.1 selected
  rw [weights_withWeights, shape_withWeights, CaseWeights.size_select selection, sized]

theorem resampled (data : loss.SoundData) (sized : loss.weights.size = loss.shape.rows)
    (selected : loss.subsample indices = .ok chosen) : Resampled loss indices chosen := by
  obtain ⟨weights, selection, rfl⟩ := subsample_eq_ok.1 selected
  have same := shape_withWeights loss weights
  have counted := CaseWeights.getD_select selection
  have inside := (CaseWeights.select_eq_ok.1 selection).1.2
  rw [sized] at inside
  have chosenSized := sized_subsample sized selected
  have value : ∀ eta : Mat ℝ, eta.shape = loss.shape →
      (loss.withWeights weights).value? eta = some (indices.map (loss.caseLoss eta)).sum := by
    intro eta shape
    have chosenShape := shape.trans same.symm
    rw [value?_eq_some chosenSized chosenShape, value_eq_sum (soundData_withWeights data weights)
      chosenShape, same, ← CaseWeights.sum_count_mul inside]
    simp only [caseLoss, weights_withWeights, cost_withWeights, counted, mul_assoc]
  have gradient : ∀ eta : Mat ℝ, eta.shape = loss.shape →
      (loss.withWeights weights).gradient? eta = some ((loss.withWeights weights).gradient eta) :=
    fun eta shape => gradient?_eq_some chosenSized (shape.trans same.symm)
  have gradientShape : ∀ eta : Mat ℝ, ((loss.withWeights weights).gradient eta).shape = loss.shape :=
    fun eta => ((loss.withWeights weights).shape_gradient eta).trans same
  have entry : ∀ eta : Mat ℝ, eta.shape = loss.shape → ∀ case col,
      ((loss.withWeights weights).gradient eta).get case col =
        indices.count case * (loss.gradient eta).get case col :=
    fun eta shape case col => get_gradient_withWeights shape (counted case) col
  refine ⟨same, fun case => by rw [weights_withWeights, counted], value, fun eta shape =>
    ⟨_, gradient eta shape, gradientShape eta, entry eta shape⟩,
    fun eta other shape otherShape agree => ⟨?_, ?_⟩⟩
  · rw [value eta shape, value other otherShape]
    congr 2
    refine List.map_congr_left fun case listed => ?_
    rw [caseLoss, caseLoss, cost_congr loss (agree case listed)]
  · rw [gradient eta shape, gradient other otherShape]
    congr 1
    refine Mat.ext_get ((Mat.rows_eq (gradientShape eta)).trans (Mat.rows_eq (gradientShape other)).symm)
      ((Mat.cols_eq (gradientShape eta)).trans (Mat.cols_eq (gradientShape other)).symm)
      fun case bound col colBound => ?_
    rw [Mat.rows_eq (gradientShape eta)] at bound
    rw [Mat.cols_eq (gradientShape eta)] at colBound
    rw [entry eta shape, entry other otherShape]
    by_cases listed : case ∈ indices
    · rw [get_gradient shape bound colBound, get_gradient otherShape bound colBound,
        slope_congr loss (agree case listed)]
    · rw [List.count_eq_zero_of_not_mem listed, Nat.cast_zero, zero_mul, zero_mul]

theorem exists_subsample (sized : loss.weights.size = loss.shape.rows) :
    (∃ chosen, loss.subsample indices = .ok chosen) ↔
      indices ≠ [] ∧ ∀ index ∈ indices, index < loss.shape.rows := by
  simp only [subsample_eq_ok, CaseWeights.select_eq_ok, sized]
  constructor
  · rintro ⟨_, _, ⟨listed, -⟩, -⟩
    exact listed
  · intro listed
    exact ⟨_, _, ⟨listed, rfl⟩, rfl⟩

theorem subsample_perm {other : List Nat} (perm : indices.Perm other)
    (selected : loss.subsample indices = .ok chosen) : loss.subsample other = .ok chosen := by
  obtain ⟨weights, selection, same⟩ := subsample_eq_ok.1 selected
  exact subsample_eq_ok.2 ⟨weights, CaseWeights.select_perm perm selection, same⟩

/-- A loss is the sum of the losses of its cases. A list of cases is refused if it is empty or if it names
a case that there is not, with the first such one as the reason. Any other list gives the loss that counts
the cases as often as it names them. The order does not matter, and of two lists one after the other the
counts are multiplied. -/
theorem subsample_resampled (constructed : loss.Constructed) (indices : List Nat) :
    (∀ eta : Mat ℝ, eta.shape = loss.shape →
      loss.value? eta = some (∑ case ∈ Finset.range loss.shape.rows, loss.caseLoss eta case)) ∧
    ((∃ chosen, loss.subsample indices = .ok chosen) ↔
      indices ≠ [] ∧ ∀ index ∈ indices, index < loss.shape.rows) ∧
    (indices = [] → loss.subsample indices = .error .emptySubsample) ∧
    (∀ before index after, indices = before ++ index :: after →
      (∀ case ∈ before, case < loss.shape.rows) → loss.shape.rows ≤ index →
        loss.subsample indices = .error (.caseOutOfRange index loss.shape.rows)) ∧
    ∀ chosen, loss.subsample indices = .ok chosen → Resampled loss indices chosen ∧
      (∀ other : List Nat, indices.Perm other → loss.subsample other = .ok chosen) ∧
      ∀ again : List Nat,
        ((∃ nested, chosen.subsample again = .ok nested) ↔
          again ≠ [] ∧ ∀ index ∈ again, index < loss.shape.rows) ∧
        ∀ nested, chosen.subsample again = .ok nested → ∀ case, nested.weights.getD case 0 =
          indices.count case * again.count case * loss.weights.getD case 0 := by
  have sound := constructed.sound
  have sized := CaseWeights.size_of_validate sound.weights
  refine ⟨fun eta shape => ?_, exists_subsample sized, ?_, ?_, fun chosen selected =>
    ⟨resampled sound.data sized selected, fun other perm => subsample_perm perm selected,
      fun again => ⟨?_, fun nested nestedSelected case => ?_⟩⟩⟩
  · rw [value?_eq_some sized shape, value_eq_sum sound.data shape]
  · rintro rfl
    rfl
  · rintro before index after rfl inside outside
    rw [← sized] at inside outside ⊢
    rw [subsample, CaseWeights.select_eq_error inside outside]
    rfl
  · rw [exists_subsample (sized_subsample sized selected), (resampled sound.data sized selected).shape]
  · obtain ⟨weights, selection, rfl⟩ := subsample_eq_ok.1 selected
    obtain ⟨nestedWeights, nestedSelection, rfl⟩ := subsample_eq_ok.1 nestedSelected
    rw [weights_withWeights] at nestedSelection ⊢
    rw [CaseWeights.getD_select nestedSelection, CaseWeights.getD_select selection, ← mul_assoc,
      mul_comm (again.count case : ℝ)]

end

theorem subsample_resampled_repeated :
    let response : Mat ℝ := .ofFn 3 1 fun row _ => row + 1
    let loss : Loss ℝ := .gaussian ⟨response, #[1, 2, 3]⟩
    let chosen : Loss ℝ := .gaussian ⟨response, #[0, 2, 6]⟩
    loss.Constructed ∧ loss.subsample [2, 1, 2] = .ok chosen ∧ loss.subsample [1, 2, 2] = .ok chosen ∧
      loss.subsample [2, 4, 3] = .error (.caseOutOfRange 4 3) ∧
      chosen.value? (.zero 3 1) = some 31 ∧
      ∃ nested, chosen.subsample [1, 1] = .ok nested ∧ nested.weights.getD 1 0 = 4 := by
  intro response loss chosen
  have valid : CaseWeights.validate #[1, 2, 3] 3 = (.ok () : Except (Failure ℝ) Unit) :=
    Failure.bind_eq_ok.2 ⟨(), rfl, Failure.unless_eq_ok.2 (by simp)⟩
  have constructed : loss.Constructed :=
    .weightedGaussian (Failure.bind_eq_ok.2 ⟨(), valid, rfl⟩)
  have selected : loss.subsample [2, 1, 2] = .ok chosen := by
    refine subsample_eq_ok.2 ⟨#[0, 2, 6], CaseWeights.select_eq_ok.2 ⟨⟨nofun, by decide⟩, ?_⟩, rfl⟩
    refine Array.ext rfl fun case bound _ => ?_
    have small : case < 3 := bound
    interval_cases case <;> norm_num [CaseWeights.repeated_eq_count, loss, weights]
  obtain ⟨-, -, -, -, accepted⟩ := subsample_resampled constructed [2, 1, 2]
  obtain ⟨counted, reordered, again⟩ := accepted chosen selected
  obtain ⟨-, -, -, refused, -⟩ := subsample_resampled constructed [2, 4, 3]
  obtain ⟨nested, nestedSelected⟩ := (again [1, 1]).1.2 ⟨nofun, by decide⟩
  refine ⟨constructed, selected, reordered _ (by decide), refused [2] 4 [3] rfl (by decide) (by decide), ?_,
    nested, nestedSelected, ?_⟩
  · rw [counted.value (.zero 3 1) rfl]
    norm_num [caseLoss, cost, Gaussian.cost_real, weights, loss, response, Mat.get_ofFn]
  · rw [(again [1, 1]).2 nested nestedSelected 1]
    norm_num [loss, weights]

end Loss

end GroupLasso
