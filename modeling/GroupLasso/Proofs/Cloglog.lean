import GroupLasso.Proofs.Tangent

/-!
Convexity of the complementary log-log loss. The negative logarithm of the probability of a success is
convex in the linear predictor, because the ratio that its derivative takes from the rate falls as the rate
grows. Where neither the cap on predictors nor the limit of the ratio acts, the loss therefore lies above
its tangents and its gradient is its derivative.
-/

namespace GroupLasso

open Scalar

theorem tangent_le_of_monotone {value slope : ℝ → ℝ}
    (derivative : ∀ point, HasDerivAt value (slope point) point) (grows : Monotone slope)
    (point other : ℝ) : value point + slope point * (other - point) ≤ value other := by
  have convex : ConvexOn ℝ Set.univ value := by
    refine Monotone.convexOn_univ_of_deriv (fun point => (derivative point).differentiableAt) ?_
    rwa [funext fun point => (derivative point).deriv]
  rcases lt_trichotomy point other with less | rfl | greater
  · have chord := convex.le_slope_of_hasDerivAt trivial trivial less (derivative point)
    rw [slope_def_field, le_div_iff₀ (sub_pos.2 less)] at chord
    linarith
  · rw [sub_self, mul_zero, add_zero]
  · have chord := convex.slope_le_of_hasDerivAt trivial trivial greater (derivative point)
    rw [slope_def_field, div_le_iff₀ (sub_pos.2 greater)] at chord
    linarith

namespace Cloglog

noncomputable def surprise (eta : ℝ) : ℝ := -Real.log (1 - Real.exp (-Real.exp eta))

noncomputable def ratio (rate : ℝ) : ℝ := rate / (Real.exp rate - 1)

theorem exp_sub_one_pos {rate : ℝ} (positive : 0 < rate) : 0 < Real.exp rate - 1 :=
  sub_pos.2 (Real.one_lt_exp_iff.2 positive)

theorem ratio_antitone {less more : ℝ} (positive : 0 < less) (ordered : less ≤ more) :
    ratio more ≤ ratio less := by
  rw [ratio, ratio, div_le_div_iff₀ (exp_sub_one_pos (positive.trans_le ordered))
    (exp_sub_one_pos positive)]
  have atMore := mul_le_mul_of_nonneg_left (exp_tangent less more) positive.le
  have atZero := mul_le_mul_of_nonneg_left (exp_tangent less 0) (sub_nonneg.2 ordered)
  rw [Real.exp_zero] at atZero
  linarith

theorem hasDerivAt_surprise (eta : ℝ) : HasDerivAt surprise (-ratio (Real.exp eta)) eta := by
  have positive : 0 < 1 - Real.exp (-Real.exp eta) :=
    sub_pos.2 (Real.exp_lt_one_iff.2 (neg_neg_of_pos (Real.exp_pos eta)))
  have rest := (((Real.hasDerivAt_exp eta).fun_neg.exp.const_sub 1).log positive.ne').fun_neg
  refine rest.congr_deriv ?_
  rw [ratio, Real.exp_neg]
  have grown := exp_sub_one_pos (Real.exp_pos eta)
  have := Real.exp_pos (Real.exp eta)
  rw [Real.exp_neg] at positive
  field_simp

theorem surprise_tangent (point other : ℝ) :
    surprise point - ratio (Real.exp point) * (other - point) ≤ surprise other := by
  have grows : Monotone fun eta => -ratio (Real.exp eta) := fun less more ordered =>
    neg_le_neg (ratio_antitone (Real.exp_pos less) (Real.exp_le_exp.2 ordered))
  have above := tangent_le_of_monotone hasDerivAt_surprise grows point other
  linarith

theorem continuous_ratio_exp : Continuous fun eta => ratio (Real.exp eta) := by
  unfold ratio
  exact Real.continuous_exp.div (by fun_prop) fun eta => (exp_sub_one_pos (Real.exp_pos eta)).ne'

def shifted {α : Type} [Scalar α] (loss : Cloglog α) (eta : Mat α) (case : Nat) : α :=
  match loss.offset with
  | some offset => eta.get case 0 + offset.getD case 0
  | none => eta.get case 0

def shift {α : Type} [Scalar α] (loss : Cloglog α) (case : Nat) : α :=
  match loss.offset with
  | some offset => offset.getD case 0
  | none => 0

/-- The predictors at which neither the cap nor the limit of the ratio acts. -/
def Regular (loss : Cloglog ℝ) (eta : Mat ℝ) : Prop :=
  eta.shape = (Loss.cloglog loss).shape ∧ ∀ case < loss.successes.size,
    Real.log (1 / 10 ^ 12) ≤ loss.shifted eta case ∧ loss.shifted eta case ≤ 700

section
variable {loss : Cloglog ℝ} {eta : Mat ℝ} {case : Nat}

theorem smallRate_real : (smallRate : ℝ) = 1 / 10 ^ 12 := by
  norm_num [smallRate]

theorem rate_eq (loss : Cloglog ℝ) (eta : Mat ℝ) (case : Nat) : loss.rate (eta.get case 0) case =
    Real.exp (smaller (loss.shifted eta case) etaMax) := rfl

theorem Regular.rate (regular : loss.Regular eta) (bound : case < loss.successes.size) :
    loss.rate (eta.get case 0) case = Real.exp (loss.shifted eta case) := by
  have below : loss.shifted eta case ≤ (etaMax : ℝ) := (regular.2 case bound).2
  rw [rate_eq, smaller, if_pos (.inl below)]

theorem caseLoss_of_rate {entry point : ℝ} (rate : loss.rate entry case = Real.exp point)
    (nonneg : 0 ≤ loss.successes.getD case 0) :
    loss.caseLoss entry case = loss.weights.getD case 0 *
      (loss.successes.getD case 0 * surprise point +
        (loss.trials.getD case 0 - loss.successes.getD case 0) * Real.exp point) := by
  have probability : -Scalar.expm1 (-Real.exp point) = 1 - Real.exp (-Real.exp point) := neg_sub _ _
  simp only [Cloglog.caseLoss, rate]
  rcases nonneg.eq_or_lt with none | some
  · rw [← none]
    ring
  · rw [if_pos some, probability, surprise]
    change _ * (-_ * Real.log _ + _) = _
    ring

theorem Regular.caseLoss (regular : loss.Regular eta) (bound : case < loss.successes.size)
    (nonneg : 0 ≤ loss.successes.getD case 0) :
    loss.caseLoss (eta.get case 0) case = loss.weights.getD case 0 *
      (loss.successes.getD case 0 * surprise (loss.shifted eta case) +
        (loss.trials.getD case 0 - loss.successes.getD case 0) *
          Real.exp (loss.shifted eta case)) :=
  caseLoss_of_rate (regular.rate bound) nonneg

theorem Regular.get_gradient (regular : loss.Regular eta) (bound : case < loss.successes.size) :
    (loss.gradient eta).get case 0 = loss.weights.getD case 0 *
      (-loss.successes.getD case 0 * ratio (Real.exp (loss.shifted eta case)) +
        (loss.trials.getD case 0 - loss.successes.getD case 0) *
          Real.exp (loss.shifted eta case)) := by
  have large : ¬ Real.exp (loss.shifted eta case) < smallRate := by
    rw [not_lt, smallRate_real, ← Real.exp_log (by norm_num : (0 : ℝ) < 1 / 10 ^ 12)]
    exact Real.exp_le_exp.2 (regular.2 case bound).1
  refine (Mat.get_ofFn _ bound one_pos).trans ?_
  simp only [regular.rate bound, if_neg large]
  rfl

theorem sum_caseLosses (loss : Cloglog ℝ) (entries : List ℝ) :
    Scalar.sum (loss.caseLosses entries) =
      ∑ case ∈ Finset.range entries.length, loss.caseLoss (entries.getD case 0) case := by
  have listed : loss.caseLosses entries =
      (List.range entries.length).map fun case => loss.caseLoss (entries.getD case 0) case := by
    apply List.ext_getElem
    · simp [caseLosses]
    · intro case bound _
      have inside : case < entries.length := by simpa [caseLosses] using bound
      simp [caseLosses, inside]
  rw [sum_real, listed]
  rfl

theorem value_real (loss : Cloglog ℝ) (eta : Mat ℝ) :
    loss.value eta = ∑ case ∈ Finset.range eta.rows, loss.caseLoss (eta.get case 0) case := by
  rw [value, sum_caseLosses, show eta.firstColumn.length = eta.rows by simp [Mat.firstColumn]]
  refine Finset.sum_congr rfl fun case member => ?_
  have bound : case < eta.rows := Finset.mem_range.1 member
  simp [Mat.firstColumn, bound]

theorem shifted_eq (loss : Cloglog ℝ) (eta : Mat ℝ) (case : Nat) :
    loss.shifted eta case = eta.get case 0 + loss.shift case := by
  unfold shifted shift
  cases loss.offset with
  | none => exact (add_zero _).symm
  | some offset => rfl

theorem shifted_line {point direction : Mat ℝ} (same : point.shape = direction.shape) (time : ℝ)
    (case : Nat) : loss.shifted (point.addScaled time direction) case =
      loss.shifted point case + time * direction.get case 0 := by
  rw [shifted_eq, shifted_eq, Mat.get_addScaled same, add_right_comm]

theorem shifted_sub (loss : Cloglog ℝ) (other point : Mat ℝ) (case : Nat) :
    loss.shifted other case - loss.shifted point case = other.get case 0 - point.get case 0 := by
  rw [shifted_eq, shifted_eq, add_sub_add_right_eq_sub]

theorem Regular.between {point other : Mat ℝ} (regular : loss.Regular point)
    (otherRegular : loss.Regular other) {time : ℝ} (nonneg : 0 ≤ time) (le_one : time ≤ 1) :
    loss.Regular (point.addScaled time (other.addScaled (-1) point)) := by
  have same : point.shape = (other.addScaled (-1) point).shape :=
    regular.1.trans otherRegular.1.symm
  refine ⟨regular.1, fun case bound => ?_⟩
  have mixed : loss.shifted (point.addScaled time (other.addScaled (-1) point)) case =
      (1 - time) * loss.shifted point case + time * loss.shifted other case := by
    rw [shifted_line same, Mat.get_addScaled (otherRegular.1.trans regular.1.symm)]
    linear_combination -time * loss.shifted_sub other point case
  obtain ⟨lower, upper⟩ := regular.2 case bound
  obtain ⟨otherLower, otherUpper⟩ := otherRegular.2 case bound
  rw [mixed]
  constructor
  · linarith [mul_le_mul_of_nonneg_left lower (sub_nonneg.2 le_one),
      mul_le_mul_of_nonneg_left otherLower nonneg]
  · linarith [mul_le_mul_of_nonneg_left upper (sub_nonneg.2 le_one),
      mul_le_mul_of_nonneg_left otherUpper nonneg]

section
variable (binomial : loss.Binomial) (weights : ∀ case, 0 ≤ loss.weights.getD case 0)

include binomial weights

theorem Regular.above {point other : Mat ℝ} (regular : loss.Regular point)
    (otherRegular : loss.Regular other) :
    loss.value point + (loss.gradient point).inner (other.addScaled (-1) point) ≤
      loss.value other := by
  have rows : point.rows = loss.successes.size := Mat.rows_eq regular.1
  have otherRows : other.rows = loss.successes.size := Mat.rows_eq otherRegular.1
  have gradientRows : (loss.gradient point).rows = loss.successes.size := rfl
  have gradientCols : (loss.gradient point).cols = 1 := rfl
  rw [value_real, value_real, Mat.inner_difference (otherRegular.1.trans regular.1.symm), rows,
    otherRows, gradientRows, gradientCols, ← Finset.sum_add_distrib]
  refine Finset.sum_le_sum fun case member => ?_
  have bound : case < loss.successes.size := Finset.mem_range.1 member
  rw [Finset.sum_range_one, regular.get_gradient bound, ← loss.shifted_sub,
    regular.caseLoss bound (binomial.nonneg case), otherRegular.caseLoss bound (binomial.nonneg case)]
  have successes := mul_le_mul_of_nonneg_left
    (surprise_tangent (loss.shifted point case) (loss.shifted other case)) (binomial.nonneg case)
  have failures := mul_le_mul_of_nonneg_left
    (exp_tangent (loss.shifted point case) (loss.shifted other case))
    (sub_nonneg.2 (binomial.le_trials case bound))
  have weighted := mul_le_mul_of_nonneg_left (add_le_add successes failures) (weights case)
  linarith

theorem convexOn : (Loss.cloglog loss).smooth.ConvexOn loss.Regular where
  shape regular := regular.1
  gradientShape _ := rfl
  above regular otherRegular := regular.above binomial weights otherRegular
  continuous {point direction} regular along row bound col colBound := by
    obtain rfl : col = 0 := Nat.lt_one_iff.1 colBound
    have same : point.shape = direction.shape := regular.1.trans along.symm
    have entry : ∀ time ∈ {time | loss.Regular (point.addScaled time direction)},
        ((Loss.cloglog loss).smooth.gradient (point.addScaled time direction)).get row 0 = _ :=
      fun time member => Regular.get_gradient member bound
    have start : loss.Regular (point.addScaled 0 direction) := by
      rwa [Mat.addScaled_zero same]
    -- The gradient jumps where the limit of the ratio sets in. Inside it is the continuous form.
    refine ContinuousWithinAt.congr ?_ entry (entry 0 start)
    simp only [shifted_line same]
    have line : Continuous fun time => loss.shifted point row + time * direction.get row 0 := by
      fun_prop
    have ratios := continuous_ratio_exp.comp line
    have rates := Real.continuous_exp.comp line
    exact (continuous_const.mul
      ((continuous_const.mul ratios).add (continuous_const.mul rates))).continuousWithinAt

end

/-- Where neither the cap nor the limit of the ratio acts, a loss as it is constructed lies above its
tangents and, on the segment between two predictors, below its chord, and the gradient is its derivative. -/
theorem regular_gradient (constructed : (Loss.cloglog loss).Constructed) {point other : Mat ℝ}
    (regular : loss.Regular point) (otherRegular : loss.Regular other) :
    loss.value point + (loss.gradient point).inner (other.addScaled (-1) point) ≤ loss.value other ∧
      (∀ time, 0 ≤ time → time ≤ 1 →
        loss.Regular (point.addScaled time (other.addScaled (-1) point)) ∧
          loss.value (point.addScaled time (other.addScaled (-1) point)) ≤
            (1 - time) * loss.value point + time * loss.value other) ∧
      HasDerivWithinAt (fun time => loss.value (point.addScaled time (other.addScaled (-1) point)))
        ((loss.gradient point).inner (other.addScaled (-1) point))
        {time | loss.Regular (point.addScaled time (other.addScaled (-1) point))} 0 := by
  have sound := constructed.sound
  have convex : (Loss.cloglog loss).smooth.ConvexOn loss.Regular :=
    convexOn sound.data (CaseWeights.nonneg_of_validate sound.weights)
  have along : (other.addScaled (-1) point).shape = (Loss.cloglog loss).smooth.shape :=
    otherRegular.1
  have finish : point.addScaled 1 (other.addScaled (-1) point) = other :=
    Mat.addScaled_difference (regular.1.trans otherRegular.1.symm)
  refine ⟨convex.above regular otherRegular, fun time nonneg le_one => ?_,
    convex.hasDerivWithinAt regular along⟩
  have middle := regular.between otherRegular nonneg le_one
  have chord := convex.le_chord regular along nonneg le_one middle (finish.symm ▸ otherRegular)
  rw [finish] at chord
  exact ⟨middle, chord⟩

end

theorem regular_gradient_weighted :
    let loss : Cloglog ℝ := ⟨#[1 / 2, 0], #[2, 1], some #[1, -1], #[1, 3]⟩
    let other : Mat ℝ := .ofFn 2 1 fun row _ => row
    (Loss.cloglog loss).Constructed ∧ loss.Regular (.zero 2 1) ∧ loss.Regular other ∧
      loss.value (.zero 2 1) +
        (loss.gradient (.zero 2 1)).inner (other.addScaled (-1) (.zero 2 1)) ≤ loss.value other := by
  intro loss other
  have built : ofTrials #[1 / 2, 0] #[2, 1] =
      .ok (⟨#[1 / 2, 0], #[2, 1], none, CaseWeights.unit 2⟩ : Cloglog ℝ) := by
    refine Failure.bind_eq_ok.2 ⟨(), rfl, ?_⟩
    norm_num [List.range_succ, isFinite]
    rfl
  have shifted : withOffset ⟨#[1 / 2, 0], #[2, 1], none, CaseWeights.unit 2⟩ #[1, -1] =
      .ok (⟨#[1 / 2, 0], #[2, 1], some #[1, -1], CaseWeights.unit 2⟩ : Cloglog ℝ) := rfl
  have accepted : CaseWeights.validate #[1, 3] 2 = (.ok () : Except (Failure ℝ) Unit) :=
    Failure.bind_eq_ok.2 ⟨(), rfl, Failure.unless_eq_ok.2 (by simp)⟩
  have weighted : Cloglog.weighted ⟨#[1 / 2, 0], #[2, 1], some #[1, -1], CaseWeights.unit 2⟩ #[1, 3] =
      .ok loss := Failure.bind_eq_ok.2 ⟨(), accepted, rfl⟩
  have constructed : (Loss.cloglog loss).Constructed :=
    .weightedCloglog (.offsetCloglog (.trials built) shifted) weighted
  have lower : Real.log (1 / 10 ^ 12) ≤ -1 := by
    rw [Real.log_le_iff_le_exp (by norm_num), Real.exp_neg, ← one_div]
    exact one_div_le_one_div_of_le (Real.exp_pos 1) (Real.exp_one_lt_three.le.trans (by norm_num))
  have offset : ∀ eta : Mat ℝ, loss.shifted eta 0 = eta.get 0 0 + 1 ∧
      loss.shifted eta 1 = eta.get 1 0 + -1 := fun _ => ⟨rfl, rfl⟩
  have inside : ∀ eta : Mat ℝ, eta.shape = ⟨2, 1⟩ → (∀ row < 2, 0 ≤ eta.get row 0) →
      (∀ row < 2, eta.get row 0 ≤ 1) → loss.Regular eta := by
    intro eta shape nonneg le_one
    refine ⟨shape, fun case (bound : case < 2) => ?_⟩
    have least := nonneg case bound
    have largest := le_one case bound
    interval_cases case
    · rw [(offset eta).1]
      constructor <;> linarith
    · rw [(offset eta).2]
      constructor <;> linarith
  have start : loss.Regular (.zero 2 1) := inside _ rfl (by simp) (by simp)
  have entry : ∀ row < 2, other.get row 0 = row := fun _ bound => Mat.get_ofFn _ bound one_pos
  have finish : loss.Regular other := by
    refine inside _ rfl (fun row bound => ?_) fun row bound => ?_
    · rw [entry row bound]
      exact row.cast_nonneg
    · rw [entry row bound]
      exact_mod_cast Nat.le_of_lt_succ bound
  exact ⟨constructed, start, finish, (regular_gradient constructed start finish).1⟩

end Cloglog

end GroupLasso
