import GroupLasso.Proofs.Passes
import GroupLasso.Proofs.Proximal
import GroupLasso.Proofs.Tangent

/-!
Where the null model stops being optimal. A point of a convex problem is a minimum exactly when no
direction gains more from the gradient than the penalty costs, so that for the solution without
penalized groups this is so exactly at and above the largest Lagrange value of interest.
-/

namespace GroupLasso

open Scalar Filter Topology

namespace Smooth.Convex

variable {smooth : Smooth ℝ} {cost : Mat ℝ → ℝ} {base : Mat ℝ}

theorem slope_nonneg (convex : smooth.Convex) {direction : Mat ℝ} (shape : base.shape = smooth.shape)
    (along : direction.shape = smooth.shape) {price : ℝ}
    (least : ∀ time > 0, smooth.value base ≤
      smooth.value (base.addScaled time direction) + time * price) :
    0 ≤ (smooth.gradient base).inner direction + price := by
  have start : base.addScaled 0 direction = base := Mat.addScaled_zero (shape.trans along.symm)
  have limit := (convex.hasDerivAt shape along).tendsto_slope_zero_right.add_const price
  refine ge_of_tendsto limit (eventually_nhdsWithin_of_forall fun time positive => ?_)
  have time_pos : 0 < time := positive
  have gain : 0 ≤ time⁻¹ * (smooth.value (base.addScaled time direction) + time * price -
      smooth.value base) := mul_nonneg (inv_nonneg.2 time_pos.le) (sub_nonneg.2 (least time time_pos))
  rw [zero_add, start, smul_eq_mul]
  calc 0 ≤ _ := gain
    _ = time⁻¹ * (smooth.value (base.addScaled time direction) - smooth.value base) +
          time⁻¹ * time * price := by ring
    _ = _ := by rw [inv_mul_cancel₀ time_pos.ne', one_mul]

theorem minimal_iff (convex : smooth.Convex) (shape : base.shape = smooth.shape)
    (linear : ∀ direction : Mat ℝ, direction.shape = smooth.shape → ∀ time ≥ 0,
      cost (base.addScaled time direction) = time * cost direction) :
    (∀ coef : Mat ℝ, coef.shape = smooth.shape →
        smooth.value base + cost base ≤ smooth.value coef + cost coef) ↔
      ∀ direction : Mat ℝ, direction.shape = smooth.shape →
        0 ≤ (smooth.gradient base).inner direction + cost direction := by
  have free : cost base = 0 := by
    have still := linear base shape 0 le_rfl
    rwa [Mat.addScaled_zero rfl, zero_mul] at still
  constructor
  · intro least direction along
    refine convex.slope_nonneg shape along fun time time_pos => ?_
    have bound := least (base.addScaled time direction) shape
    rwa [linear direction along time time_pos.le, free, add_zero] at bound
  · intro slopes coef coefShape
    have above := convex.above shape coefShape
    have slope := slopes (coef.addScaled (-1) base) coefShape
    have price := linear (coef.addScaled (-1) base) coefShape 1 zero_le_one
    rw [Mat.addScaled_difference (shape.trans coefShape.symm), one_mul] at price
    linarith

end Smooth.Convex

namespace Penalty

variable {penalty : Penalty ℝ} {base other : Mat ℝ}

theorem value_addScaled (shape : base.shape = other.shape)
    (null : ∀ group, penalty.isUnpenalized group = false → ∀ col, base.get group col = 0)
    {time : ℝ} (nonneg : 0 ≤ time) :
    penalty.value (base.addScaled time other) = time * penalty.value other := by
  rw [value_real, value_real, Finset.mul_sum]
  refine Finset.sum_congr rfl fun group _ => ?_
  simp only [Mat.get_addScaled shape]
  cases unpenalized : penalty.isUnpenalized group with
  | true =>
      obtain ⟨l1, l2⟩ : penalty.l1At group = 0 ∧ penalty.l2At group = 0 := by
        simpa [isUnpenalized] using unpenalized
      simp [l1, l2]
  | false =>
      have squares : ∑ col ∈ Finset.range penalty.shape.cols,
          time * other.get group col * (time * other.get group col) =
            time ^ 2 * ∑ col ∈ Finset.range penalty.shape.cols,
              other.get group col * other.get group col := by
        rw [Finset.mul_sum]
        exact Finset.sum_congr rfl fun col _ => by ring
      simp only [null group unpenalized, zero_add, abs_mul, abs_of_nonneg nonneg, ← Finset.mul_sum,
        squares, Real.sqrt_mul (sq_nonneg time), Real.sqrt_sq nonneg]
      ring

end Penalty

namespace Path

def smoothAt {α : Type} [Scalar α] (path : Path α) (lagrange : α) : Composed α :=
  ⟨path.loss, path.design, if 1 ≤ path.options.alpha then none else some ⟨path.ridgeDiag lagrange⟩⟩

section
variable {path : Path ℝ} {lagrange : ℝ} {coef : Mat ℝ}

theorem objectiveAt_eq : path.objectiveAt lagrange coef = (path.smoothAt lagrange).value coef +
    (path.penalty.withLagrange (path.options.alpha * lagrange)).value coef := by
  unfold objectiveAt smoothAt Composed.value
  split_ifs
  · rw [add_zero]
  · rfl

theorem gradient_smoothAt (wellFormed : path.WellFormed) (shape : coef.shape = path.shape) :
    (path.smoothAt lagrange).gradient coef =
      (path.fullGradient (path.design.dot coef)).add (path.ridgeGradient coef lagrange) := by
  unfold smoothAt Composed.gradient ridgeGradient
  split_ifs
  · exact (Mat.add_zero_entries _).symm
  · have extent : (path.ridgeDiag lagrange).shape = coef.shape :=
      (shape_ridgeDiag wellFormed).trans shape.symm
    have scaled : (⟨path.ridgeDiag lagrange⟩ : Ridge ℝ).gradient coef =
        (path.ridgeDiag lagrange).scaleEntries coef := by
      refine Mat.ext_get (Mat.rows_eq extent) (Mat.cols_eq extent) fun row _ col _ => ?_
      rw [Ridge.get_gradient, Mat.get_scaleEntries]
    simp only [scaled]
    rfl

theorem ridgeDiag_nonneg (alpha_le : path.options.alpha ≤ 1) (nonneg : 0 ≤ lagrange)
    (parameter : ∀ row col, 0 ≤ path.ridgeParameter.get row col) (row col : Nat) :
    0 ≤ (path.ridgeDiag lagrange).get row col := by
  by_cases inside : row < path.ridgeParameter.rows ∧ col < path.ridgeParameter.cols
  · unfold ridgeDiag Restriction.ridgeDiag
    rw [Mat.get_ofFn _ inside.1 inside.2]
    refine mul_nonneg (mul_nonneg (parameter row col) (sub_nonneg.2 alpha_le)) ?_
    split_ifs
    · exact nonneg
    · exact zero_le_one
  · have outside : path.ridgeParameter.rows ≤ row ∨ path.ridgeParameter.cols ≤ col := by omega
    exact (Mat.get_eq_zero outside : (path.ridgeDiag lagrange).get row col = 0).ge

theorem smoothAt_convex (wellFormed : path.WellFormed) (convex : path.loss.smooth.Convex)
    (parameter : ∀ row col, 0 ≤ path.ridgeParameter.get row col) (nonneg : 0 ≤ lagrange) :
    (path.smoothAt lagrange).smooth.Convex := by
  refine Composed.convex convex wellFormed.outputs fun ridge member => ?_
  unfold smoothAt at member
  split_ifs at member
  · cases member
  · cases member
    exact ⟨(shape_ridgeDiag wellFormed).trans wellFormed.inputs,
      ridgeDiag_nonneg wellFormed.alpha_le nonneg parameter⟩

theorem Fresh.minimal_iff (fresh : Fresh path) (convex : path.loss.smooth.Convex)
    (parameter : ∀ row col, 0 ≤ path.ridgeParameter.get row col) (nonneg : 0 ≤ lagrange) :
    (∀ coef : Mat ℝ, coef.shape = path.shape →
        path.objectiveAt lagrange path.solution ≤ path.objectiveAt lagrange coef) ↔
      ∀ group < path.groups, (path.penalty.withLagrange (path.options.alpha * lagrange)).InDualBall
        path.gradient group := by
  let penalty := path.penalty.withLagrange (path.options.alpha * lagrange)
  have wellFormed := fresh.wellFormed
  have inputs : path.shape = (path.smoothAt lagrange).smooth.shape := wellFormed.inputs
  have smooth := smoothAt_convex wellFormed convex parameter nonneg
  have gradient : (path.smoothAt lagrange).smooth.gradient path.solution = path.gradient := by
    rw [fresh.coherent.gradient lagrange (.inl rfl), fresh.predictor]
    exact gradient_smoothAt wellFormed fresh.shape
  have gradientShape : path.gradient.shape = penalty.shape :=
    gradient ▸ (smooth.shape path.solution).trans inputs.symm
  have shape : path.solution.shape = (path.smoothAt lagrange).smooth.shape :=
    fresh.shape.trans inputs
  have valid : penalty.Valid := by
    have accepts := wellFormed.accepts nonneg
    rwa [← wellFormed.inputs] at accepts
  have null : ∀ group, penalty.isUnpenalized group = false → ∀ col, path.solution.get group col = 0 :=
    fresh.support
  have linear : ∀ direction : Mat ℝ, direction.shape = (path.smoothAt lagrange).smooth.shape →
      ∀ time ≥ 0, penalty.value (path.solution.addScaled time direction) =
        time * penalty.value direction :=
    fun direction along time time_nonneg =>
      Penalty.value_addScaled (shape.trans along.symm) null time_nonneg
  have minimal := smooth.minimal_iff shape linear
  rw [gradient, ← inputs] at minimal
  simp only [objectiveAt_eq]
  exact minimal.trans (Penalty.inDualBall_iff valid gradientShape).symm

end

/-- On a path as it was built, with a convex loss and unpenalized groups that were solved exactly, the
solution without penalized groups minimizes the full objective exactly at the Lagrange values from the
largest one of interest on. -/
theorem null_minimal_iff {loss : Loss ℝ} {design : Design ℝ} {l1 l2 : Array ℝ}
    {ridgeParameter : Option (Mat ℝ)} {options : PathOptions ℝ} {path : Path ℝ} {lagrange : ℝ}
    (built : Path.build loss design l1 l2 ridgeParameter options = .ok path)
    (natural : loss.Natural)
    (exact : ∀ group < path.groups, path.penalty.isUnpenalized group = true →
      ∀ col, path.gradient.get group col = 0)
    (positive : 0 < lagrange) :
    (∀ coef : Mat ℝ, coef.shape = path.shape →
        path.objectiveAt lagrange path.solution ≤ path.objectiveAt lagrange coef) ↔
      path.lagrangeMax ≤ lagrange := by
  have fresh := build_fresh built
  have alpha_pos := fresh.wellFormed.alpha_pos
  have convex : path.loss.smooth.Convex := build_loss built ▸ natural.convex
  rw [fresh.minimal_iff convex (build_ridge_nonneg built) positive.le,
    lagrangeMax_le_iff fresh.wellFormed.weights alpha_pos positive.le]
  constructor
  · intro inside group bound _
    exact inside group bound
  · intro inside group bound
    cases unpenalized : path.penalty.isUnpenalized group with
    | false => exact inside group bound unpenalized
    | true => exact Penalty.inDualBall_unpenalized unpenalized (exact group bound unpenalized)

section
variable {path : Path ℝ} {groups : List Nat} {coef : Mat ℝ} {lagrange : ℝ}
  (wellFormed : path.WellFormed)
  (parameter : ∀ group, path.penalty.isUnpenalized group = true →
    ∀ col, path.ridgeParameter.get group col = 0)

include parameter in
theorem ridgeDiag_mul_null
    (null : ∀ group, path.penalty.isUnpenalized group = false → ∀ col, coef.get group col = 0)
    (group col : Nat) : (path.ridgeDiag lagrange).get group col * coef.get group col = 0 := by
  cases unpenalized : path.penalty.isUnpenalized group with
  | false => rw [null group unpenalized, mul_zero]
  | true =>
      by_cases inside : group < path.ridgeParameter.rows ∧ col < path.ridgeParameter.cols
      · have entry : (path.ridgeDiag lagrange).get group col = _ := Mat.get_ofFn _ inside.1 inside.2
        rw [entry, parameter group unpenalized, zero_mul, zero_mul, zero_mul]
      · have outside : path.ridgeParameter.rows ≤ group ∨ path.ridgeParameter.cols ≤ col := by omega
        have entry : (path.ridgeDiag lagrange).get group col = 0 := Mat.get_eq_zero outside
        rw [entry, zero_mul]

include parameter in
theorem ridgeGradient_null
    (null : ∀ group, path.penalty.isUnpenalized group = false → ∀ col, coef.get group col = 0)
    (full : Mat ℝ) : full.add (path.ridgeGradient coef lagrange) = full := by
  unfold ridgeGradient
  split_ifs
  · exact Mat.add_zero_entries full
  · refine Mat.ext_get rfl rfl fun group groupBound col colBound => ?_
    have entry : (full.add ((path.ridgeDiag lagrange).scaleEntries coef)).get group col = _ :=
      Mat.get_ofFn _ groupBound colBound
    rw [entry, Mat.get_scaleEntries, ridgeDiag_mul_null parameter null, add_zero]

theorem embed_null (unpenalized : ∀ group ∈ groups, path.penalty.isUnpenalized group = true)
    (distinct : groups.Nodup) (group : Nat) (penalized : path.penalty.isUnpenalized group = false)
    (col : Nat) : (path.embed groups coef).get group col = 0 := by
  refine Mat.get_embedded_unlisted coef distinct (fun listed => ?_) col
  exact Bool.false_ne_true (penalized.symm.trans (unpenalized group listed))

variable (unpenalized : ∀ group ∈ groups, path.penalty.isUnpenalized group = true)
  (distinct : groups.Nodup) (inRange : ∀ group ∈ groups, group < path.groups)
  (width : coef.cols = path.shape.cols)

include wellFormed parameter unpenalized distinct inRange width

theorem value_smoothOver_null : (path.smoothOver groups lagrange).value coef =
    path.loss.value (path.design.dot (path.embed groups coef)) := by
  have ridge : ∑ group ∈ Finset.range path.shape.rows, ∑ col ∈ Finset.range path.shape.cols,
      (path.ridgeDiag lagrange).get group col * (path.embed groups coef).get group col ^ 2 = 0 := by
    refine Finset.sum_eq_zero fun group _ => Finset.sum_eq_zero fun col _ => ?_
    rw [sq, ← mul_assoc, ridgeDiag_mul_null parameter (embed_null unpenalized distinct), zero_mul]
  rw [value_smoothOver wellFormed distinct inRange width, ridge, mul_zero, ite_self, add_zero]

theorem gradient_smoothOver_null : (path.smoothOver groups lagrange).gradient coef =
    (path.fullGradient (path.design.dot (path.embed groups coef))).selectRows groups := by
  rw [gradient_smoothOver wellFormed distinct inRange width,
    ridgeGradient_null parameter (embed_null unpenalized distinct)]

end

/-! Two cases and an intercept with one feature, which is one in the first case and else minus one. -/

section
variable {α : Type} [Scalar α]

def pairFeatures : Mat α := .ofFn 2 1 fun row _ => if row = 0 then 1 else -1

def pairPenalty : Penalty α := ⟨⟨2, 1⟩, #[0, 1], #[0, 0], 1⟩

def level (intercept : α) : Mat α := .ofFn 2 1 fun row _ => if row = 0 then intercept else 0

def flat (intercept : α) : Mat α := .ofFn 2 1 fun _ _ => intercept

def pairSlope (loss : Loss α) (intercept : α) : α :=
  (loss.gradient (flat intercept)).get 0 0 + (loss.gradient (flat intercept)).get 1 0

def pairStart (loss : Loss α) (options : PathOptions α) : Path α :=
  blank loss (.withIntercept pairFeatures 1) pairPenalty
    (.ofFn 2 1 fun group _ => if (pairPenalty : Penalty α).isUnpenalized group then 0 else 1) options

end

theorem pair_ext {coef other : Mat ℝ} (shape : coef.shape = ⟨2, 1⟩) (otherShape : other.shape = ⟨2, 1⟩)
    (first : coef.get 0 0 = other.get 0 0) (second : coef.get 1 0 = other.get 1 0) : coef = other := by
  have rows : coef.rows = 2 := Mat.rows_eq shape
  have cols : coef.cols = 1 := Mat.cols_eq shape
  refine Mat.ext_get (rows.trans (Mat.rows_eq otherShape).symm)
    (cols.trans (Mat.cols_eq otherShape).symm) fun row rowBound col colBound => ?_
  obtain rfl : col = 0 := by omega
  obtain rfl | rfl : row = 0 ∨ row = 1 := by omega
  · exact first
  · exact second

theorem pair_isUnpenalized {group : Nat} (bound : group < 2) :
    (pairPenalty : Penalty ℝ).isUnpenalized group = true ↔ group = 0 := by
  obtain rfl | rfl : group = 0 ∨ group = 1 := by omega
  · simp [pairPenalty, Penalty.isUnpenalized, Penalty.l1At, Penalty.l2At, IsZero]
  · simp [pairPenalty, Penalty.isUnpenalized, Penalty.l1At, Penalty.l2At, IsZero]

theorem pair_unpenalized : (pairPenalty : Penalty ℝ).unpenalized = [0] := by
  simp [pairPenalty, Penalty.unpenalized, Penalty.groups, Penalty.isUnpenalized, Penalty.l1At,
    Penalty.l2At, IsZero, List.range_succ]

theorem pair_valid : (pairPenalty : Penalty ℝ).Valid :=
  Penalty.valid_iff.2 (by simp [pairPenalty, Penalty.groups])

theorem pair_dot (intercept : ℝ) :
    (Design.withIntercept pairFeatures 1).dot (level intercept) = flat intercept := by
  refine pair_ext rfl rfl ?_ ?_ <;>
    simp [pairFeatures, level, flat, Design.withIntercept, Design.dot, Mat.mul, Mat.get_ofFn,
      Finset.sum_range_succ]

theorem pair_adjoint {output : Mat ℝ} (shape : output.shape = ⟨2, 1⟩) :
    (Design.withIntercept pairFeatures 1).adjoint output = .ofFn 2 1 fun row _ =>
      if row = 0 then output.get 0 0 + output.get 1 0 else output.get 0 0 - output.get 1 0 := by
  have cols : output.cols = 1 := Mat.cols_eq shape
  have extent : ((Design.withIntercept pairFeatures 1).adjoint output).shape = ⟨2, 1⟩ :=
    congrArg (Shape.mk 2) cols
  refine pair_ext extent rfl ?_ ?_ <;>
    simp [pairFeatures, Design.withIntercept, Design.adjoint, Mat.transposeMul, Mat.get_ofFn,
      Finset.sum_range_succ, cols, sub_eq_add_neg]

theorem pair_balanced {group col : Nat} {entry : ℝ} (bound : group < 2)
    (unpenalized : (pairPenalty : Penalty ℝ).isUnpenalized group = true) :
    (Mat.ofFn 2 1 fun row _ => if row = 0 then 0 else entry).get group col = 0 := by
  obtain rfl := (pair_isUnpenalized bound).1 unpenalized
  by_cases inside : col < 1
  · exact Mat.get_ofFn _ two_pos inside
  · exact Mat.get_eq_zero (.inr (not_lt.1 inside))

theorem pair_dualNorm (entry : ℝ) :
    (pairPenalty : Penalty ℝ).dualNorm (.ofFn 2 1 fun row _ => if row = 0 then 0 else entry) =
      |entry| := by
  let gradient : Mat ℝ := .ofFn 2 1 fun row _ => if row = 0 then 0 else entry
  have listed : (List.range 2).filter (fun group => !(pairPenalty : Penalty ℝ).isUnpenalized group) =
      [1] := by
    simp [pairPenalty, Penalty.isUnpenalized, Penalty.l1At, Penalty.l2At, IsZero, List.range_succ]
  have row : gradient.row 1 = [entry] := by
    simp [gradient, Mat.row, Mat.get_ofFn]
  have found : (pairPenalty : Penalty ℝ).gauge gradient 1 = |entry| := by
    rw [Penalty.gauge, row]
    exact unit_gauge entry
  rw [Penalty.dualNorm, show (pairPenalty : Penalty ℝ).groups = 2 from rfl, listed]
  simp [found, gradient]

section
variable {loss : Loss ℝ} {options : PathOptions ℝ} {lagrange : ℝ}

theorem pairStart_wellFormed (valid : options.Valid) (shape : loss.shape = ⟨2, 1⟩) :
    (pairStart loss options).WellFormed :=
  ⟨shape, rfl, pair_valid, rfl, valid.alpha.1, valid.alpha.2⟩

theorem pair_parameter (group : Nat)
    (unpenalized : (pairPenalty : Penalty ℝ).isUnpenalized group = true) (col : Nat) : (pairStart loss options).ridgeParameter.get group col = 0 := by
  by_cases inside : group < 2 ∧ col < 1
  · exact (Mat.get_ofFn _ inside.1 inside.2).trans (if_pos unpenalized)
  · exact Mat.get_eq_zero (show 2 ≤ group ∨ 1 ≤ col by omega)

theorem pair_embed (intercept : ℝ) :
    (Mat.zero 2 1).scatterRows [0] (.ofFn 1 1 fun _ _ => intercept) = level intercept := by
  have inside : ∀ group ∈ [0], group < 2 := by simp
  refine pair_ext rfl rfl ?_ ?_
  · have listed : ((Mat.zero 2 1).scatterRows [0] (.ofFn 1 1 fun _ _ => intercept)).get 0 0 = _ :=
      Mat.get_embedded _ (List.nodup_singleton 0) inside rfl Nat.one_pos 0
    exact listed.trans (by simp [level, Mat.get_ofFn])
  · have unlisted : ((Mat.zero 2 1).scatterRows [0] (.ofFn 1 1 fun _ _ => intercept)).get 1 0 = 0 :=
      Mat.get_embedded_unlisted _ (List.nodup_singleton 0) (by simp) 0
    exact unlisted.trans (by simp [level, Mat.get_ofFn])

theorem pair_coefs : ((pairStart loss options).restrictedProblem [0] lagrange).coefs =
    .ofFn 1 1 fun _ _ => 0 := by
  refine unit_ext rfl rfl ?_
  change ((Mat.zero 2 1).selectRows [0]).get 0 0 = _
  rw [Mat.get_selectRows _ Nat.one_pos, Mat.get_zero, Mat.get_ofFn _ one_pos one_pos]

theorem pair_value (valid : options.Valid) (shape : loss.shape = ⟨2, 1⟩) (intercept : ℝ) :
    ((pairStart loss options).smoothOver [0] lagrange).value (.ofFn 1 1 fun _ _ => intercept) =
      loss.value (flat intercept) := by
  have free : ∀ group ∈ [0], (pairPenalty : Penalty ℝ).isUnpenalized group = true := by
    simp [pair_isUnpenalized]
  rw [value_smoothOver_null (pairStart_wellFormed valid shape) pair_parameter free
    (List.nodup_singleton 0) (by simp [pairStart, blank, groups, pairPenalty, Penalty.groups]) rfl]
  change loss.value ((Design.withIntercept pairFeatures 1).dot
    ((Mat.zero 2 1).scatterRows [0] (.ofFn 1 1 fun _ _ => intercept))) = _
  rw [pair_embed, pair_dot]

theorem pair_gradient (valid : options.Valid) (shape : loss.shape = ⟨2, 1⟩) (intercept : ℝ) :
    ((pairStart loss options).smoothOver [0] lagrange).gradient (.ofFn 1 1 fun _ _ => intercept) =
      .ofFn 1 1 fun _ _ =>
        (loss.gradient (flat intercept)).get 0 0 + (loss.gradient (flat intercept)).get 1 0 := by
  have free : ∀ group ∈ [0], (pairPenalty : Penalty ℝ).isUnpenalized group = true := by
    simp [pair_isUnpenalized]
  rw [gradient_smoothOver_null (pairStart_wellFormed valid shape) pair_parameter free
    (List.nodup_singleton 0) (by simp [pairStart, blank, groups, pairPenalty, Penalty.groups]) rfl]
  have gradientShape := (loss.shape_gradient (flat intercept)).trans shape
  change (((Design.withIntercept pairFeatures 1).adjoint (loss.gradient
    ((Design.withIntercept pairFeatures 1).dot
      ((Mat.zero 2 1).scatterRows [0] (.ofFn 1 1 fun _ _ => intercept))))).selectRows [0]) = _
  rw [pair_embed, pair_dot, pair_adjoint gradientShape]
  refine unit_ext rfl rfl ?_
  rw [Mat.get_selectRows _ Nat.one_pos]
  simp [Mat.get_ofFn]

theorem pair_free (radius : ℝ) (coef : Mat ℝ) :
    (((pairPenalty : Penalty ℝ).withLagrange radius).over [0]).value coef = 0 := by
  rw [Penalty.value_real]
  simp [Penalty.over, Penalty.withLagrange, pairPenalty, Penalty.groups, Penalty.l1At, Penalty.l2At]

theorem pair_candidate (valid : options.Valid) (shape : loss.shape = ⟨2, 1⟩) (nonneg : 0 ≤ lagrange)
    {step : ℝ} (positive : 0 < step) (intercept : ℝ) :
    let problem := (pairStart loss options).restrictedProblem [0] lagrange
    problem.candidate (.ofFn 1 1 fun _ _ => intercept)
      (problem.smooth.gradient (.ofFn 1 1 fun _ _ => intercept)) step =
        .ofFn 1 1 fun _ _ => intercept - step * pairSlope loss intercept := by
  intro problem
  have weights : problem.penalty.Valid :=
    Penalty.valid_over ((pairStart_wellFormed valid shape).scaled nonneg)
  have gradient : problem.smooth.gradient (.ofFn 1 1 fun _ _ => intercept) = _ :=
    pair_gradient valid shape intercept
  rw [gradient]
  refine (Penalty.proximal_of_free weights (pair_free _) rfl positive.le).trans ?_
  refine unit_ext rfl rfl ?_
  simp [Mat.addScaled, Mat.get_ofFn, pairSlope, sub_eq_add_neg]

/-- One step from zero reaches an intercept from which the two cases pull with equal forces. -/
structure Balanced (loss : Loss ℝ) (step intercept force : ℝ) : Prop where
  shape : loss.shape = ⟨2, 1⟩
  step_pos : 0 < step
  reached : intercept = -(step * pairSlope loss 0)
  gained : loss.value (flat intercept) ≤ loss.value (flat 0) - intercept ^ 2 / (2 * step)
  first : (loss.gradient (flat intercept)).get 0 0 = -force
  second : (loss.gradient (flat intercept)).get 1 0 = force
  force_nonneg : 0 ≤ force

namespace Balanced

variable {step intercept force : ℝ} (balanced : Balanced loss step intercept force)
  (valid : options.Valid) (stepped : options.initialStep = some step)
  (budget : 2 ≤ options.maxIterations)

include balanced

theorem slope : pairSlope loss intercept = 0 := by
  rw [pairSlope, balanced.first, balanced.second, neg_add_cancel]

theorem bound : Problem.bound (loss.value (flat 0)) (.ofFn 1 1 fun _ _ => pairSlope loss 0)
    ((Mat.ofFn 1 1 fun _ _ => intercept).addScaled (-1) (.ofFn 1 1 fun _ _ => 0)) step =
      loss.value (flat 0) - intercept ^ 2 / (2 * step) := by
  have step_pos := balanced.step_pos
  have slope : pairSlope loss 0 = -(intercept / step) := by
    rw [balanced.reached]
    field_simp
  rw [bound_entry rfl rfl, slope]
  simp only [Mat.get_ofFn _ one_pos one_pos]
  field_simp
  ring

theorem gradient {path : Path ℝ} (same : SameModel (pairStart loss options) path) (fresh : Fresh path)
    (leveled : path.solution = level intercept) :
    path.gradient = .ofFn 2 1 fun row _ => if row = 0 then 0 else -2 * force := by
  have shape := (loss.shape_gradient (flat intercept)).trans balanced.shape
  have parameter : ∀ group, path.penalty.isUnpenalized group = true →
      ∀ col, path.ridgeParameter.get group col = 0 := by
    rw [same.penalty, same.ridgeParameter]
    exact pair_parameter
  have design : path.design = .withIntercept pairFeatures 1 := same.design
  have sameLoss : path.loss = loss := same.loss
  rw [fresh.gradient, ridgeGradient_null parameter fresh.support, fullGradient, fresh.predictor, leveled,
    design, sameLoss, pair_dot, pair_adjoint shape, balanced.first, balanced.second]
  congr 1
  funext row _
  split_ifs <;> ring

include valid stepped budget

theorem solve (nonneg : 0 ≤ lagrange) :
    (((pairStart loss options).restrictedProblem [0] lagrange).solve
      ((pairStart loss options).request options.nullSolve)).1 =
        .ok (.ofFn 1 1 fun _ _ => intercept) := by
  let problem := (pairStart loss options).restrictedProblem [0] lagrange
  let request := (pairStart loss options).request options.nullSolve
  have starting : problem.startingStep request = step := by
    simp [Problem.startingStep, request, Path.request, PathOptions.nullSolve, PathOptions.solve, stepped,
      balanced.step_pos]
  have coefs : problem.coefs = .ofFn 1 1 fun _ _ => 0 := pair_coefs
  have moves : ∀ entry : ℝ, problem.candidate (.ofFn 1 1 fun _ _ => entry)
      (problem.smooth.gradient (.ofFn 1 1 fun _ _ => entry)) step =
        .ofFn 1 1 fun _ _ => entry - step * pairSlope loss entry :=
    pair_candidate valid balanced.shape nonneg balanced.step_pos
  have value : ∀ entry : ℝ,
      problem.smooth.value (.ofFn 1 1 fun _ _ => entry) = loss.value (flat entry) :=
    pair_value valid balanced.shape
  have objective : ∀ entry : ℝ,
      problem.objective (.ofFn 1 1 fun _ _ => entry) = loss.value (flat entry) := by
    intro entry
    rw [Problem.objective, value, show problem.penalty.value _ = 0 from pair_free _ _, add_zero]
  have gradient : problem.smooth.gradient (.ofFn 1 1 fun _ _ => 0) =
      .ofFn 1 1 fun _ _ => pairSlope loss 0 :=
    pair_gradient valid balanced.shape 0
  refine Problem.solve_of_exact budget valid.nullTolerance.le ?_ ?_ ?_ ?_
  · rw [Problem.firstCandidate, starting, coefs, moves, zero_sub, ← balanced.reached]
  · rw [starting, coefs, value, gradient]
    refine Problem.accepts_of_le ?_
    rw [balanced.bound, value]
    exact balanced.gained
  · rw [coefs, objective, objective]
    refine balanced.gained.trans (sub_le_self _ ?_)
    exact div_nonneg (sq_nonneg intercept) (mul_pos two_pos balanced.step_pos).le
  · rw [starting, moves, balanced.slope, mul_zero, sub_zero]

theorem build (unmixed : options.l1Share = none) : ∃ path,
    Path.build loss (.withIntercept pairFeatures 1) #[0, 1] #[0, 0] none options = .ok path ∧
      path.penalty = pairPenalty ∧ path.solution = level intercept ∧
      (∀ group < path.groups, path.penalty.isUnpenalized group = true →
        ∀ col, path.gradient.get group col = 0) ∧
      path.lagrangeMax = 2 * force / options.alpha := by
  have nonneg : (0 : ℝ) ≤ nullLagrange := by norm_num [nullLagrange]
  have inRange : ∀ group ∈ [0], group < (pairStart loss options).groups := by
    simp [pairStart, blank, groups, pairPenalty, Penalty.groups]
  have solved := solveSubproblem_eq (pairStart_wellFormed valid balanced.shape) nonneg
    (List.nodup_singleton 0) inRange rfl (List.cons_ne_nil 0 []) options.nullSolve
  rw [balanced.solve valid stepped budget nonneg, ← pair_unpenalized] at solved
  have accepted : Penalty.ofWeights (Design.withIntercept (pairFeatures : Mat ℝ) 1).inputShape
      (#[0, 1] : Array ℝ) #[0, 0] 1 = .ok pairPenalty := Penalty.ofWeights_eq_ok.2 ⟨rfl, pair_valid⟩
  have outputs : loss.shape = (Design.withIntercept (pairFeatures : Mat ℝ) 1).outputShape :=
    balanced.shape
  have listed : (pairPenalty : Penalty ℝ).unpenalized ≠ [] := by simp [pair_unpenalized]
  obtain ⟨path, built, same, solution⟩ := build_of_solved (PathOptions.validate_eq_ok.2 valid) unmixed
    outputs accepted listed solved
  rw [pair_unpenalized] at solution
  have leveled : path.solution = level intercept := solution.trans (pair_embed intercept)
  have gradient := balanced.gradient same (build_fresh built) leveled
  have penalty : path.penalty = pairPenalty := same.penalty
  have settings : path.options = options := same.options
  refine ⟨path, built, penalty, leveled, ?_, ?_⟩
  · rw [groups, penalty, gradient]
    exact fun group bound unpenalized col => pair_balanced bound unpenalized
  · have force_nonneg : 0 ≤ 2 * force := mul_nonneg two_pos.le balanced.force_nonneg
    rw [lagrangeMax, penalty, settings, gradient, pair_dualNorm, neg_mul, abs_neg,
      abs_of_nonneg force_nonneg]

end Balanced

end

def pairLoss {α : Type} [Scalar α] : Loss α :=
  .gaussian (.ofResponse (.ofFn 2 1 fun row _ => if row = 0 then 2 else 0))

theorem pairLoss_gradient (intercept : ℝ) : pairLoss.gradient (flat intercept) =
    .ofFn 2 1 fun row _ => if row = 0 then intercept - 2 else intercept := by
  refine pair_ext rfl rfl ?_ ?_ <;>
    simp [pairLoss, flat, Loss.gradient, Gaussian.gradient, Gaussian.ofResponse, CaseWeights.unit,
      Mat.get_ofFn]

theorem pairLoss_value (intercept : ℝ) :
    pairLoss.value (flat intercept) = ((intercept - 2) ^ 2 + intercept ^ 2) / 2 := by
  simp [pairLoss, flat, Loss.value, Gaussian.value, Gaussian.ofResponse, CaseWeights.unit, Mat.get_ofFn,
    Finset.sum_range_succ]
  ring

theorem pairLoss_balanced : Balanced pairLoss (1 / 2) 1 1 where
  shape := rfl
  step_pos := one_half_pos
  reached := by norm_num [pairSlope, pairLoss_gradient, Mat.get_ofFn]
  gained := by norm_num [pairLoss_value]
  first := by norm_num [pairLoss_gradient, Mat.get_ofFn]
  second := by norm_num [pairLoss_gradient, Mat.get_ofFn]
  force_nonneg := zero_le_one

/-- With responses two and zero the intercept is one. It minimizes the objective alone at Lagrange value
four but not at three. -/
theorem null_minimal_iff_ridge :
    let options : PathOptions ℝ := { PathOptions.elasticNet (1 / 2) with initialStep := some (1 / 2) }
    ∃ path : Path ℝ, Path.build pairLoss (.withIntercept pairFeatures 1) #[0, 1] #[0, 0] none options =
        .ok path ∧ (pairLoss : Loss ℝ).Natural ∧
      (∀ group < path.groups, path.penalty.isUnpenalized group = true →
        ∀ col, path.gradient.get group col = 0) ∧
      path.penalty.unpenalized = [0] ∧ path.solution = level 1 ∧ path.lagrangeMax = 4 ∧
      (0 : ℝ) < 4 ∧ (∀ coef : Mat ℝ, coef.shape = path.shape →
        path.objectiveAt 4 path.solution ≤ path.objectiveAt 4 coef) ∧
      (0 : ℝ) < 3 ∧ ∃ coef : Mat ℝ, coef.shape = path.shape ∧
        path.objectiveAt 3 coef < path.objectiveAt 3 path.solution := by
  intro options
  have mixed : (PathOptions.elasticNet (1 / 2) : PathOptions ℝ).Valid :=
    PathOptions.valid_elasticNet one_half_pos one_half_lt_one.le
  have valid : options.Valid :=
    { mixed with initialStep := fun step chosen => Option.some.inj chosen ▸ one_half_pos }
  obtain ⟨path, built, penalty, solution, exact, lagrangeMax⟩ :=
    pairLoss_balanced.build valid rfl (by norm_num [options, PathOptions.elasticNet, PathOptions.default]) rfl
  have natural : (pairLoss : Loss ℝ).Natural := CaseWeights.validate_unit 2
  have largest : path.lagrangeMax = 4 := by
    rw [lagrangeMax]
    norm_num [options, PathOptions.elasticNet]
  have least := (null_minimal_iff built natural exact (show (0 : ℝ) < 4 by norm_num)).2 largest.le
  have misses := mt (null_minimal_iff built natural exact (show (0 : ℝ) < 3 by norm_num)).1
    (by norm_num [largest])
  push Not at misses
  exact ⟨path, built, natural, exact, penalty ▸ pair_unpenalized, solution, largest, by norm_num, least,
    by norm_num, misses⟩

end Path

end GroupLasso
