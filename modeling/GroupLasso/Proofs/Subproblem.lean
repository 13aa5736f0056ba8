import GroupLasso.Path.Build
import GroupLasso.Proofs.Optimality
import GroupLasso.Proofs.Restriction

/-!
The restricted problems of a path. For every list of distinct groups, the problem over them is the
full problem at the embedded coefficients, so that the gradient which the optimality checks read is
the gradient of the full problem at the solution put among all groups.
-/

namespace GroupLasso

open Scalar

namespace Path

/-- The parts of a path fit together, as they do in every path that was built. -/
structure WellFormed (path : Path ℝ) : Prop where
  outputs : path.loss.shape = path.design.outputShape
  inputs : path.penalty.shape = path.design.inputShape
  weights : path.penalty.Valid
  ridge : path.ridgeParameter.shape = path.penalty.shape
  alpha_pos : 0 < path.options.alpha
  alpha_le : path.options.alpha ≤ 1

def embed {α : Type} [Scalar α] (path : Path α) (groups : List Nat) (coef : Mat α) : Mat α :=
  (Mat.zero path.shape.rows path.shape.cols).scatterRows groups coef

def smoothOver {α : Type} [Scalar α] (path : Path α) (groups : List Nat) (lagrange : α) :
    Composed α :=
  ⟨path.loss, path.design.restrict groups,
    Restriction.ridge path.ridgeParameter path.penalty.penalizedMask lagrange path.options.alpha
      groups⟩

section
variable {path : Path ℝ} {groups : List Nat} {coef : Mat ℝ} {lagrange : ℝ}

theorem WellFormed.accepts (wellFormed : path.WellFormed) (nonneg : 0 ≤ lagrange) :
    (⟨path.design.inputShape, path.penalty.l1, path.penalty.l2, path.options.alpha * lagrange⟩ :
      Penalty ℝ).Valid := by
  have weights := wellFormed.weights
  have rows : path.penalty.groups = path.design.inputShape.rows :=
    congrArg Shape.rows wellFormed.inputs
  exact ⟨weights.l1_size.trans rows, weights.l2_size.trans rows, weights.l1_nonneg,
    weights.l2_nonneg, mul_nonneg wellFormed.alpha_pos.le nonneg⟩

theorem problem_eq_ok (wellFormed : path.WellFormed) (nonneg : 0 ≤ lagrange)
    (distinct : groups.Nodup) (inRange : ∀ group ∈ groups, group < path.groups) :
    ∃ mask, Restriction.problem path.design path.loss (path.options.alpha * lagrange)
      path.penalty.l1 path.penalty.l2 groups =
        .ok ⟨⟨path.loss, path.design.restrict groups, none⟩,
          (path.penalty.withLagrange (path.options.alpha * lagrange)).over groups, mask⟩ := by
  have scaled : path.penalty.withLagrange (path.options.alpha * lagrange) =
      ⟨path.design.inputShape, path.penalty.l1, path.penalty.l2,
        path.options.alpha * lagrange⟩ := by
    rw [Penalty.withLagrange, wellFormed.inputs]
  rw [scaled]
  apply Restriction.problem_eq_ok wellFormed.outputs (wellFormed.accepts nonneg) distinct
  intro group member
  exact wellFormed.inputs ▸ inRange group member

theorem dot_smoothOver (lagrange : ℝ) (distinct : groups.Nodup)
    (inRange : ∀ group ∈ groups, group < path.groups) (width : coef.cols = path.shape.cols) :
    (path.smoothOver groups lagrange).design.dot coef = path.design.dot (path.embed groups coef) :=
  Design.dot_restrict path.design distinct inRange width

theorem shape_ridgeDiag (wellFormed : path.WellFormed) :
    (path.ridgeDiag lagrange).shape = path.shape := wellFormed.ridge

theorem value_smoothOver (wellFormed : path.WellFormed) (distinct : groups.Nodup)
    (inRange : ∀ group ∈ groups, group < path.groups) (width : coef.cols = path.shape.cols) :
    (path.smoothOver groups lagrange).value coef =
      path.loss.value (path.design.dot (path.embed groups coef)) +
        if path.options.alpha < 1 then
          1 / 2 * ∑ group ∈ Finset.range path.shape.rows, ∑ col ∈ Finset.range path.shape.cols,
            (path.ridgeDiag lagrange).get group col * (path.embed groups coef).get group col ^ 2
        else 0 := by
  have predictor := dot_smoothOver lagrange distinct inRange width
  unfold Composed.value
  rw [predictor]
  by_cases mixed : path.options.alpha < 1
  · rw [if_pos mixed]
    simp only [smoothOver, Restriction.ridge, if_neg mixed.not_ge]
    congr 1
    exact Ridge.value_selectRows distinct inRange width (shape_ridgeDiag wellFormed)
  · rw [if_neg mixed]
    simp only [smoothOver, Restriction.ridge, if_pos (not_lt.1 mixed), add_zero]

theorem gradient_smoothOver (wellFormed : path.WellFormed) (distinct : groups.Nodup)
    (inRange : ∀ group ∈ groups, group < path.groups) (width : coef.cols = path.shape.cols) :
    (path.smoothOver groups lagrange).gradient coef =
      ((path.fullGradient (path.design.dot (path.embed groups coef))).add
        (path.ridgeGradient (path.embed groups coef) lagrange)).selectRows groups := by
  have predictor := dot_smoothOver lagrange distinct inRange width
  have inputs : path.shape.rows = path.design.inputShape.rows :=
    congrArg Shape.rows wellFormed.inputs
  have inputRange : ∀ group ∈ groups, group < path.design.inputShape.rows :=
    fun group member => inputs ▸ inRange group member
  have loss : (path.smoothOver groups lagrange).design.adjoint
      (path.loss.gradient (path.design.dot (path.embed groups coef))) =
        (path.fullGradient (path.design.dot (path.embed groups coef))).selectRows groups :=
    Design.adjoint_restrict path.design _ inputRange
  unfold Composed.gradient
  rw [predictor]
  by_cases mixed : path.options.alpha < 1
  · have fullRange : ∀ group ∈ groups,
        group < (path.fullGradient (path.design.dot (path.embed groups coef))).rows :=
      fun group member => (Design.rows_adjoint path.design _).symm ▸ inputRange group member
    rw [ridgeGradient, if_neg mixed.not_ge, Mat.selectRows_add _ _ fullRange]
    simp only [smoothOver, Restriction.ridge, if_neg mixed.not_ge] at loss ⊢
    rw [loss]
    congr 1
    exact Ridge.gradient_selectRows distinct inRange width (shape_ridgeDiag wellFormed)
  · rw [ridgeGradient, if_pos (not_lt.1 mixed), Mat.add_zero_entries]
    simp only [smoothOver, Restriction.ridge, if_pos (not_lt.1 mixed)] at loss ⊢
    exact loss

theorem withRidge_smoothOver (groups : List Nat) (lagrange : ℝ) (wellFormed : path.WellFormed) :
    (match Restriction.ridge path.ridgeParameter path.penalty.penalizedMask lagrange
        path.options.alpha groups with
      | some ridge => (⟨path.loss, path.design.restrict groups, none⟩ : Composed ℝ).withRidge ridge
      | none => .ok ⟨path.loss, path.design.restrict groups, none⟩) =
        (.ok (path.smoothOver groups lagrange) : Except (Failure ℝ) (Composed ℝ)) := by
  by_cases mixed : path.options.alpha < 1
  · have cols : path.ridgeParameter.cols = path.design.responses :=
      (Mat.cols_eq wellFormed.ridge).trans (congrArg Shape.cols wellFormed.inputs)
    have fits : (path.design.restrict groups).inputShape =
        ((path.ridgeDiag lagrange).selectRows groups).shape := by
      rw [Design.inputShape_restrict, ← cols]
      rfl
    simp only [smoothOver, Restriction.ridge, if_neg mixed.not_ge, Composed.withRidge]
    rw [Failure.bind_eq_ok]
    exact ⟨(), Failure.expectShape_eq_ok.2 fits, rfl⟩
  · simp only [smoothOver, Restriction.ridge, if_pos (not_lt.1 mixed)]

/-- A restricted problem, with its ridge term, is the full problem at some embedded coefficients. -/
structure Agrees (path : Path ℝ) (groups : List Nat) (lagrange : ℝ) (coef full : Mat ℝ)
    (problem : RestrictedProblem ℝ) (smooth : Composed ℝ) : Prop where
  built : Restriction.problem path.design path.loss (path.options.alpha * lagrange) path.penalty.l1
    path.penalty.l2 groups = .ok problem
  ridged : (match Restriction.ridge path.ridgeParameter path.penalty.penalizedMask lagrange
      path.options.alpha groups with
    | some ridge => problem.smooth.withRidge ridge
    | none => .ok problem.smooth) = .ok smooth
  predictor : smooth.design.dot coef = path.design.dot full
  value : smooth.value coef = path.loss.value (path.design.dot full) +
    if path.options.alpha < 1 then
      1 / 2 * ∑ group ∈ Finset.range path.shape.rows, ∑ col ∈ Finset.range path.shape.cols,
        (path.ridgeDiag lagrange).get group col * full.get group col ^ 2
    else 0
  gradient : smooth.gradient coef = ((path.fullGradient (path.design.dot full)).add
    (path.ridgeGradient full lagrange)).selectRows groups
  penalty : problem.penalty.value coef =
    (path.penalty.withLagrange (path.options.alpha * lagrange)).value full

/-- The problem over any list of distinct groups, in any order, can be built and is the full problem
at the coefficients scattered to those groups. -/
theorem restriction_agrees (wellFormed : path.WellFormed) (nonneg : 0 ≤ lagrange)
    (distinct : groups.Nodup) (inRange : ∀ group ∈ groups, group < path.groups)
    (shape : coef.shape = ⟨groups.length, path.shape.cols⟩) :
    ∃ problem smooth, path.Agrees groups lagrange coef
      ((Mat.zero path.shape.rows path.shape.cols).scatterRows groups coef) problem smooth := by
  have width : coef.cols = path.shape.cols := by rw [Mat.cols_eq shape]
  obtain ⟨mask, built⟩ := problem_eq_ok wellFormed nonneg distinct inRange
  exact ⟨_, path.smoothOver groups lagrange, built, withRidge_smoothOver groups lagrange wellFormed,
    dot_smoothOver lagrange distinct inRange width,
    value_smoothOver wellFormed distinct inRange width,
    gradient_smoothOver wellFormed distinct inRange width,
    Penalty.value_over distinct inRange width⟩

theorem restriction_agrees_reversed :
    let path : Path ℝ := blank (.gaussian (.ofResponse (.ofFn 1 1 fun _ _ => 1)))
      (.dense (.ofFn 1 2 fun _ col => if col = 0 then 1 else 2) 1) ⟨⟨2, 1⟩, #[1, 1], #[1, 0], 1⟩
      (.ofFn 2 1 fun _ _ => 1) (.elasticNet (1 / 2))
    let coef : Mat ℝ := .ofFn 2 1 fun row _ => if row = 0 then 3 else 4
    path.WellFormed ∧ (0 : ℝ) ≤ 3 ∧ [1, 0].Nodup ∧ (∀ group ∈ [1, 0], group < path.groups) ∧
      coef.shape = ⟨2, path.shape.cols⟩ ∧
      ∃ problem smooth, path.Agrees [1, 0] 3 coef
        ((Mat.zero path.shape.rows path.shape.cols).scatterRows [1, 0] coef) problem smooth := by
  intro path coef
  have weights : path.penalty.Valid := Penalty.valid_iff.2 (by simp [path, blank, Penalty.groups])
  have wellFormed : path.WellFormed := by
    refine ⟨rfl, rfl, weights, rfl, ?_, ?_⟩
    · norm_num [path, blank, PathOptions.elasticNet]
    · norm_num [path, blank, PathOptions.elasticNet]
  have nonneg : (0 : ℝ) ≤ 3 := by norm_num
  have inRange : ∀ group ∈ [1, 0], group < path.groups := by
    simp [path, blank, groups, Penalty.groups]
  exact ⟨wellFormed, nonneg, by decide, inRange, rfl,
    restriction_agrees wellFormed nonneg (by decide) inRange rfl⟩

end

end Path

end GroupLasso
