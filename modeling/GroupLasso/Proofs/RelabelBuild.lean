import GroupLasso.Proofs.RelabelRun

/-!
Building and running a model under other labels for its groups. With the columns of the design, the
weights and the rows of the ridge parameter in another order, the checks on the model come out the same,
and it is fitted in the same way.
-/

namespace GroupLasso

open Scalar

section
variable {α : Type} [Scalar α]

/-- Weights by new labels. As many weights are given as before, also if these are not the groups. -/
def relabelWeights (order : List Nat) (weights : Array α) : Array α :=
  Array.ofFn (n := weights.size) fun label => weights.getD (order.getD label 0) 0

def Mat.relabelRows (order : List Nat) (matrix : Mat α) : Mat α :=
  ofFn matrix.rows matrix.cols fun label col => matrix.get (order.getD label 0) col

end

section
variable {order : List Nat} {weights : Array ℝ} {count : Nat}

@[simp] theorem size_relabelWeights (order : List Nat) (weights : Array ℝ) :
    (relabelWeights order weights).size = weights.size := Array.size_ofFn

theorem getD_relabelWeights {label : Nat} (bound : label < weights.size) :
    (relabelWeights order weights).getD label 0 = weights.getD (order.getD label 0) 0 := by
  simp [relabelWeights, Array.getD, bound]

theorem relabelWeights_map (order : List Nat) (weights : Array ℝ) (scale : ℝ) :
    relabelWeights order (weights.map (· * scale)) = (relabelWeights order weights).map (· * scale) := by
  have scaled : ∀ group, (weights.map (· * scale)).getD group 0 = weights.getD group 0 * scale := by
    intro group
    by_cases bound : group < weights.size <;> simp [Array.getD, bound]
  refine Array.ext (by simp) fun label bound _ => ?_
  simp only [relabelWeights, Array.getElem_ofFn, Array.getElem_map, scaled]

theorem relabelWeights_eq (length : order.length = weights.size) :
    relabelWeights order weights = (order.map fun group => weights.getD group 0).toArray := by
  refine Array.ext (by simp [length]) fun label bound _ => ?_
  rw [size_relabelWeights, ← length] at bound
  have entry : order.getD label 0 = order[label] := List.getD_eq_getElem _ _ bound
  simp only [relabelWeights, Array.getElem_ofFn, List.getElem_toArray, List.getElem_map, entry]

theorem relabelWeights_nonneg (permutes : order.Perm (List.range weights.size)) :
    (∀ group, 0 ≤ (relabelWeights order weights).getD group 0) ↔
      ∀ group, 0 ≤ weights.getD group 0 := by
  have inside : ∀ weights : Array ℝ, (∀ group, 0 ≤ weights.getD group 0) ↔
      ∀ group < weights.size, 0 ≤ weights.getD group 0 := by
    refine fun weights => ⟨fun nonneg group _ => nonneg group, fun nonneg group => ?_⟩
    by_cases bound : group < weights.size
    · exact nonneg group bound
    · simp [Array.getD, bound]
  rw [inside, inside weights, ← Mat.forall_order permutes, size_relabelWeights,
    Mat.length_order permutes]
  refine forall₂_congr fun label bound => ?_
  rw [getD_relabelWeights bound]

theorem validateWeights_relabel (permutes : order.Perm (List.range count)) (name : String)
    (weights : Array ℝ) : Failure.Agree (fun _ _ => True)
      (Penalty.validateWeights name weights count)
      (Penalty.validateWeights name (relabelWeights order weights) order.length) := by
  have length := Mat.length_order permutes
  unfold Penalty.validateWeights
  rw [length, size_relabelWeights]
  refine (Failure.agree_refl _).bind fun _ _ sized _ _ => ?_
  obtain rfl := Failure.expectLength_eq_ok.1 sized
  have search : ∀ weights : Array ℝ, (weights.find? fun weight => ¬ IsFiniteNonneg weight) = none ↔
      ∀ group, 0 ≤ weights.getD group 0 := by
    intro weights
    rw [Penalty.getD_nonneg_iff]
    simp
  have same := (search (relabelWeights order weights)).trans
    ((relabelWeights_nonneg permutes).trans (search weights).symm)
  cases found : weights.find? fun weight => ¬ IsFiniteNonneg weight with
  | none =>
      rw [same.2 found]
      trivial
  | some weight =>
      cases other : (relabelWeights order weights).find? fun weight => ¬ IsFiniteNonneg weight with
      | none => cases found.symm.trans (same.1 other)
      | some weight => exact rfl

theorem ofWeights_relabel {cols : Nat} (permutes : order.Perm (List.range count)) (l1 l2 : Array ℝ)
    (lagrange : ℝ) : Failure.Agree (fun penalty other => other = penalty.over order)
      (Penalty.ofWeights ⟨count, cols⟩ l1 l2 lagrange)
      (Penalty.ofWeights ⟨order.length, cols⟩ (relabelWeights order l1) (relabelWeights order l2)
        lagrange) := by
  have length := Mat.length_order permutes
  unfold Penalty.ofWeights
  refine (validateWeights_relabel permutes "l1_weight" l1).bind fun _ _ first _ _ => ?_
  refine (validateWeights_relabel permutes "l2_weight" l2).bind fun _ _ second _ _ => ?_
  have l1Size := (Penalty.validateWeights_eq_ok.1 first).1
  have l2Size := (Penalty.validateWeights_eq_ok.1 second).1
  split_ifs
  · change (⟨⟨order.length, cols⟩, relabelWeights order l1, relabelWeights order l2, lagrange⟩ :
      Penalty ℝ) = _
    rw [relabelWeights_eq (length.trans l1Size.symm), relabelWeights_eq (length.trans l2Size.symm)]
    rfl
  · exact rfl

theorem mixWeights_relabel (options : PathOptions ℝ) (l1 l2 : Array ℝ) :
    Path.mixWeights options (relabelWeights order l1) (relabelWeights order l2) =
      (relabelWeights order (Path.mixWeights options l1 l2).1,
        relabelWeights order (Path.mixWeights options l1 l2).2) := by
  unfold Path.mixWeights
  cases options.l1Share with
  | none => rfl
  | some share => simp only [relabelWeights_map]

end

section
variable {order : List Nat} {matrix : Mat ℝ}

theorem Mat.relabelRows_eq (length : order.length = matrix.rows) :
    matrix.relabelRows order = matrix.selectRows order := by
  unfold relabelRows selectRows
  rw [length]

theorem Mat.all_selectRows (permutes : order.Perm (List.range matrix.rows)) (condition : ℝ → Bool) :
    (matrix.selectRows order).all condition = matrix.all condition := by
  rw [Bool.eq_iff_iff]
  simp only [all, List.all_eq_true, List.mem_range, rows_selectRows, cols_selectRows]
  refine forall₂_congr fun col _ => ?_
  rw [← forall_order permutes]
  refine forall₂_congr fun label bound => ?_
  rw [get_selectRows _ bound]

theorem Path.chooseRidge_relabel {penalty : Penalty ℝ}
    (permutes : order.Perm (List.range penalty.groups)) (given : Option (Mat ℝ)) :
    Path.chooseRidge (penalty.over order) (given.map (·.relabelRows order)) =
      (Path.chooseRidge penalty given).map (·.selectRows order) := by
  have length := Mat.length_order permutes
  cases given with
  | none =>
      refine congrArg Except.ok (Eq.symm ?_)
      refine Mat.selectRows_ofFn (Mat.mem_order permutes) fun label bound _ _ => ?_
      rw [Penalty.isUnpenalized_over bound]
  | some matrix =>
      have shape : (penalty.over order).shape = penalty.shape :=
        congrArg (Shape.mk · penalty.shape.cols) length
      have kept : (matrix.relabelRows order).shape = matrix.shape := rfl
      unfold Path.chooseRidge
      simp only [Option.map_some, shape, kept]
      by_cases fits : penalty.shape = matrix.shape
      · have rows : matrix.rows = penalty.groups := Mat.rows_eq fits.symm
        have positions : order.Perm (List.range matrix.rows) := rows ▸ permutes
        rw [Mat.relabelRows_eq (length.trans rows.symm), Mat.all_selectRows positions]
        simp only [Failure.expectShape, if_pos fits]
        cases matrix.all fun entry => IsFiniteNonneg entry <;> rfl
      · simp only [Failure.expectShape, if_neg fits]
        rfl

end

/-! The model without penalized groups. -/

namespace Path

section
variable {path : Path ℝ} {order : List Nat}

theorem fitNull_relabel (relabels : Relabels order path)
    (zero : path.solution = Mat.zero path.shape.rows path.shape.cols) :
    (path.relabel order).fitNull = path.fitNull.map (·.relabel order) := by
  obtain ⟨permutes, wellFormed, -, solutionShape, -⟩ := relabels
  have distinct := Penalty.unpenalized_nodup path.penalty
  have inRange : ∀ group ∈ path.penalty.unpenalized, group < path.groups :=
    fun group member => (Penalty.mem_unpenalized.1 member).1
  have nonneg : (0 : ℝ) ≤ nullLagrange := by norm_num [nullLagrange]
  have unpenalized : (path.relabel order).penalty.unpenalized =
      relabelled order path.penalty.unpenalized := Penalty.unpenalized_over permutes
  have options : (path.relabel order).options = path.options := rfl
  unfold fitNull
  simp only [unpenalized, options, List.isEmpty_iff_length_eq_zero,
    length_relabelled permutes distinct inRange,
    solveSubproblem_relabel permutes distinct inRange wellFormed solutionShape nonneg]
  split_ifs
  · rfl
  · cases solved : path.solveSubproblem path.penalty.unpenalized nullLagrange
        path.options.nullSolve with
    | error failure => rfl
    | ok null =>
        have shape := solveSubproblem_shape distinct inRange wellFormed solutionShape nonneg solved
        have embedded : (path.relabel order).embed (relabelled order path.penalty.unpenalized)
            (null.solution.selectRows (placement order path.penalty.unpenalized)) =
              (path.embed path.penalty.unpenalized null.solution).selectRows order :=
          embed_relabel distinct inRange shape
        have start : (path.relabel order).solution =
            Mat.zero (path.relabel order).shape.rows (path.relabel order).shape.cols := by
          change path.solution.selectRows order = _
          rw [zero, Mat.selectRows_zero]
          rfl
        unfold embed at embedded
        rw [← zero, ← start] at embedded
        have fitted : (path.relabel order).solution.scatterRows
            (relabelled order path.penalty.unpenalized)
              (null.relabel order (placement order path.penalty.unpenalized)).solution =
                (path.solution.scatterRows path.penalty.unpenalized null.solution).selectRows order :=
          embedded
        simp only [Except.map, bind, Except.bind, fitted]
        rfl

theorem hasUnpenalizedRidge_relabel (permutes : order.Perm (List.range path.groups)) :
    (path.relabel order).hasUnpenalizedRidge = path.hasUnpenalizedRidge := by
  have unpenalized : (path.relabel order).penalty.unpenalized =
      relabelled order path.penalty.unpenalized := Penalty.unpenalized_over permutes
  have row : ∀ label < order.length, (path.relabel order).ridgeParameter.row label =
      path.ridgeParameter.row (order.getD label 0) :=
    fun label bound => Mat.row_selectRows path.ridgeParameter bound
  have groups := map_relabelled permutes (Penalty.unpenalized_nodup path.penalty)
    fun group member => (Penalty.mem_unpenalized.1 member).1
  unfold hasUnpenalizedRidge
  rw [unpenalized, ← groups.any_eq, List.any_map, Bool.eq_iff_iff, List.any_eq_true,
    List.any_eq_true]
  refine exists_congr fun label => and_congr_right fun member => ?_
  rw [row label (mem_relabelled.1 member).1]
  rfl

theorem warnOfRidge_relabel (permutes : order.Perm (List.range path.groups)) :
    (path.relabel order).warnOfRidge = path.warnOfRidge.relabel order := by
  unfold warnOfRidge
  rw [hasUnpenalizedRidge_relabel permutes]
  split_ifs <;> rfl

theorem withGradient_relabel (permutes : order.Perm (List.range path.groups))
    (wellFormed : path.WellFormed) (shape : path.solution.shape = path.shape) (lagrange : ℝ) :
    (path.relabel order).withGradient lagrange = (path.withGradient lagrange).relabel order := by
  have renewed : ((path.relabel order).fullGradient (path.relabel order).predictor).add
      ((path.relabel order).ridgeGradient (path.relabel order).solution lagrange) =
        ((path.fullGradient path.predictor).add (path.ridgeGradient path.solution lagrange)).selectRows
          order := gradient_relabel permutes wellFormed shape path.predictor lagrange
  unfold withGradient
  rw [renewed]
  rfl

end

section
variable {loss : Loss ℝ} {design : Design ℝ} {l1 l2 : Array ℝ} {ridgeParameter : Option (Mat ℝ)}
  {options : PathOptions ℝ} {order : List Nat} {penalty : Penalty ℝ} {parameter : Mat ℝ}

theorem blank_relabel : blank loss (design.restrict order) (penalty.over order)
    (parameter.selectRows order) options = (blank loss design penalty parameter options).relabel order := by
  simp only [blank, relabel, Mat.selectRows_zero, Design.outputShape_restrict]
  rfl

theorem blank_relabels (wellFormed : (blank loss design penalty parameter options).WellFormed)
    (permutes : order.Perm (List.range penalty.groups)) :
    Relabels order (blank loss design penalty parameter options) :=
  ⟨permutes, wellFormed, Mask.length_empty _, rfl, rfl⟩

theorem build_relabel (permutes : order.Perm (List.range design.inputShape.rows)) :
    Failure.Agree (fun path other => Relabels order path ∧ other = path.relabel order)
      (Path.build loss design l1 l2 ridgeParameter options)
      (Path.build loss (design.restrict order) (relabelWeights order l1) (relabelWeights order l2)
        (ridgeParameter.map (·.relabelRows order)) options) := by
  unfold Path.build
  simp only [Design.outputShape_restrict, Design.inputShape_restrict, mixWeights_relabel]
  refine (Failure.agree_refl _).bind fun _ _ validated _ _ => ?_
  refine (Failure.agree_refl _).bind fun _ _ outputs _ _ => ?_
  refine (ofWeights_relabel permutes _ _ 1).bind fun penalty other accepted _ same => ?_
  subst same
  obtain ⟨penaltyEq, weights⟩ := Penalty.ofWeights_eq_ok.1 accepted
  have inputs : penalty.shape = design.inputShape := by rw [penaltyEq]; rfl
  have positions : order.Perm (List.range penalty.groups) := by
    rw [Penalty.groups, inputs]
    exact permutes
  rw [chooseRidge_relabel positions]
  refine (Failure.agree_map _ _).bind fun parameter other chosen _ same => ?_
  subst same
  have valid := PathOptions.validate_eq_ok.1 (Failure.mapError_eq_ok.1 validated)
  have relabels : Relabels order (blank loss design penalty parameter options) :=
    blank_relabels ⟨Failure.expectShape_eq_ok.1 outputs, inputs, weights, chooseRidge_shape chosen,
      valid.alpha.1, valid.alpha.2⟩ positions
  rw [blank_relabel, fitNull_relabel relabels rfl]
  refine (Failure.agree_map _ _).bind fun fitted other solved _ same => ?_
  subst same
  have null := (fitNull_nullFit relabels.wellFormed solved).warnOfRidge
  have model := (fitNull_model solved).trans (warnOfRidge_model fitted)
  have wellFormed := model.wellFormed relabels.wellFormed
  have fittedPositions : order.Perm (List.range fitted.groups) := by
    rw [groups, (fitNull_model solved).penalty]
    exact positions
  have warnedPositions : order.Perm (List.range fitted.warnOfRidge.groups) := by
    rw [groups, model.penalty]
    exact positions
  have finished := (fitNull_finished solved).wellFormed relabels.wellFormed
  refine ⟨⟨warnedPositions, finished, ?_, null.shape, shape_fullGradient wellFormed _⟩, ?_⟩
  · change (Option.getD fitted.warnOfRidge.everActive (Mask.empty _)).length = _
    rw [null.unmarked]
    exact Mask.length_empty _
  · rw [warnOfRidge_relabel fittedPositions,
      withGradient_relabel warnedPositions wellFormed null.shape]

/-- With the columns of the design, the weights and the rows of the ridge parameter in another order, a
model is refused with the same kind of failure, or it has the same largest Lagrange value of interest
and the same diagnostics, and every run ends in the same way: with the same failure, or with the same
steps under the other labels of the groups. -/
theorem fit_relabelled (permutes : order.Perm (List.range design.inputShape.rows))
    (given : Option (List ℝ)) :
    Failure.Agree (fun path other => other.lagrangeMax = path.lagrangeMax ∧ other.log = path.log ∧
        (other.fit given).1 = (path.fit given).1.map (·.relabel order) ∧
        (other.fit given).2.log = (path.fit given).2.log)
      (Path.build loss design l1 l2 ridgeParameter options)
      (Path.build loss (design.restrict order) (relabelWeights order l1) (relabelWeights order l2)
        (ridgeParameter.map (·.relabelRows order)) options) := by
  refine (build_relabel permutes).imp fun path other ⟨relabels, same⟩ => ?_
  subst same
  rw [fit_relabel relabels]
  exact ⟨lagrangeMax_relabel relabels.permutes, rfl, rfl, rfl⟩

theorem fit_relabelled_swapped :
    let design : Design ℝ := .dense (.ofFn 1 2 fun _ col => if col = 0 then 1 else 2) 1
    let l1 : Array ℝ := #[1, 2]
    let l2 : Array ℝ := #[1, 0]
    [1, 0].Perm (List.range design.inputShape.rows) ∧
      ∃ path other, Path.build unitLoss design l1 l2 none .default = .ok path ∧
        Path.build unitLoss (design.restrict [1, 0]) (relabelWeights [1, 0] l1)
          (relabelWeights [1, 0] l2) none .default = .ok other ∧
        other.lagrangeMax = path.lagrangeMax ∧ other.log = path.log ∧
        (other.fit none).1 = (path.fit none).1.map (·.relabel [1, 0]) ∧
        (other.fit none).2.log = (path.fit none).2.log := by
  intro design l1 l2
  have permutes : [1, 0].Perm (List.range design.inputShape.rows) := List.Perm.swap 0 1 []
  let penalty : Penalty ℝ := ⟨design.inputShape, l1, l2, 1⟩
  have weights : penalty.Valid := Penalty.valid_iff.2 (by
    simp [penalty, l1, l2, design, Penalty.groups, Design.inputShape, Design.matrix])
  have penalized : penalty.unpenalized = [] := by
    have groups : List.range penalty.groups = [0, 1] := rfl
    simp [penalty, l1, l2, Penalty.unpenalized, groups, Penalty.isUnpenalized, Penalty.l1At, IsZero]
  have outputs : (unitLoss : Loss ℝ).shape = design.outputShape := rfl
  have validated : (PathOptions.default : PathOptions ℝ).validate = .ok () :=
    PathOptions.validate_eq_ok.2 PathOptions.valid_default
  have built := build_penalized validated rfl outputs
    (Penalty.ofWeights_eq_ok.2 ⟨rfl, weights⟩) penalized
  have agree : Failure.Agree _ (Path.build unitLoss design l1 l2 none .default)
      (Path.build unitLoss (design.restrict [1, 0]) (relabelWeights [1, 0] l1)
        (relabelWeights [1, 0] l2) none .default) := fit_relabelled permutes none
  rw [built] at agree
  cases other : Path.build unitLoss (design.restrict [1, 0]) (relabelWeights [1, 0] l1)
      (relabelWeights [1, 0] l2) none .default with
  | error failure =>
      rw [other] at agree
      exact agree.elim
  | ok relative =>
      rw [other] at agree
      exact ⟨permutes, _, relative, built, rfl, agree⟩

end

end Path

end GroupLasso
