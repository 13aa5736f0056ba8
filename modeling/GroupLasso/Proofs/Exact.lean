import GroupLasso.Proofs.Design
import GroupLasso.Proofs.Trial

/-!
Restricted problems that are solved exactly. A solution that a proximal gradient step of the problem
over the candidates leaves where it is passes the full checks in every candidate, so that only groups
outside the candidates can fail them.
-/

namespace GroupLasso

open Scalar

section
variable {penalty : Penalty ℝ} {groups : List Nat} {gradient coef : Mat ℝ} {position : Nat}

theorem Penalty.l1At_over (bound : position < groups.length) :
    (penalty.over groups).l1At position = penalty.l1At (groups.getD position 0) := by
  simp [Penalty.over, Penalty.l1At, Array.getD, bound]

theorem Penalty.l2At_over (bound : position < groups.length) :
    (penalty.over groups).l2At position = penalty.l2At (groups.getD position 0) := by
  simp [Penalty.over, Penalty.l2At, Array.getD, bound]

theorem Mat.row_selectRows (matrix : Mat ℝ) (bound : position < groups.length) :
    (matrix.selectRows groups).row position = matrix.row (groups.getD position 0) := by
  apply List.map_congr_left
  intro col _
  exact Mat.get_selectRows matrix bound

theorem Penalty.stationary_iff {group : Nat} : penalty.Stationary gradient coef group ↔
    (coef.rowNorm group = 0 →
      Gauge.softNorm ((gradient.row group).map (- ·)) (penalty.lagrange * penalty.l1At group) ≤
        penalty.lagrange * penalty.l2At group) ∧
    (coef.rowNorm group ≠ 0 → ∀ col < coef.cols, coef.get group col = 0 →
      |gradient.get group col| ≤ penalty.lagrange * penalty.l1At group) ∧
    ∀ col < coef.cols, coef.get group col ≠ 0 → -gradient.get group col =
      penalty.lagrange * penalty.l1At group * sign (coef.get group col) +
        penalty.lagrange * penalty.l2At group * (coef.get group col / coef.rowNorm group) :=
  ⟨fun stationary => ⟨stationary.inBall, stationary.inCube, stationary.onEdge⟩,
    fun stationary => ⟨stationary.1, stationary.2.1, stationary.2.2⟩⟩

theorem Penalty.stationary_over_iff (distinct : groups.Nodup)
    (inRange : ∀ group ∈ groups, group < penalty.groups) (width : coef.cols = penalty.shape.cols)
    (bound : position < groups.length) :
    (penalty.over groups).Stationary (gradient.selectRows groups) coef position ↔
      penalty.Stationary gradient
        ((Mat.zero penalty.shape.rows penalty.shape.cols).scatterRows groups coef)
        (groups.getD position 0) := by
  let full := (Mat.zero penalty.shape.rows penalty.shape.cols).scatterRows groups coef
  have cols : full.cols = coef.cols := by simp [full, width]
  have entries : ∀ col, full.get (groups.getD position 0) col = coef.get position col :=
    Mat.get_embedded coef distinct inRange width bound
  have length : full.rowNorm (groups.getD position 0) = coef.rowNorm position := by
    simp only [Mat.rowNorm, cols, entries]
  have lagrange : (penalty.over groups).lagrange = penalty.lagrange := rfl
  change _ ↔ penalty.Stationary gradient full _
  simp only [stationary_iff, lagrange, l1At_over bound, l2At_over bound, Mat.row_selectRows _ bound,
    Mat.get_selectRows _ bound, entries, length, cols]

end

theorem Loss.shape_gradient (loss : Loss ℝ) (eta : Mat ℝ) : (loss.gradient eta).shape = loss.shape := by
  cases loss <;> rfl

namespace Path

variable {path : Path ℝ} {groups : List Nat} {lagrange : ℝ} {options : SolveOptions ℝ}

theorem shape_fullGradient (wellFormed : path.WellFormed) (predictor : Mat ℝ) :
    (path.fullGradient predictor).shape = path.shape := by
  have outputs : (path.loss.gradient predictor).shape = path.design.outputShape :=
    (Loss.shape_gradient path.loss predictor).trans wellFormed.outputs
  exact (Design.shape_adjoint path.design outputs).trans wellFormed.inputs.symm

theorem WellFormed.scaled (wellFormed : path.WellFormed) (nonneg : 0 ≤ lagrange) :
    (path.penalty.withLagrange (path.options.alpha * lagrange)).Valid := by
  have weights := wellFormed.weights
  exact ⟨weights.l1_size, weights.l2_size, weights.l1_nonneg, weights.l2_nonneg,
    mul_nonneg wellFormed.alpha_pos.le nonneg⟩

theorem mem_violators {gradient solution : Mat ℝ} {group : Nat} :
    group ∈ path.violators gradient solution lagrange ↔ group < solution.rows ∧
      Optimality.groupStatus (path.penalty.withLagrange lagrange) gradient solution
        path.options.kktTolerance group ≠ .satisfied := by
  rw [violators, Mask.mem_toIndices]
  by_cases bound : group < solution.rows
  · simp [check, Optimality.check, Mask.contains, bound, Optimality.isViolation,
      Optimality.groupStatus, Penalty.withLagrange, Penalty.l1At, Penalty.l2At]
  · simp [check, Optimality.check, Mask.contains, bound]

theorem restrictTo_candidates {α : Type} [Scalar α] {path : Path α} {lagrange : α}
    {problem : RestrictedProblem α}
    (restricted : path.restrictTo groups lagrange = .ok problem) :
    problem.candidates = Mask.ofIndices groups path.design.inputShape.rows := by
  obtain ⟨plain, built, ridged⟩ := Failure.bind_eq_ok.1 restricted
  obtain ⟨mask, listed, built⟩ := Failure.bind_eq_ok.1 built
  obtain ⟨_, _, built⟩ := Failure.bind_eq_ok.1 built
  obtain ⟨_, _, built⟩ := Failure.bind_eq_ok.1 built
  obtain ⟨_, _, built⟩ := Failure.bind_eq_ok.1 built
  cases built
  obtain ⟨-, -, members⟩ := Restriction.candidateMask_eq_ok.1 listed
  split_ifs at ridged
  · cases ridged
    exact members
  · split at ridged
    · obtain ⟨_, _, finished⟩ := Failure.bind_eq_ok.1 ridged
      cases finished
      exact members
    · cases ridged
      exact members

theorem solveSubproblem_candidates {α : Type} [Scalar α] {path : Path α} {lagrange : α}
    {options : SolveOptions α} {sub : Subsolution α}
    (solved : path.solveSubproblem groups lagrange options = .ok sub) :
    sub.candidates = Mask.ofIndices groups path.design.inputShape.rows := by
  obtain ⟨problem, restricted, solved⟩ := Failure.bind_eq_ok.1 solved
  have members := restrictTo_candidates restricted
  split_ifs at solved
  · cases solved
    exact members
  · obtain ⟨_, _, solved⟩ := Failure.bind_eq_ok.1 solved
    obtain ⟨_, _, solved⟩ := Failure.bind_eq_ok.1 solved
    obtain ⟨_, _, solved⟩ := Failure.bind_eq_ok.1 solved
    cases solved
    exact members

def restrictedProblem {α : Type} [Scalar α] (path : Path α) (groups : List Nat) (lagrange : α) :
    Problem α :=
  ⟨(path.smoothOver groups lagrange).smooth,
    (path.penalty.withLagrange (path.options.alpha * lagrange)).over groups,
    path.solution.selectRows groups, 1⟩

def request {α : Type} (path : Path α) (options : SolveOptions α) : SolveOptions α :=
  { options with initialStep := some (options.initialStep.getD path.step) }

theorem shape_smoothOver (wellFormed : path.WellFormed) (groups : List Nat) (lagrange : ℝ) :
    (path.smoothOver groups lagrange).shape = ⟨groups.length, path.shape.cols⟩ :=
  (Design.inputShape_restrict path.design).trans
    (congrArg (Shape.mk groups.length) (congrArg Shape.cols wellFormed.inputs).symm)

theorem warmStart_restricted (wellFormed : path.WellFormed) (shape : path.solution.shape = path.shape)
    (groups : List Nat) (lagrange : ℝ) : ∃ fresh,
      Problem.ofPenalty (path.smoothOver groups lagrange).smooth
        ((path.penalty.withLagrange (path.options.alpha * lagrange)).over groups) = .ok fresh ∧
      fresh.warmStart (path.solution.selectRows groups) =
        .ok (path.restrictedProblem groups lagrange) := by
  let smooth := (path.smoothOver groups lagrange).smooth
  let penalty := (path.penalty.withLagrange (path.options.alpha * lagrange)).over groups
  have smoothShape : smooth.shape = ⟨groups.length, path.shape.cols⟩ :=
    shape_smoothOver wellFormed groups lagrange
  have width : path.solution.cols = path.shape.cols := Mat.cols_eq shape
  have warmShape : (path.solution.selectRows groups).shape = ⟨groups.length, path.shape.cols⟩ :=
    congrArg (Shape.mk groups.length) width
  exact ⟨⟨smooth, penalty, Mat.zero smooth.shape.rows smooth.shape.cols, 1⟩,
    Failure.bind_eq_ok.2 ⟨(), Failure.expectShape_eq_ok.2 smoothShape, rfl⟩,
    Failure.bind_eq_ok.2 ⟨(), Failure.expectShape_eq_ok.2 (smoothShape.trans warmShape.symm), rfl⟩⟩

theorem solveSubproblem_eq (wellFormed : path.WellFormed) (nonneg : 0 ≤ lagrange)
    (distinct : groups.Nodup) (inRange : ∀ group ∈ groups, group < path.groups)
    (shape : path.solution.shape = path.shape) (listed : groups ≠ []) (options : SolveOptions ℝ) :
    path.solveSubproblem groups lagrange options =
      ((path.restrictedProblem groups lagrange).solve (path.request options)).1.map fun solution =>
        { solution
          gradient := (path.smoothOver groups lagrange).gradient solution
          predictor := (path.smoothOver groups lagrange).design.dot solution
          step := ((path.restrictedProblem groups lagrange).solve (path.request options)).2.step
          candidates := Mask.ofIndices groups path.design.inputShape.rows } := by
  have nonempty : ¬ groups.isEmpty := fun empty => listed (List.isEmpty_iff.1 empty)
  obtain ⟨mask, restricted⟩ := restrictTo_eq_ok wellFormed nonneg distinct inRange
  obtain rfl : mask = _ := restrictTo_candidates restricted
  rw [if_neg nonempty] at restricted
  obtain ⟨fresh, fromZero, started⟩ := warmStart_restricted wellFormed shape groups lagrange
  unfold solveSubproblem
  simp only [restricted, if_neg nonempty, bind, Except.bind, fromZero, started, request]
  cases ((path.restrictedProblem groups lagrange).solve ⟨options.tolerance, options.maxIterations,
    options.initialStep.getD path.step⟩).1 <;> rfl

theorem stationary_of_fixed {coef : Mat ℝ} {problem : RestrictedProblem ℝ} {step : ℝ} {group : Nat}
    (wellFormed : path.WellFormed) (nonneg : 0 ≤ lagrange) (distinct : groups.Nodup)
    (inRange : ∀ group ∈ groups, group < path.groups)
    (restricted : path.restrictTo groups lagrange = .ok problem) (step_pos : 0 < step)
    (fixed : coef = problem.penalty.proximal
      (coef.addScaled (-step) (problem.smooth.gradient coef)) step) (listed : group ∈ groups) :
    (path.penalty.withLagrange (path.options.alpha * lagrange)).Stationary
      ((path.fullGradient (path.design.dot (path.embed groups coef))).add
        (path.ridgeGradient (path.embed groups coef) lagrange)) (path.embed groups coef) group := by
  obtain ⟨mask, built⟩ := restrictTo_eq_ok wellFormed nonneg distinct inRange
  rw [restricted] at built
  cases built
  have some : ¬ groups.isEmpty := by
    rw [List.isEmpty_iff]
    exact List.ne_nil_of_mem listed
  simp only [if_neg some] at fixed
  have shape : coef.shape = ⟨groups.length, path.shape.cols⟩ := by
    rw [fixed]
    rfl
  have width : coef.cols = path.shape.cols := by rw [Mat.cols_eq shape]
  rw [gradient_smoothOver wellFormed distinct inRange width] at fixed
  have valid : ((path.penalty.withLagrange (path.options.alpha * lagrange)).over groups).Valid :=
    Penalty.valid_over (wellFormed.scaled nonneg)
  have fullCols := Mat.cols_eq
    (shape_fullGradient wellFormed (path.design.dot (path.embed groups coef)))
  have gradientShape : (((path.fullGradient (path.design.dot (path.embed groups coef))).add
      (path.ridgeGradient (path.embed groups coef) lagrange)).selectRows groups).shape =
        ⟨groups.length, path.shape.cols⟩ := congrArg (Shape.mk groups.length) fullCols
  have stationary := (Penalty.fixedPoint_iff valid shape gradientShape step_pos).1 fixed
  have position : groups.idxOf group < groups.length := List.idxOf_lt_length_of_mem listed
  have inside : ∀ group ∈ groups,
      group < (path.penalty.withLagrange (path.options.alpha * lagrange)).groups := inRange
  have full := (Penalty.stationary_over_iff distinct inside width position).1
    (stationary _ position)
  rw [Mat.getD_idxOf listed] at full
  exact full

/-- The solver returns a solution over the candidates that some proximal gradient step of their
problem leaves where it is. -/
def SolvesExactly (path : Path ℝ) (lagrange : ℝ) (options : SolveOptions ℝ) : Prop :=
  ∃ sub problem step, path.solveSubproblem path.candidates lagrange options = .ok sub ∧
    path.restrictTo path.candidates lagrange = .ok problem ∧ 0 < step ∧
    sub.solution = problem.penalty.proximal
      (sub.solution.addScaled (-step) (problem.smooth.gradient sub.solution)) step

theorem solvesExactly_of_no_candidates (wellFormed : path.WellFormed) (nonneg : 0 ≤ lagrange)
    (none : path.candidates = []) (options : SolveOptions ℝ) : path.SolvesExactly lagrange options := by
  obtain ⟨mask, restricted⟩ := restrictTo_eq_ok wellFormed nonneg (candidates_nodup path)
    (candidates_inRange path)
  rw [none] at restricted
  rw [SolvesExactly, none]
  refine ⟨_, _, 1, Failure.bind_eq_ok.2 ⟨_, restricted, rfl⟩, restricted, one_pos, ?_⟩
  have restrictedCols : (path.design.restrict []).inputShape.cols = path.design.responses :=
    congrArg Shape.cols (Design.inputShape_restrict path.design)
  have inputs : path.penalty.shape.cols = path.design.responses :=
    congrArg Shape.cols wellFormed.inputs
  exact Mat.ext_get rfl (restrictedCols.trans inputs.symm) nofun

theorem trial_of_exact (wellFormed : path.WellFormed) (tolerance_pos : 0 < path.options.kktTolerance)
    (positive : 0 < lagrange) (exactly : path.SolvesExactly lagrange options) :
    ∃ trial, path.trial lagrange options = .ok trial ∧
      trial.sub.candidates = Mask.ofIndices path.candidates path.groups ∧
      ∀ group ∈ trial.violators, group < path.groups ∧ group ∉ path.candidates := by
  obtain ⟨sub, problem, step, solved, restricted, step_pos, fixed⟩ := exactly
  let solution := path.embed path.candidates sub.solution
  let gradient := (path.fullGradient sub.predictor).add (path.ridgeGradient solution lagrange)
  have tried : path.trial lagrange options = .ok ⟨sub, solution, gradient,
      path.violators gradient solution (path.options.alpha * lagrange)⟩ :=
    Failure.bind_eq_ok.2 ⟨sub, solved, rfl⟩
  have shape : solution.shape = path.shape := trial_shape tried
  have members := solveSubproblem_candidates solved
  rw [← congrArg Shape.rows wellFormed.inputs] at members
  refine ⟨_, tried, members, fun group member => ?_⟩
  obtain ⟨bound, status⟩ := mem_violators.1 member
  rw [Mat.rows_eq shape] at bound
  refine ⟨bound, fun listed => status ?_⟩
  have stationary := stationary_of_fixed wellFormed positive.le (candidates_nodup path)
    (candidates_inRange path) restricted step_pos fixed listed
  rw [← solveSubproblem_predictor wellFormed positive.le (candidates_nodup path)
    (candidates_inRange path) solved] at stationary
  apply Optimality.groupStatus_of_stationary (wellFormed.scaled positive.le) _ shape
    (mul_pos wellFormed.alpha_pos positive) tolerance_pos stationary
  exact shape_fullGradient wellFormed sub.predictor

end Path

end GroupLasso
