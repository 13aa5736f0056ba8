import GroupLasso.Proofs.Commits
import GroupLasso.Proofs.Grid
import GroupLasso.Proofs.Solver

/-!
What a run along a sequence of Lagrange values establishes. It is a chain of steps, each certified or
taken over from the step before, from every path that building, running and marking groups can reach.
-/

namespace GroupLasso

open Scalar

namespace Path

/-- Steps at the given values in order, each from the solution of the step before. -/
inductive Chain (path : Path ℝ) : Mat ℝ → List ℝ → List (PathStep ℝ) → Mat ℝ → Prop where
  | done (solution : Mat ℝ) : Chain path solution [] [] solution
  | step {before after : Mat ℝ} {lagrange : ℝ} {values : List ℝ} {first : PathStep ℝ}
      {steps : List (PathStep ℝ)} : path.StepFrom before lagrange first →
      Chain path first.solution values steps after →
      Chain path before (lagrange :: values) (first :: steps) after

section
variable {path reached : Path ℝ} {before after : Mat ℝ} {values : List ℝ}
  {steps : List (PathStep ℝ)}

theorem SameModel.chain (same : SameModel path reached)
    (chain : reached.Chain before values steps after) : path.Chain before values steps after := by
  induction chain with
  | done solution => exact .done solution
  | step first _ ih =>
      refine .step ⟨first.lagrange_eq, first.active, ?_, first.kept⟩ ih
      exact fun converged => same.certifiedAt.1 (first.certified converged)

theorem Chain.lagrange (chain : path.Chain before values steps after) :
    steps.map (·.lagrange) = values := by
  induction chain with
  | done solution => rfl
  | step first _ ih => rw [List.map_cons, ih, first.lagrange_eq]

theorem Chain.stepFrom (chain : path.Chain before values steps after) {index : Nat}
    {step : PathStep ℝ} (listed : steps[index]? = some step) :
    ∃ previous, (before :: steps.map (·.solution))[index]? = some previous ∧
      path.StepFrom previous step.lagrange step := by
  induction chain generalizing index with
  | done solution => simp at listed
  | @step before after lagrange values first steps start _ ih =>
      cases index with
      | zero =>
          obtain rfl : first = step := by simpa using listed
          exact ⟨before, rfl, start.lagrange_eq.symm ▸ start⟩
      | succ index =>
          obtain ⟨previous, found, stepFrom⟩ := ih (by simpa using listed)
          exact ⟨previous, by simpa using found, stepFrom⟩

theorem Chain.last (chain : path.Chain before values steps after) (nonempty : values ≠ []) :
    ∃ last, steps.getLast? = some last ∧ after = last.solution := by
  induction chain with
  | done solution => exact absurd rfl nonempty
  | @step before after lagrange values first steps _ tail ih =>
      cases tail with
      | done solution => exact ⟨first, rfl, rfl⟩
      | step second tail =>
          obtain ⟨last, found, equal⟩ := ih (List.cons_ne_nil _ _)
          exact ⟨last, by rw [List.getLast?_cons_cons, found], equal⟩

theorem fitValues_chain (wellFormed : path.WellFormed) (current : ℝ)
    (nonneg : ∀ lagrange ∈ values, 0 ≤ lagrange) :
    SameModel path (fitValues current values path).2 ∧
      ∀ steps, (fitValues current values path).1 = .ok steps →
        path.Chain path.solution values steps (fitValues current values path).2.solution := by
  induction values generalizing path current with
  | nil =>
      refine ⟨.refl path, ?_⟩
      rintro _ ⟨⟩
      exact .done _
  | cons next rest ih =>
      obtain ⟨first, later⟩ := List.forall_mem_cons.1 nonneg
      have advances := fitValue_advances wellFormed current first
      unfold fitValues
      cases outcome : path.fitValue current next with
      | mk result middle =>
          rw [outcome] at advances
          cases result with
          | error failure =>
              refine ⟨advances.model, ?_⟩
              rintro _ ⟨⟩
          | ok step =>
              obtain ⟨same, chain⟩ := ih (advances.model.wellFormed wellFormed)
                (if step.status = .converged then next else current) later
              simp only
              cases remaining :
                  fitValues (if step.status = .converged then next else current) rest middle with
              | mk outcome last =>
                  rw [remaining] at same chain
                  cases outcome with
                  | error failure =>
                      refine ⟨advances.model.trans same, ?_⟩
                      rintro _ ⟨⟩
                  | ok steps =>
                      refine ⟨advances.model.trans same, ?_⟩
                      rintro _ ⟨⟩
                      have after := advances.reached step rfl
                      refine .step (advances.stepped step rfl) ?_
                      exact advances.model.chain (after ▸ chain steps rfl)

theorem fit_chain (wellFormed : path.WellFormed) (given : Option (List ℝ)) :
    SameModel path (path.fit given).2 ∧
      ∀ sequence result, given = some sequence → (path.fit given).1 = .ok result →
        sequence ≠ [] ∧ path.Chain path.solution sequence result.steps (path.fit given).2.solution := by
  unfold fit
  cases listed : path.sequence given with
  | error failure => exact ⟨.refl path, nofun⟩
  | ok values =>
      obtain ⟨accepted, same⟩ := sequence_eq_ok listed
      obtain ⟨nonempty, positive, -⟩ := Grid.validate_eq_ok.1 accepted
      obtain ⟨model, chain⟩ := fitValues_chain wellFormed path.lagrangeMax
        fun lagrange member => (positive lagrange member).2.le
      simp only
      cases outcome : fitValues path.lagrangeMax values path with
      | mk steps reached =>
          rw [outcome] at model chain
          cases steps with
          | error failure => exact ⟨model, nofun⟩
          | ok steps =>
              refine ⟨model, ?_⟩
              rintro sequence _ rfl ⟨⟩
              obtain rfl := same sequence rfl
              exact ⟨nonempty, chain steps rfl⟩

end

inductive Reachable : Path ℝ → Prop where
  | build {loss : Loss ℝ} {design : Design ℝ} {l1 l2 : Array ℝ} {ridgeParameter : Option (Mat ℝ)}
      {options : PathOptions ℝ} {path : Path ℝ} :
      Path.build loss design l1 l2 ridgeParameter options = .ok path → Reachable path
  | fit {path : Path ℝ} (given : Option (List ℝ)) : Reachable path → Reachable (path.fit given).2
  | markEverActive {path : Path ℝ} (groups : List Nat) :
      Reachable path → Reachable (path.markEverActive groups)

theorem Reachable.wellFormed {path : Path ℝ} (reachable : Reachable path) : path.WellFormed := by
  induction reachable with
  | build built => exact (build_fresh built).wellFormed
  | fit given _ ih => exact (fit_chain ih given).1.wellFormed ih
  | @markEverActive path groups _ ih =>
      have same : SameModel path (path.markEverActive groups) := ⟨rfl, rfl, rfl, rfl, rfl⟩
      exact same.wellFormed ih

theorem mem_activeGroups {solution : Mat ℝ} {group : Nat} :
    group ∈ activeGroups solution ↔
      group < solution.rows ∧ ∃ col < solution.cols, solution.get group col ≠ 0 := by
  rw [activeGroups, List.mem_filter, List.mem_range, decide_eq_true_iff, Mat.rowNorm_pos_iff, ne_eq,
    Mat.rowNorm_eq_zero]
  simp only [not_forall, exists_prop]

/-- After any history of runs and marked groups, a successful run over a given sequence returns one
step for each value, in order. Converged steps are certified in every group, skipped steps keep the
solution before them, the active groups are the nonzero rows in ascending order, and the path ends at
the solution of the last step. -/
theorem fit_certified {path reached : Path ℝ} {sequence : List ℝ} {result : PathResult ℝ}
    (reachable : Reachable path) (run : path.fit (some sequence) = (.ok result, reached)) :
    result.lagrange = sequence ∧
      (∀ step ∈ result.steps, step.status = .converged →
        path.CertifiedAt step.lagrange step.solution) ∧
      (∀ (index : Nat) (step : PathStep ℝ), result.steps[index]? = some step →
        step.status = .skipped → (path.solution :: result.solutions)[index]? = some step.solution) ∧
      (∀ step ∈ result.steps, step.active.Pairwise (· < ·) ∧ ∀ group, group ∈ step.active ↔
        group < step.solution.rows ∧
          ∃ col < step.solution.cols, step.solution.get group col ≠ 0) ∧
      ∃ last, result.last? = some last ∧ reached.solution = last.solution := by
  obtain ⟨-, successful⟩ := fit_chain reachable.wellFormed (some sequence)
  rw [run] at successful
  obtain ⟨nonempty, chain⟩ := successful sequence result rfl rfl
  have sound : ∀ step ∈ result.steps, ∃ previous, path.StepFrom previous step.lagrange step := by
    intro step member
    obtain ⟨index, listed⟩ := List.mem_iff_getElem?.1 member
    obtain ⟨previous, -, stepFrom⟩ := chain.stepFrom listed
    exact ⟨previous, stepFrom⟩
  refine ⟨chain.lagrange, ?_, ?_, ?_, ?_⟩
  · intro step member converged
    obtain ⟨_, stepFrom⟩ := sound step member
    exact stepFrom.certified converged
  · intro index step listed skipped
    obtain ⟨previous, found, stepFrom⟩ := chain.stepFrom listed
    rw [stepFrom.kept skipped]
    exact found
  · intro step member
    obtain ⟨_, stepFrom⟩ := sound step member
    rw [stepFrom.active]
    exact ⟨List.pairwise_lt_range.filter _, fun _ => mem_activeGroups⟩
  · exact chain.last nonempty

/-! The solution of the one coefficient. Below Lagrange value one it is one, soft-thresholded. -/

section
variable {coef : Mat ℝ}

theorem unit_predictor (shape : coef.shape = ⟨1, 1⟩) :
    ((unitDesign : Design ℝ).restrict [0]).dot coef = coef := by
  have cols : coef.cols = 1 := Mat.cols_eq shape
  refine unit_ext (congrArg (Shape.mk 1) cols) shape ?_
  simp [unitDesign, Design.restrict, Design.dot, Mat.mul, Mat.selectColumns, Mat.get_ofFn, cols]

theorem unit_value (shape : coef.shape = ⟨1, 1⟩) :
    (⟨unitLoss, unitDesign.restrict [0], none⟩ : Composed ℝ).value coef =
      1 / 2 * (coef.get 0 0 - 1) ^ 2 := by
  simp only [Composed.value, unit_predictor shape]
  simp [unitLoss, Loss.value, Gaussian.value, Gaussian.ofResponse, CaseWeights.unit, Mat.get_ofFn]
  ring

theorem unit_gradient (shape : coef.shape = ⟨1, 1⟩) :
    (⟨unitLoss, unitDesign.restrict [0], none⟩ : Composed ℝ).gradient coef =
      Mat.ofFn 1 1 fun _ _ => coef.get 0 0 - 1 := by
  simp only [Composed.gradient, unit_predictor shape]
  refine unit_ext rfl rfl ?_
  simp [unitLoss, unitDesign, Loss.gradient, Gaussian.gradient, Gaussian.ofResponse, CaseWeights.unit,
    Design.restrict, Design.adjoint, Mat.transposeMul, Mat.selectColumns, Mat.get_ofFn]

theorem unit_frobenius (shape : coef.shape = ⟨1, 1⟩) : coef.frobenius = |coef.get 0 0| := by
  have rows : coef.rows = 1 := Mat.rows_eq shape
  have cols : coef.cols = 1 := Mat.cols_eq shape
  rw [Mat.frobenius_real, rows, cols, Finset.sum_range_one, Finset.sum_range_one, Real.sqrt_sq_eq_abs]

theorem unit_difference (shape : coef.shape = ⟨1, 1⟩) :
    coef.addScaled (-1) (Mat.zero 1 1) = coef := by
  refine unit_ext shape shape ?_
  rw [Mat.get_addScaled shape, Mat.get_zero, mul_zero, add_zero]

end

section
variable {coef : Mat ℝ} {lagrange : ℝ}

def unitProblem {α : Type} [Scalar α] (lagrange : α) : Problem α :=
  let smooth : Composed α := ⟨unitLoss, unitDesign.restrict [0], none⟩
  ⟨smooth.smooth, (unitPenalty.withLagrange lagrange).over [0], Mat.zero 1 1, 1⟩

theorem unit_proximal {step : ℝ} (above : step * lagrange < coef.get 0 0) :
    (unitProblem lagrange).penalty.proximal coef step =
      Mat.ofFn 1 1 fun _ _ => coef.get 0 0 - step * lagrange := by
  have thresholded : softThreshold (coef.get 0 0) (step * lagrange) = coef.get 0 0 - step * lagrange :=
    if_pos above
  refine unit_ext rfl rfl ?_
  simp [unitProblem, unitPenalty, Penalty.proximal, Penalty.over, Penalty.withLagrange, Penalty.l1At,
    Penalty.l2At, Mat.get_ofFn, thresholded, Penalty.shrinkage, Mat.rowNorm]
  exact Eq.symm

theorem bound_entry {point found : Mat ℝ} (pointShape : point.shape = ⟨1, 1⟩)
    (foundShape : found.shape = ⟨1, 1⟩) (value slope step : ℝ) :
    Problem.bound value (.ofFn 1 1 fun _ _ => slope) (found.addScaled (-1) point) step =
      value + slope * (found.get 0 0 - point.get 0 0) +
        (found.get 0 0 - point.get 0 0) ^ 2 / (2 * step) := by
  have extent : (found.addScaled (-1) point).shape = ⟨1, 1⟩ := foundShape
  have rows : (found.addScaled (-1) point).rows = 1 := Mat.rows_eq extent
  have cols : (found.addScaled (-1) point).cols = 1 := Mat.cols_eq extent
  simp [Problem.bound, Mat.inner, rows, cols, Mat.get_ofFn,
    Mat.get_addScaled (foundShape.trans pointShape.symm)]
  ring

theorem unit_bound {point found : Mat ℝ} (pointShape : point.shape = ⟨1, 1⟩)
    (foundShape : found.shape = ⟨1, 1⟩) (step : ℝ) :
    Problem.bound ((unitProblem lagrange).smooth.value point)
        ((unitProblem lagrange).smooth.gradient point) (found.addScaled (-1) point) step =
      (unitProblem lagrange).smooth.value found +
        (1 / step - 1) / 2 * (found.get 0 0 - point.get 0 0) ^ 2 := by
  have value : ∀ {coef : Mat ℝ}, coef.shape = ⟨1, 1⟩ →
      (unitProblem lagrange).smooth.value coef = 1 / 2 * (coef.get 0 0 - 1) ^ 2 := unit_value
  have gradient : (unitProblem lagrange).smooth.gradient point =
      Mat.ofFn 1 1 fun _ _ => point.get 0 0 - 1 := unit_gradient pointShape
  rw [value pointShape, value foundShape, gradient, bound_entry pointShape foundShape]
  ring

section
variable {point found : Mat ℝ} {step : ℝ} (pointShape : point.shape = ⟨1, 1⟩)
  (foundShape : found.shape = ⟨1, 1⟩) (step_pos : 0 < step) (short : step ≤ 1)

include pointShape foundShape step_pos short

theorem unit_below : (unitProblem lagrange).smooth.value found ≤
    Problem.bound ((unitProblem lagrange).smooth.value point)
      ((unitProblem lagrange).smooth.gradient point) (found.addScaled (-1) point) step := by
  have curved : 0 ≤ 1 / step - 1 := sub_nonneg.2 (one_le_one_div step_pos short)
  rw [unit_bound pointShape foundShape]
  exact le_add_of_nonneg_right (mul_nonneg (div_nonneg curved two_pos.le) (sq_nonneg _))

theorem unit_accepts : (unitProblem lagrange).accepts point ((unitProblem lagrange).smooth.value point)
    ((unitProblem lagrange).smooth.gradient point) found step :=
  Problem.accepts_of_le (unit_below pointShape foundShape step_pos short)

end

theorem unit_candidate {step : ℝ} (below : lagrange < 1) (step_pos : 0 < step) :
    (unitProblem lagrange).candidate (Mat.zero 1 1)
        ((unitProblem lagrange).smooth.gradient (Mat.zero 1 1)) step =
      Mat.ofFn 1 1 fun _ _ => step * (1 - lagrange) := by
  have gradient : (unitProblem lagrange).smooth.gradient (Mat.zero 1 1) =
      Mat.ofFn 1 1 fun _ _ => -1 := by
    refine (unit_gradient rfl).trans ?_
    simp
  have entry : ((Mat.zero 1 1 : Mat ℝ).addScaled (-step) (Mat.ofFn 1 1 fun _ _ => -1)).get 0 0 =
      step := by
    simp [Mat.addScaled, Mat.get_ofFn]
  rw [Problem.candidate, gradient, unit_proximal, entry, mul_one_sub]
  rw [entry]
  exact mul_lt_of_lt_one_right step_pos below

theorem unit_first {options : SolveOptions ℝ} {step : ℝ} (below : lagrange < 1) (step_pos : 0 < step)
    (short : step ≤ 1) (starting : (unitProblem lagrange).startingStep options = step) :
    let found : Mat ℝ := Mat.ofFn 1 1 fun _ _ => step * (1 - lagrange)
    (unitProblem lagrange).firstCandidate options = found ∧
      (unitProblem lagrange).accepts (Mat.zero 1 1) ((unitProblem lagrange).smooth.value (Mat.zero 1 1))
        ((unitProblem lagrange).smooth.gradient (Mat.zero 1 1)) found step := by
  refine ⟨?_, unit_accepts rfl rfl step_pos short⟩
  rw [Problem.firstCandidate, starting]
  exact unit_candidate below step_pos

theorem unit_solve_step {options : SolveOptions ℝ} {step : ℝ} (below : lagrange < 1)
    (step_pos : 0 < step) (short : step ≤ 1) (budget : 1 ≤ options.maxIterations)
    (first : options.initialStep = some step) (loose : step * (1 - lagrange) ≤ options.tolerance) :
    ((unitProblem lagrange).solve options).1 =
      .ok (Mat.ofFn 1 1 fun _ _ => step * (1 - lagrange)) := by
  let found : Mat ℝ := Mat.ofFn 1 1 fun _ _ => step * (1 - lagrange)
  have starting : (unitProblem lagrange).startingStep options = step := by
    simp [Problem.startingStep, first, step_pos]
  obtain ⟨candidate, accepted⟩ := unit_first below step_pos short starting
  refine Problem.solve_of_accepts budget candidate (by rwa [starting]) ?_
  change (found.addScaled (-1) (Mat.zero 1 1)).frobenius ≤ options.tolerance
  have foundShape : found.shape = ⟨1, 1⟩ := rfl
  have entry : found.get 0 0 = step * (1 - lagrange) := Mat.get_ofFn _ one_pos one_pos
  rwa [unit_difference foundShape, unit_frobenius foundShape, entry,
    abs_of_pos (mul_pos step_pos (sub_pos.2 below))]

theorem unit_solve {options : SolveOptions ℝ} (positive : 0 < lagrange) (below : lagrange < 1)
    (budget : 1 ≤ options.maxIterations) (first : options.initialStep = some 1)
    (loose : 1 ≤ options.tolerance) :
    ((unitProblem lagrange).solve options).1 = .ok (Mat.ofFn 1 1 fun _ _ => 1 - lagrange) := by
  simpa only [one_mul] using unit_solve_step below one_pos le_rfl budget first (by linarith)

end

section
variable {start path : Path ℝ} {events : List (Event ℝ)} {options : SolveOptions ℝ} {lagrange : ℝ}

theorem candidates_of_single (single : path.groups = 1) (listed : 0 ∈ path.candidates) :
    path.candidates = [0] := by
  apply List.perm_singleton.1
  rw [List.perm_ext_iff_of_nodup (candidates_nodup path) (List.nodup_singleton 0)]
  intro group
  rw [List.mem_singleton]
  constructor
  · intro member
    exact Nat.lt_one_iff.1 (single ▸ candidates_inRange path group member)
  · rintro rfl
    exact listed

section
variable (model : UnitModel path)

include model

theorem UnitModel.restrictedProblem (zero : path.solution = Mat.zero 1 1) :
    path.restrictedProblem [0] lagrange = unitProblem lagrange := by
  have warm : path.solution.selectRows [0] = Mat.zero 1 1 := by
    rw [zero]
    refine unit_ext rfl rfl ?_
    simp [Mat.selectRows, Mat.get_ofFn]
  simp [Path.restrictedProblem, unitProblem, smoothOver, Restriction.ridge, model.alpha, model.loss,
    model.design, model.penalty, warm]

theorem UnitModel.solveSubproblem (zero : path.solution = Mat.zero 1 1) (positive : 0 < lagrange)
    (options : SolveOptions ℝ) : ∃ assembled : Mat ℝ → Subsolution ℝ,
      (∀ found, (assembled found).solution = found) ∧
      path.solveSubproblem [0] lagrange options =
        ((unitProblem lagrange).solve (path.request options)).1.map assembled := by
  have inRange : ∀ group ∈ [0], group < path.groups := by
    rw [model.groups]
    decide
  have shape : path.solution.shape = path.shape := by
    rw [zero]
    exact model.shape.symm
  rw [solveSubproblem_eq model.wellFormed positive.le (List.nodup_singleton 0) inRange shape
    (List.cons_ne_nil _ _), model.restrictedProblem zero]
  exact ⟨_, fun _ => rfl, rfl⟩

theorem UnitModel.solve {found : Mat ℝ} (zero : path.solution = Mat.zero 1 1) (positive : 0 < lagrange)
    (solved : ((unitProblem lagrange).solve (path.request options)).1 = .ok found) :
    ∃ sub, path.solveSubproblem [0] lagrange options = .ok sub ∧ sub.solution = found := by
  obtain ⟨assembled, solution, run⟩ := model.solveSubproblem zero positive options
  rw [run, solved]
  exact ⟨_, rfl, solution found⟩

theorem UnitModel.trial_solution {sub : Subsolution ℝ} {trial : Trial ℝ}
    (listed : path.candidates = [0]) (solved : path.solveSubproblem [0] lagrange options = .ok sub)
    (subShape : sub.solution.shape = ⟨1, 1⟩) (tried : path.trial lagrange options = .ok trial) :
    trial.solution = sub.solution := by
  have trialShape : trial.solution.shape = ⟨1, 1⟩ := (trial_shape tried).trans model.shape
  obtain ⟨other, solvedAgain, finished⟩ := Failure.bind_eq_ok.1 tried
  rw [listed, solved] at solvedAgain
  cases solvedAgain
  have embedded : trial.solution = (Mat.zero 1 1).scatterRows [0] sub.solution := by
    cases finished
    rw [listed, model.shape]
  refine unit_ext trialShape subShape ?_
  rw [embedded]
  exact Mat.get_embedded _ (List.nodup_singleton 0) (by simp) (Mat.cols_eq subShape) one_pos 0

theorem UnitModel.restrictTo (positive : 0 < lagrange) :
    ∃ mask, path.restrictTo [0] lagrange =
      .ok ⟨⟨unitLoss, unitDesign.restrict [0], none⟩, (unitProblem lagrange).penalty, mask⟩ := by
  have inRange : ∀ group ∈ [0], group < path.groups := by
    rw [model.groups]
    decide
  obtain ⟨mask, restricted⟩ :=
    restrictTo_eq_ok model.wellFormed positive.le (List.nodup_singleton 0) inRange
  refine ⟨mask, restricted.trans ?_⟩
  simp [unitProblem, smoothOver, Restriction.ridge, model.alpha, model.loss, model.design,
    model.penalty]

end

/-- The one coefficient is a candidate that was not solved for yet, and the solver may stop after one
pass. -/
structure UnitStart (path : Path ℝ) (options : SolveOptions ℝ) : Prop where
  model : UnitModel path
  zero : path.solution = Mat.zero 1 1
  step : path.step = 1
  listed : path.candidates = [0]
  budget : 1 ≤ options.maxIterations
  unset : options.initialStep = none
  loose : 1 ≤ options.tolerance

section
variable (begins : UnitStart path options) (positive : 0 < lagrange) (below : lagrange < 1)

include begins positive below

theorem UnitStart.solve : ∃ sub, path.solveSubproblem [0] lagrange options = .ok sub ∧
    sub.solution = Mat.ofFn 1 1 fun _ _ => 1 - lagrange := by
  obtain ⟨model, zero, step, -, budget, unset, loose⟩ := begins
  have first : (path.request options).initialStep = some 1 := by
    simp only [request, unset, step]
    rfl
  exact model.solve zero positive (unit_solve positive below budget first loose)

theorem UnitStart.solvesExactly : path.SolvesExactly lagrange options := by
  obtain ⟨sub, solved, solution⟩ := begins.solve positive below
  obtain ⟨mask, restricted⟩ := begins.model.restrictTo positive
  let smooth : Composed ℝ := ⟨unitLoss, unitDesign.restrict [0], none⟩
  let found : Mat ℝ := Mat.ofFn 1 1 fun _ _ => 1 - lagrange
  have fixed : found = (unitProblem lagrange).penalty.proximal
      (found.addScaled (-1) (smooth.gradient found)) 1 := by
    have entry : (found.addScaled (-1) (smooth.gradient found)).get 0 0 = 1 := by
      rw [unit_gradient rfl]
      simp [found, Mat.addScaled, Mat.get_ofFn]
    rw [unit_proximal (by rwa [entry, one_mul]), entry, one_mul]
  rw [SolvesExactly, begins.listed]
  refine ⟨sub, _, 1, solved, restricted, one_pos, ?_⟩
  rw [solution]
  exact fixed

theorem UnitStart.trial : ∃ trial, path.trial lagrange options = .ok trial ∧
    trial.violators.isEmpty ∧ trial.solution = Mat.ofFn 1 1 fun _ _ => 1 - lagrange := by
  have model := begins.model
  obtain ⟨sub, solved, solution⟩ := begins.solve positive below
  obtain ⟨trial, tried, -, outside⟩ := trial_of_exact model.wellFormed model.kkt_pos positive
    (begins.solvesExactly positive below)
  have found := model.trial_solution begins.listed solved (by rw [solution]; rfl) tried
  refine ⟨trial, tried, List.isEmpty_iff.2 (List.eq_nil_iff_forall_not_mem.2 ?_),
    found.trans solution⟩
  intro group member
  obtain ⟨bound, unlisted⟩ := outside group member
  rw [model.groups] at bound
  rw [begins.listed] at unlisted
  exact unlisted (List.mem_singleton.2 (Nat.lt_one_iff.1 bound))

end

theorem UnitModel.begins (model : UnitModel start) (fresh : Fresh start)
    (zero : start.solution = Mat.zero 1 1) (step : start.step = 1) (trace : Trace start events path)
    (uncommitted : commits events = []) {marked : List Nat} (mark : .mark marked ∈ events)
    (listed : 0 ∈ marked) (budget : 1 ≤ options.maxIterations) (unset : options.initialStep = none)
    (loose : 1 ≤ options.tolerance) : UnitStart path options := by
  have fit := trace.sameFit uncommitted
  have only : path.candidates = [0] :=
    candidates_of_single (model.sameModel trace.sameModel).groups
      ((model.listed_iff fresh trace).2 ⟨rfl, marked, mark, listed⟩)
  exact ⟨model.sameModel trace.sameModel, fit.solution.trans zero, fit.step.trans step, only, budget,
    unset, loose⟩

theorem unit_begins {retries : Nat} (trace : Trace (unitPath retries) events path)
    (uncommitted : commits events = []) {marked : List Nat} (mark : .mark marked ∈ events)
    (listed : 0 ∈ marked) : UnitStart path (unitPath retries : Path ℝ).options.solve := by
  refine (unit_model retries).begins (unit_fresh retries) rfl rfl trace uncommitted mark listed ?_ rfl
    le_rfl
  norm_num [unitPath, unitPathWith, withGradient, blank, PathOptions.default, PathOptions.solve]

theorem unit_fit_marked (positive : 0 < lagrange) (below : lagrange < 1) :
    let path : Path ℝ := (unitPath 0).markEverActive [0]
    let screened := path.screen path.lagrangeMax lagrange
    ∃ trial, path.fit (some [lagrange]) =
        (.ok ⟨path.lagrangeMax, [screened.certifiedStep lagrange 1 trial], screened.log.entries⟩,
          screened.commit trial) ∧
      trial.solution = Mat.ofFn 1 1 fun _ _ => 1 - lagrange := by
  intro path screened
  have begins : UnitStart screened path.options.solve := by
    refine unit_begins (.next (.mark [0]) (.single (.mark _))) rfl ?_ (List.mem_singleton_self 0)
    exact List.mem_cons_self ..
  obtain ⟨trial, tried, passed, solution⟩ := begins.trial positive below
  exact ⟨trial, fit_of_value positive (fitValue_of_trial tried passed), solution⟩

theorem fit_certified_unit :
    let path : Path ℝ := (unitPath 0).markEverActive [0]
    Path.build unitLoss unitDesign #[1] #[0] none (unitPath 0 : Path ℝ).options = .ok (unitPath 0) ∧
      Reachable path ∧ ∃ result reached step, path.fit (some [1 / 2]) = (.ok result, reached) ∧
        result.lagrange = [1 / 2] ∧ result.steps = [step] ∧ step.status = .converged ∧
        step.lagrange = 1 / 2 ∧ step.solution.get 0 0 = 1 / 2 ∧
        path.CertifiedAt (1 / 2) step.solution ∧ (∀ group, group ∈ step.active ↔ group = 0) ∧
        reached.solution = step.solution := by
  intro path
  have reachable : Reachable path := (Reachable.build (build_unit 0)).markEverActive [0]
  obtain ⟨trial, run, solution⟩ := unit_fit_marked one_half_pos one_half_lt_one
  obtain ⟨values, certified, -, active, last, listed, ends⟩ := fit_certified reachable run
  have entry : trial.solution.get 0 0 = 1 / 2 := by
    rw [solution, Mat.get_ofFn _ one_pos one_pos]
    norm_num
  cases listed
  refine ⟨build_unit 0, reachable, _, _, _, run, values, rfl, rfl, rfl, entry,
    certified _ (List.mem_singleton_self _) rfl, fun group => ?_, ends⟩
  obtain ⟨-, members⟩ := active _ (List.mem_singleton_self _)
  have extent : trial.solution.rows = 1 ∧ trial.solution.cols = 1 := by
    rw [solution]
    exact ⟨rfl, rfl⟩
  rw [members]
  change group < trial.solution.rows ∧ (∃ col < trial.solution.cols, _) ↔ _
  rw [extent.1, extent.2, Nat.lt_one_iff]
  refine and_iff_left_of_imp ?_
  rintro rfl
  exact ⟨0, one_pos, entry.trans_ne (by norm_num)⟩

end

end Path

end GroupLasso
