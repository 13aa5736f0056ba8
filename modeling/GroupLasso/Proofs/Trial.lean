import GroupLasso.Path.Fit
import GroupLasso.Proofs.Subproblem

/-!
One trial at a Lagrange value. Whatever the candidates are, the gradient that the checks read is the
gradient of loss and ridge term at the solution put among all groups, so that a trial without
violators has a solution that is certified for the full problem.
-/

namespace GroupLasso

open Scalar

namespace Problem

variable {problem : Problem ℝ}

theorem search_shape {point gradient found : Mat ℝ} {value step last : ℝ} {halvings : Nat}
    (searched : problem.search point value gradient halvings step = some (found, last)) :
    found.shape = problem.penalty.shape := by
  induction halvings generalizing step with
  | zero =>
      simp only [search] at searched
      split_ifs at searched
      cases searched
      rfl
  | succ halvings ih =>
      simp only [search] at searched
      split_ifs at searched
      · cases searched
        rfl
      · exact ih searched

theorem pass_shape {tolerance step : ℝ} {iteration : Nat} {iterate : Iterate ℝ} {solution : Mat ℝ}
    (converged : problem.pass tolerance iteration iterate = .converged solution step) :
    solution.shape = problem.penalty.shape := by
  simp only [pass] at converged
  split_ifs at converged
  split at converged
  · cases converged
  · rename_i found last searched
    split_ifs at converged
    cases converged
    exact search_shape searched

theorem run_shape {options : SolveOptions ℝ} {budget : Nat} {iterate : Iterate ℝ} {step : ℝ}
    {solution : Mat ℝ} (finished : (problem.run options budget iterate step).result = .ok solution) :
    solution.shape = problem.penalty.shape := by
  induction budget generalizing iterate step with
  | zero => cases finished
  | succ budget ih =>
      simp only [run] at finished
      split at finished
      · rename_i converged
        cases finished
        exact pass_shape converged
      · cases finished
      · exact ih finished

theorem solve_shape {options : SolveOptions ℝ} {solution : Mat ℝ}
    (solved : (problem.solve options).1 = .ok solution) :
    solution.shape = problem.penalty.shape := run_shape solved

theorem ofPenalty_penalty {smooth : Smooth ℝ} {penalty : Penalty ℝ}
    (built : ofPenalty smooth penalty = .ok problem) : problem.penalty = penalty := by
  obtain ⟨_, _, result⟩ := Failure.bind_eq_ok.1 built
  cases result
  rfl

theorem warmStart_penalty {warm : Problem ℝ} {coefs : Mat ℝ}
    (started : problem.warmStart coefs = .ok warm) : warm.penalty = problem.penalty := by
  obtain ⟨_, _, result⟩ := Failure.bind_eq_ok.1 started
  cases result
  rfl

end Problem

theorem Design.dot_zero (design : Design ℝ) (rows : Nat) :
    design.dot (Mat.zero rows design.responses) =
      Mat.zero design.outputShape.rows design.outputShape.cols := by
  cases design with
  | dense matrix responses =>
      simp only [Design.dot, Mat.mul, sumTo_real, Mat.get_zero, mul_zero, Finset.sum_const_zero]
      rfl
  | block first rest =>
      simp only [Design.dot, sumTo_real, Mat.get_zero, mul_zero, Finset.sum_const_zero]
      rfl

namespace Path

variable {path : Path ℝ}

theorem restrictTo_eq_ok {groups : List Nat} {lagrange : ℝ} (wellFormed : path.WellFormed)
    (nonneg : 0 ≤ lagrange) (distinct : groups.Nodup)
    (inRange : ∀ group ∈ groups, group < path.groups) :
    ∃ mask, path.restrictTo groups lagrange = .ok ⟨
      if groups.isEmpty then ⟨path.loss, path.design.restrict groups, none⟩
        else path.smoothOver groups lagrange,
      (path.penalty.withLagrange (path.options.alpha * lagrange)).over groups, mask⟩ := by
  obtain ⟨mask, built⟩ := problem_eq_ok wellFormed nonneg distinct inRange
  have ridged := withRidge_smoothOver groups lagrange wellFormed
  refine ⟨mask, ?_⟩
  unfold restrictTo
  rw [Failure.bind_eq_ok]
  refine ⟨_, built, ?_⟩
  by_cases empty : groups.isEmpty
  · rw [if_pos empty, if_pos empty]
    rfl
  · rw [if_neg empty, if_neg empty]
    cases chosen : Restriction.ridge path.ridgeParameter path.penalty.penalizedMask lagrange
        path.options.alpha groups with
    | none =>
        rw [chosen] at ridged
        simp only [Except.ok.injEq] at ridged
        rw [← ridged]
        rfl
    | some ridge =>
        rw [chosen] at ridged
        rw [Failure.bind_eq_ok]
        exact ⟨_, ridged, rfl⟩

theorem solveSubproblem_predictor {groups : List Nat} {lagrange : ℝ} {options : SolveOptions ℝ}
    {sub : Subsolution ℝ} (wellFormed : path.WellFormed) (nonneg : 0 ≤ lagrange)
    (distinct : groups.Nodup) (inRange : ∀ group ∈ groups, group < path.groups)
    (solved : path.solveSubproblem groups lagrange options = .ok sub) :
    sub.predictor = path.design.dot (path.embed groups sub.solution) := by
  obtain ⟨mask, restricted⟩ := restrictTo_eq_ok wellFormed nonneg distinct inRange
  obtain ⟨problem, built, solved⟩ := Failure.bind_eq_ok.1 solved
  rw [restricted] at built
  cases built
  have inputs : path.shape.cols = path.design.responses := congrArg Shape.cols wellFormed.inputs
  by_cases empty : groups.isEmpty
  · rw [if_pos empty] at solved
    cases solved
    have none : groups = [] := List.isEmpty_iff.1 empty
    subst none
    have nothing : ∀ coef, path.embed [] coef = Mat.zero path.shape.rows path.shape.cols :=
      fun _ => rfl
    rw [nothing, inputs, Design.dot_zero, ← wellFormed.outputs]
    rfl
  · rw [if_neg empty] at solved
    obtain ⟨fresh, fromZero, solved⟩ := Failure.bind_eq_ok.1 solved
    obtain ⟨warm, started, solved⟩ := Failure.bind_eq_ok.1 solved
    obtain ⟨solution, finished, solved⟩ := Failure.bind_eq_ok.1 solved
    cases solved
    have shape := Problem.solve_shape finished
    rw [Problem.warmStart_penalty started, Problem.ofPenalty_penalty fromZero] at shape
    have width : solution.cols = path.shape.cols := by rw [Mat.cols_eq shape]; rfl
    simp only [if_neg empty]
    exact dot_smoothOver lagrange distinct inRange width

section
variable {α : Type} [Scalar α]

theorem candidates_nodup (path : Path α) : path.candidates.Nodup :=
  List.nodup_range.filter _

theorem candidates_inRange (path : Path α) : ∀ group ∈ path.candidates, group < path.groups := by
  intro group member
  have bound := List.mem_range.1 (List.mem_filter.1 member).1
  have length : (Mask.ofIndices path.penalty.unpenalized path.groups).length = path.groups := by
    rw [Mask.ofIndices, Mask.length_insertAll, Mask.empty, List.length_replicate]
  rw [Mask.union, List.length_zipWith, length] at bound
  omega

theorem mem_candidates {path : Path α} {group : Nat}
    (length : path.everActiveMask.length = path.groups) :
    group ∈ path.candidates ↔
      path.everActiveMask.contains group = true ∨ group ∈ path.penalty.unpenalized := by
  have lengths : path.everActiveMask.length =
      (Mask.ofIndices path.penalty.unpenalized path.groups).length := by
    rw [length, Mask.length_ofIndices]
  rw [candidates, Mask.mem_toIndices, Mask.contains_union lengths, Mask.contains_ofIndices]
  constructor
  · rintro (active | ⟨listed, _⟩)
    · exact .inl active
    · exact .inr listed
  · rintro (active | listed)
    · exact .inl active
    · exact .inr ⟨listed, (Penalty.mem_unpenalized.1 listed).1⟩

/-! What a trial reports. -/

theorem trial_sub (path : Path α) (lagrange : α) (options : SolveOptions α) :
    (path.trial lagrange options).map Trial.sub =
      path.solveSubproblem path.candidates lagrange options := by
  unfold trial
  dsimp only
  cases path.solveSubproblem path.candidates lagrange options with
  | error failure => rfl
  | ok sub => rfl

theorem trial_eq_error {path : Path α} {lagrange : α} {options : SolveOptions α} {failure : Failure α} :
    path.trial lagrange options = .error failure ↔
      path.solveSubproblem path.candidates lagrange options = .error failure := by
  rw [← trial_sub]
  cases path.trial lagrange options with
  | error other => simp [Except.map]
  | ok trial => simp [Except.map]

theorem trial_shape {path : Path α} {lagrange : α} {options : SolveOptions α} {trial : Trial α}
    (tried : path.trial lagrange options = .ok trial) : trial.solution.shape = path.shape := by
  obtain ⟨sub, _, finished⟩ := Failure.bind_eq_ok.1 tried
  cases finished
  simp [Mat.shape]

theorem trial_violators {path : Path α} {lagrange : α} {options : SolveOptions α} {trial : Trial α}
    (tried : path.trial lagrange options = .ok trial) :
    trial.violators.Pairwise (· < ·) ∧ ∀ group ∈ trial.violators, group < path.groups := by
  obtain ⟨sub, -, finished⟩ := Failure.bind_eq_ok.1 tried
  cases finished
  refine ⟨Mask.sorted_toIndices _, fun group listed => ?_⟩
  have bound : group < path.shape.rows := by
    simpa [check, Optimality.check] using List.mem_range.1 (List.mem_filter.1 listed).1
  exact bound

end

/-- The full problem at a Lagrange value certifies a solution: it has a row for every group, and the
checks pass in all of them for the gradient of loss and ridge term at that solution. -/
def CertifiedAt (path : Path ℝ) (lagrange : ℝ) (solution : Mat ℝ) : Prop :=
  solution.shape = path.shape ∧ Optimality.Certified
    ((path.fullGradient (path.design.dot solution)).add (path.ridgeGradient solution lagrange))
    solution path.penalty.l1 path.penalty.l2 (path.options.alpha * lagrange)
    path.options.kktTolerance

theorem violators_eq_nil {gradient solution : Mat ℝ} {lagrange : ℝ} (wellFormed : path.WellFormed)
    (gradientRows : gradient.rows = path.groups) (solutionRows : solution.rows = path.groups) :
    path.violators gradient solution lagrange = [] ↔
      Optimality.Certified gradient solution path.penalty.l1 path.penalty.l2 lagrange
        path.options.kktTolerance := by
  rw [violators, Mask.toIndices_eq_nil, Optimality.certified_iff, solutionRows]
  constructor
  · intro passes
    refine ⟨fun group bound => Optimality.canCheck wellFormed.weights gradientRows bound, ?_⟩
    intro status member
    simpa [Optimality.isViolation] using passes _ (List.mem_map_of_mem member)
  · rintro ⟨-, satisfied⟩ _ listed
    obtain ⟨status, member, rfl⟩ := List.mem_map.1 listed
    rw [satisfied status member]
    rfl

theorem trial_gradient {lagrange : ℝ} {options : SolveOptions ℝ} {trial : Trial ℝ}
    (wellFormed : path.WellFormed) (nonneg : 0 ≤ lagrange)
    (tried : path.trial lagrange options = .ok trial) :
    trial.solution.shape = path.shape ∧
      trial.gradient = (path.fullGradient (path.design.dot trial.solution)).add
        (path.ridgeGradient trial.solution lagrange) ∧
      trial.violators = path.violators trial.gradient trial.solution
        (path.options.alpha * lagrange) := by
  obtain ⟨sub, solved, finished⟩ := Failure.bind_eq_ok.1 tried
  cases finished
  have predictor := solveSubproblem_predictor wellFormed nonneg (candidates_nodup path)
    (candidates_inRange path) solved
  refine ⟨?_, ?_, rfl⟩
  · simp [Mat.shape]
  · rw [predictor]
    rfl

theorem trial_predictor {lagrange : ℝ} {options : SolveOptions ℝ} {trial : Trial ℝ}
    (wellFormed : path.WellFormed) (nonneg : 0 ≤ lagrange)
    (tried : path.trial lagrange options = .ok trial) :
    trial.sub.predictor = path.design.dot trial.solution := by
  obtain ⟨sub, solved, finished⟩ := Failure.bind_eq_ok.1 tried
  cases finished
  exact solveSubproblem_predictor wellFormed nonneg (candidates_nodup path)
    (candidates_inRange path) solved

theorem trial_unlisted {lagrange : ℝ} {options : SolveOptions ℝ} {trial : Trial ℝ} {group : Nat}
    (tried : path.trial lagrange options = .ok trial) (unlisted : group ∉ path.candidates)
    (col : Nat) : trial.solution.get group col = 0 := by
  obtain ⟨sub, _, finished⟩ := Failure.bind_eq_ok.1 tried
  cases finished
  exact Mat.get_embedded_unlisted sub.solution (candidates_nodup path) unlisted col

theorem trial_certified {lagrange : ℝ} {options : SolveOptions ℝ} {trial : Trial ℝ}
    (wellFormed : path.WellFormed) (nonneg : 0 ≤ lagrange)
    (tried : path.trial lagrange options = .ok trial) (passed : trial.violators.isEmpty) :
    path.CertifiedAt lagrange trial.solution := by
  obtain ⟨shape, gradient, violators⟩ := trial_gradient wellFormed nonneg tried
  have none : path.violators trial.gradient trial.solution (path.options.alpha * lagrange) = [] :=
    violators ▸ List.isEmpty_iff.1 passed
  have rows : trial.gradient.rows = path.groups := by
    rw [gradient]
    exact (Design.rows_adjoint path.design _).trans (congrArg Shape.rows wellFormed.inputs).symm
  refine ⟨shape, ?_⟩
  rw [← gradient]
  exact (violators_eq_nil wellFormed rows (Mat.rows_eq shape)).1 none

end Path

end GroupLasso
