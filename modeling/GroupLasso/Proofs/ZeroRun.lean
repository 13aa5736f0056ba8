import GroupLasso.Proofs.Duality
import GroupLasso.Proofs.Support

/-!
Runs that stay where they start. A solver that is started at a fixed point returns it, so a restricted
problem that is started at a solution of the full problem returns that solution. As long as the Lagrange
values are at least the largest one of interest, the solution without penalized groups is such a solution
if it was found exactly, whatever screening selects. Without unpenalized groups it is zero.
-/

namespace GroupLasso

open Scalar

theorem Mat.addScaled_self (matrix : Mat ℝ) :
    matrix.addScaled (-1) matrix = Mat.zero matrix.rows matrix.cols := by
  refine Mat.ext_get rfl rfl ?_
  intro row _ col _
  rw [Mat.get_addScaled rfl, Mat.get_zero]
  ring

theorem Mat.inner_zero (left : Mat ℝ) (rows cols : Nat) : left.inner (Mat.zero rows cols) = 0 := by
  simp [Mat.inner]

theorem Mat.frobenius_zero (rows cols : Nat) : (Mat.zero rows cols : Mat ℝ).frobenius = 0 := by
  simp [Mat.frobenius_real]

namespace Problem

variable {problem : Problem ℝ} {options : SolveOptions ℝ}

theorem startingStep_pos : 0 < problem.startingStep options := by
  unfold startingStep
  simp only [isFinitePos_real]
  split_ifs with positive
  · exact positive
  · exact one_pos

theorem accepts_self (problem : Problem ℝ) (point : Mat ℝ) (step : ℝ) :
    problem.accepts point (problem.smooth.value point) (problem.smooth.gradient point) point step := by
  have limit : bound (problem.smooth.value point) (problem.smooth.gradient point)
      (point.addScaled (-1) point) step = problem.smooth.value point := by
    simp only [bound, Mat.addScaled_self, Mat.inner_zero, zero_div, add_zero]
  exact accepts_of_le limit.ge

theorem solve_of_fixed (budget : 1 ≤ options.maxIterations) (tolerance : 0 ≤ options.tolerance)
    (fixed : problem.coefs = problem.firstCandidate options) :
    (problem.solve options).1 = .ok problem.coefs := by
  refine solve_of_accepts budget fixed.symm (accepts_self problem _ _) ?_
  rw [Mat.addScaled_self, Mat.frobenius_zero]
  exact tolerance

end Problem

theorem Penalty.stationary_unpenalized {penalty : Penalty ℝ} {gradient coef : Mat ℝ} {group : Nat}
    (unpenalized : penalty.isUnpenalized group = true) (zero : ∀ col, gradient.get group col = 0) :
    penalty.Stationary gradient coef group := by
  obtain ⟨l1, l2⟩ : penalty.l1At group = 0 ∧ penalty.l2At group = 0 := by
    simpa [isUnpenalized] using unpenalized
  refine ⟨fun _ => ?_, fun _ col _ _ => ?_, fun col _ _ => ?_⟩
  · rw [Gauge.softNorm_neg _ (by rw [l1, mul_zero])]
    exact inDualBall_unpenalized unpenalized zero
  · rw [zero, l1, mul_zero, abs_zero]
  · simp [zero, l1, l2]

namespace Path

section
variable {path : Path ℝ} {groups : List Nat} {lagrange : ℝ} {options : SolveOptions ℝ}

theorem solveSubproblem_of_stationary (wellFormed : path.WellFormed) (nonneg : 0 ≤ lagrange)
    (distinct : groups.Nodup) (inRange : ∀ group ∈ groups, group < path.groups)
    (shape : path.solution.shape = path.shape)
    (support : ∀ group ∉ groups, ∀ col, path.solution.get group col = 0)
    (budget : 1 ≤ options.maxIterations) (tolerance : 0 ≤ options.tolerance)
    (stationary : ∀ group ∈ groups,
      (path.penalty.withLagrange (path.options.alpha * lagrange)).Stationary
        ((path.fullGradient (path.design.dot path.solution)).add
          (path.ridgeGradient path.solution lagrange)) path.solution group) :
    ∃ sub, path.solveSubproblem groups lagrange options = .ok sub ∧
      path.embed groups sub.solution = path.solution := by
  have embedded := embed_selectRows distinct inRange shape support
  by_cases listed : groups = []
  · subst listed
    obtain ⟨mask, restricted⟩ := restrictTo_eq_ok wellFormed nonneg distinct inRange
    exact ⟨_, Failure.bind_eq_ok.2 ⟨_, restricted, rfl⟩, embedded⟩
  let penalty := path.penalty.withLagrange (path.options.alpha * lagrange)
  let smooth := (path.smoothOver groups lagrange).smooth
  let warm := path.solution.selectRows groups
  let problem := path.restrictedProblem groups lagrange
  have width : warm.cols = path.shape.cols := (Mat.cols_eq shape : path.solution.cols = _)
  have warmShape : warm.shape = ⟨groups.length, path.shape.cols⟩ :=
    congrArg (Shape.mk groups.length) width
  have gradient : smooth.gradient warm = ((path.fullGradient (path.design.dot path.solution)).add
      (path.ridgeGradient path.solution lagrange)).selectRows groups := by
    rw [← embedded]
    exact gradient_smoothOver wellFormed distinct inRange width
  have gradientShape : (smooth.gradient warm).shape = (penalty.over groups).shape := by
    have cols := Mat.cols_eq (shape_fullGradient wellFormed (path.design.dot path.solution))
    rw [gradient]
    exact congrArg (Shape.mk groups.length) cols
  have fixed : problem.coefs = problem.firstCandidate (path.request options) := by
    refine (Penalty.fixedPoint_iff (Penalty.valid_over (wellFormed.scaled nonneg)) warmShape
      gradientShape Problem.startingStep_pos).2 ?_
    intro position bound
    rw [gradient]
    change (penalty.over groups).Stationary _ warm position
    have inside : ∀ group ∈ groups, group < penalty.groups := inRange
    refine (Penalty.stationary_over_iff distinct inside width bound).2 ?_
    have member : groups.getD position 0 ∈ groups := by
      rw [List.getD_eq_getElem _ _ bound]
      exact List.getElem_mem bound
    have full := stationary _ member
    rw [← embedded] at full ⊢
    exact full
  have solved : (problem.solve (path.request options)).1 = .ok warm :=
    Problem.solve_of_fixed budget tolerance fixed
  have run := solveSubproblem_eq wellFormed nonneg distinct inRange shape listed options
  rw [solved] at run
  exact ⟨_, run, embedded⟩

end

/-! Paths at the null solution. -/

/-- Whether a restricted problem reaches the solver: without candidates there is nothing to solve. -/
def Event.runsSolver {α : Type} [Scalar α] : Event α → Bool
  | .solve path _ _ => !path.candidates.isEmpty
  | _ => false

/-- A path that has stayed at the solution that it was built with. -/
structure AtNull (start path : Path ℝ) : Prop where
  same : SameModel start path
  supported : path.Supported
  solution : path.solution = start.solution
  gradient : path.gradient = start.gradient

/-- A step that is settled at zero in the first round. -/
structure ZeroStep (start : Path ℝ) (step : PathStep ℝ) : Prop where
  status : step.status = .converged
  solution : step.solution = Mat.zero start.shape.rows start.shape.cols
  active : step.active = []
  rounds : step.rounds = 1

theorem activeGroups_zero (rows cols : Nat) : activeGroups (Mat.zero rows cols : Mat ℝ) = [] := by
  simp [List.eq_nil_iff_forall_not_mem, mem_activeGroups]

section
variable {start path : Path ℝ} {lagrange : ℝ} {options : SolveOptions ℝ} (fresh : Fresh start)

include fresh

theorem Fresh.atNull : AtNull start start := ⟨.refl start, fresh.supported, rfl, rfl⟩

theorem Fresh.gradientAt_null (lagrange : ℝ) : (start.fullGradient (start.design.dot start.solution)).add
    (start.ridgeGradient start.solution lagrange) = start.gradient := by
  have gradient := fresh.coherent.gradient lagrange (.inl rfl)
  rw [fresh.predictor] at gradient
  exact gradient.symm

variable (exact : ∀ group < start.groups, start.penalty.isUnpenalized group = true →
  ∀ col, start.gradient.get group col = 0)

include exact

theorem Fresh.stationary_null (nonneg : 0 ≤ lagrange) (above : start.lagrangeMax ≤ lagrange)
    {group : Nat} (bound : group < start.groups) :
    (start.penalty.withLagrange (start.options.alpha * lagrange)).Stationary start.gradient
      start.solution group := by
  have valid := fresh.wellFormed.scaled nonneg
  cases unpenalized : start.penalty.isUnpenalized group with
  | true => exact Penalty.stationary_unpenalized unpenalized (exact group bound unpenalized)
  | false =>
      have zero := fresh.support group unpenalized
      have inBall := (lagrangeMax_le_iff fresh.wellFormed.weights fresh.wellFormed.alpha_pos nonneg).1
        above group bound unpenalized
      refine ⟨fun _ => ?_, fun nonzero => absurd ?_ nonzero, fun col _ nonzero => absurd (zero col) nonzero⟩
      · rw [Gauge.softNorm_neg _ (mul_nonneg valid.lagrange_nonneg (valid.l1_nonneg group))]
        exact inBall
      · exact Mat.rowNorm_eq_zero.2 fun col _ => zero col

section
variable (atNull : AtNull start path) (positive : 0 < lagrange) (above : start.lagrangeMax ≤ lagrange)

include atNull positive above

theorem AtNull.trial (budget : 1 ≤ options.maxIterations) (tolerance : 0 ≤ options.tolerance) :
    ∃ trial, path.trial lagrange options = .ok trial ∧ trial.solution = start.solution ∧
      trial.gradient = start.gradient ∧ trial.violators = [] := by
  obtain ⟨same, supported, solution, -⟩ := atNull
  have wellFormed := same.wellFormed fresh.wellFormed
  have groups : path.groups = start.groups := congrArg Penalty.groups same.penalty
  have stationary : ∀ group < path.groups,
      (path.penalty.withLagrange (path.options.alpha * lagrange)).Stationary
        ((path.fullGradient (path.design.dot path.solution)).add
          (path.ridgeGradient path.solution lagrange)) path.solution group := by
    intro group bound
    rw [same.gradientAt, solution, fresh.gradientAt_null, same.penalty, same.options]
    exact fresh.stationary_null exact positive.le above (groups ▸ bound)
  obtain ⟨sub, solved, embedded⟩ := solveSubproblem_of_stationary wellFormed positive.le
    (candidates_nodup path) (candidates_inRange path) supported.shape supported.support budget tolerance
    fun group listed => stationary group (candidates_inRange path group listed)
  obtain ⟨trial, tried, rests⟩ : ∃ trial, path.trial lagrange options = .ok trial ∧
      trial.solution = path.solution := ⟨_, Failure.bind_eq_ok.2 ⟨sub, solved, rfl⟩, embedded⟩
  obtain ⟨-, gradient, violators⟩ := trial_gradient wellFormed positive.le tried
  refine ⟨trial, tried, rests.trans solution, ?_, ?_⟩
  · rw [gradient, rests, solution, same.gradientAt, fresh.gradientAt_null]
  · rw [violators, List.eq_nil_iff_forall_not_mem]
    intro group member
    obtain ⟨bound, status⟩ := mem_violators.1 member
    rw [rests, Mat.rows_eq supported.shape] at bound
    refine status (Optimality.groupStatus_of_stationary (wellFormed.scaled positive.le) ?_ ?_
      (mul_pos wellFormed.alpha_pos positive) ?_ ?_)
    · rw [gradient]
      exact shape_fullGradient wellFormed _
    · rw [rests]
      exact supported.shape
    · rw [same.options]
      exact fresh.options.kktTolerance.1
    · rw [gradient, rests]
      exact stationary group bound

theorem AtNull.fitValue (current : ℝ) : ∃ trial,
    (path.screen current lagrange).trial lagrange path.options.solve = .ok trial ∧
      trial.violators.isEmpty ∧ trial.solution = start.solution ∧
      path.fitValue current lagrange =
        (.ok ((path.screen current lagrange).certifiedStep lagrange 1 trial),
          (path.screen current lagrange).commit trial) ∧
      AtNull start ((path.screen current lagrange).commit trial) := by
  obtain ⟨same, supported, solution, gradient⟩ := atNull
  have screened : AtNull start (path.screen current lagrange) :=
    ⟨same.trans ⟨rfl, rfl, rfl, rfl, rfl⟩, supported.apply (.mark _), solution, gradient⟩
  have budget : 1 ≤ path.options.solve.maxIterations := same.options ▸ fresh.options.maxIterations
  have tolerance : 0 ≤ path.options.solve.tolerance := same.options ▸ fresh.options.tolerance.le
  obtain ⟨trial, tried, rests, kept, none⟩ :=
    screened.trial fresh exact positive above budget tolerance
  have passed : trial.violators.isEmpty := List.isEmpty_iff.2 none
  have committed : ((path.screen current lagrange).commit trial).Supported :=
    screened.supported.apply (.commit ⟨rfl, positive⟩ tried passed)
  exact ⟨trial, tried, passed, rests, fitValue_of_trial tried passed,
    screened.same.trans ⟨rfl, rfl, rfl, rfl, rfl⟩, committed, rests, kept⟩

end

theorem Fresh.fit_single (positive : 0 < lagrange) (above : start.lagrangeMax ≤ lagrange) :
    ∃ result step reached, start.fit (some [lagrange]) = (.ok result, reached) ∧
      result.steps = [step] ∧ step.lagrange = lagrange ∧ step.status = .converged ∧
      step.solution = start.solution ∧ reached.solution = start.solution := by
  obtain ⟨trial, -, -, rests, valued, -⟩ := fresh.atNull.fitValue fresh exact positive above start.lagrangeMax
  exact ⟨_, _, _, fit_of_value positive valued, rfl, rfl, rfl, rests, rests⟩

end

section
variable {start path : Path ℝ} {lagrange : ℝ} (fresh : Fresh start)
  (penalized : start.penalty.unpenalized = [])

include penalized

theorem isUnpenalized_of_nil {group : Nat} (bound : group < start.groups) :
    start.penalty.isUnpenalized group = false := by
  rw [← Bool.not_eq_true]
  intro unpenalized
  have listed := Penalty.mem_unpenalized.2 ⟨bound, unpenalized⟩
  rw [penalized] at listed
  cases listed

theorem exact_of_nil : ∀ group < start.groups, start.penalty.isUnpenalized group = true →
    ∀ col, start.gradient.get group col = 0 :=
  fun _ bound unpenalized =>
    absurd ((isUnpenalized_of_nil penalized bound).symm.trans unpenalized) Bool.false_ne_true

include fresh

theorem Fresh.solution_zero : start.solution = Mat.zero start.shape.rows start.shape.cols := by
  have rows : start.solution.rows = start.shape.rows := Mat.rows_eq fresh.shape
  refine Mat.ext_get rows (Mat.cols_eq fresh.shape) ?_
  intro group bound col _
  rw [Mat.get_zero]
  exact fresh.support group (isUnpenalized_of_nil penalized (bound.trans_eq rows)) col

theorem AtNull.zeroStep (atNull : AtNull start path) (positive : 0 < lagrange)
    (above : start.lagrangeMax ≤ lagrange) (current : ℝ) : ∃ trial,
    (path.screen current lagrange).trial lagrange path.options.solve = .ok trial ∧
      trial.violators.isEmpty ∧
      path.fitValue current lagrange =
        (.ok ((path.screen current lagrange).certifiedStep lagrange 1 trial),
          (path.screen current lagrange).commit trial) ∧
      start.ZeroStep ((path.screen current lagrange).certifiedStep lagrange 1 trial) ∧
      AtNull start ((path.screen current lagrange).commit trial) := by
  obtain ⟨trial, tried, passed, rests, valued, stays⟩ :=
    atNull.fitValue fresh (exact_of_nil penalized) positive above current
  have zero : trial.solution = Mat.zero start.shape.rows start.shape.cols :=
    rests.trans (fresh.solution_zero penalized)
  refine ⟨trial, tried, passed, valued, ⟨rfl, zero, ?_, rfl⟩, stays⟩
  change activeGroups trial.solution = []
  rw [zero, activeGroups_zero]

theorem fitValues_zero {values : List ℝ} (current : ℝ) (atNull : AtNull start path)
    (positive : ∀ lagrange ∈ values, IsFinitePos lagrange) (ordered : values.Pairwise (· ≥ ·)) :
    (∀ steps reached, fitValues current values path = (.ok steps, reached) →
      ∀ step ∈ steps, start.lagrangeMax ≤ step.lagrange → start.ZeroStep step) ∧
    ∀ failure reached, fitValues current values path = (.error failure, reached) →
      ∃ lagrange, values[finished current values path]? = some lagrange ∧
        lagrange < start.lagrangeMax := by
  induction values generalizing path current with
  | nil =>
      constructor
      · rintro _ _ ⟨⟩ step ⟨⟩
      · rintro _ _ ⟨⟩
  | cons next rest ih =>
      obtain ⟨first, later⟩ := List.forall_mem_cons.1 positive
      obtain ⟨largest, rest_ordered⟩ := List.pairwise_cons.1 ordered
      by_cases above : start.lagrangeMax ≤ next
      · obtain ⟨trial, -, -, outcome, zero, stays⟩ :=
          atNull.zeroStep fresh penalized first.2 above current
        refine ⟨fun steps reached run => ?_, fun failure reached run => ?_⟩
        · obtain ⟨step, middle, remaining, valued, following, rfl⟩ := fitValues_cons_ok.1 run
          rw [outcome] at valued
          cases valued
          rintro step (_ | ⟨_, member⟩)
          · exact fun _ => zero
          · exact (ih _ stays later rest_ordered).1 remaining reached following step member
        · rcases fitValues_cons_error.1 run with failed | ⟨step, middle, valued, following⟩
          · rw [outcome] at failed
            cases failed
          · rw [finished_of_ok valued, List.getElem?_cons_succ]
            rw [outcome] at valued
            cases valued
            exact (ih _ stays later rest_ordered).2 failure reached following
      · have below : ∀ lagrange ∈ next :: rest, lagrange < start.lagrangeMax := by
          intro lagrange member
          rcases List.mem_cons.1 member with rfl | member
          · exact not_le.1 above
          · exact (largest lagrange member).trans_lt (not_le.1 above)
        refine ⟨fun steps reached run step member reaches => ?_, fun failure reached run => ?_⟩
        · have wellFormed := atNull.same.wellFormed fresh.wellFormed
          have chain := (fitValues_chain wellFormed current fun lagrange member =>
            (positive lagrange member).2.le).2 steps (congrArg Prod.fst run)
          have listed : step.lagrange ∈ next :: rest :=
            chain.lagrange ▸ List.mem_map_of_mem member
          exact absurd reaches (below _ listed).not_ge
        · obtain ⟨bound, -⟩ := fitValues_failed positive run
          exact ⟨_, List.getElem?_eq_getElem bound, below _ (List.getElem_mem bound)⟩

theorem Fresh.candidates_screen (above : start.lagrangeMax ≤ lagrange) :
    (start.screen start.lagrangeMax lagrange).candidates = [] := by
  have valid := fresh.wellFormed.weights
  have alpha_pos := fresh.wellFormed.alpha_pos
  have radius : start.options.alpha * start.lagrangeMax ≤
      Screening.threshold (start.options.alpha * start.lagrangeMax) (start.options.alpha * lagrange)
        start.options.slope := by
    have slope : 0 ≤ start.options.slope + 1 := by linarith [fresh.options.slope.2]
    have wider := mul_nonneg slope (mul_nonneg alpha_pos.le (sub_nonneg.2 above))
    rw [Screening.threshold]
    linarith
  have rows : start.gradient.rows = start.groups := by
    rw [fresh.gradient]
    exact Mat.rows_eq (shape_fullGradient fresh.wellFormed start.predictor)
  have unselected : (start.strongSet (start.options.alpha * start.lagrangeMax)
      (start.options.alpha * lagrange) start.gradient).indices = [] := by
    rw [List.eq_nil_iff_forall_not_mem]
    intro group member
    obtain ⟨bound, outside⟩ := Screening.mem_strongSet.1 member
    have groupBound : group < start.groups := rows ▸ bound
    have penalizedAt := isUnpenalized_of_nil penalized groupBound
    have gauge := gauge_le_lagrangeMax alpha_pos groupBound penalizedAt
    have inside : Gauge.inside (start.gradient.row group)
        (Screening.threshold (start.options.alpha * start.lagrangeMax)
          (start.options.alpha * lagrange) start.options.slope)
        (start.penalty.l1At group) (start.penalty.l2At group) = true := by
      rw [Gauge.inside, (Penalty.gauge_isGauge valid start.gradient penalizedAt).1]
      exact decide_eq_true (gauge.trans radius)
    exact Bool.false_ne_true (outside.symm.trans inside)
  have marked : start.screen start.lagrangeMax lagrange = start.markEverActive [] := by
    rw [screen, unselected]
  have length := (fresh.supported.apply (.mark [])).length
  rw [marked, List.eq_nil_iff_forall_not_mem]
  intro group listed
  rcases (mem_candidates length).1 listed with active | unpenalized
  · rw [show (start.apply (.mark [])).everActiveMask = start.everActiveMask from rfl, everActiveMask,
      fresh.unmarked] at active
    exact Bool.false_ne_true ((Mask.contains_empty _ group).symm.trans active)
  · have none : (start.apply (.mark [])).penalty.unpenalized = [] := penalized
    rw [none] at unpenalized
    cases unpenalized

end

theorem valueEvents_of_trial {path : Path ℝ} {current next : ℝ} {trial : Trial ℝ}
    (tried : (path.screen current next).trial next path.options.solve = .ok trial)
    (passed : trial.violators.isEmpty) : path.valueEvents current next =
      [.mark (path.strongSet (path.options.alpha * current) (path.options.alpha * next)
          path.gradient).indices,
        .solve (path.screen current next) next path.options.solve, .commit next trial] := by
  have attempted : path.attempt current next path.options.solve =
      (.ok ((path.screen current next).certifiedStep next 1 trial),
        (path.screen current next).commit trial) := by
    unfold attempt rounds
    rw [tried]
    simp only [passed, if_true]
  rw [valueEvents, attemptsEvents, attempted, List.append_nil, attemptEvents,
    roundEvents_passed tried passed]

theorem trial_step_of_no_candidates {path : Path ℝ} {lagrange : ℝ} {options : SolveOptions ℝ}
    {trial : Trial ℝ} (none : path.candidates = [])
    (tried : path.trial lagrange options = .ok trial) : trial.sub.step = path.step := by
  obtain ⟨sub, solved, finished⟩ := Failure.bind_eq_ok.1 tried
  cases finished
  rw [none] at solved
  obtain ⟨problem, -, empty⟩ := Failure.bind_eq_ok.1 solved
  cases empty
  rfl

theorem fit_of_listed {path : Path ℝ} {given : Option (List ℝ)} {values : List ℝ}
    (listed : path.sequence given = .ok values) : path.fit given = path.fit (some values) := by
  have again : path.sequence (some values) = .ok values := by
    rw [sequence_some, (sequence_eq_ok listed).1]
    rfl
  rw [fit, fit, listed, again]

/-- In a run on a path as it was built, without unpenalized groups, every step at a Lagrange value that
is at least the largest one of interest converges at zero coefficients in the first round, and no such
value is one at which a run fails. At the first of these values there are no candidates and no solver
runs. -/
theorem fit_zero {loss : Loss ℝ} {design : Design ℝ} {l1 l2 : Array ℝ}
    {ridgeParameter : Option (Mat ℝ)} {options : PathOptions ℝ} {path : Path ℝ}
    {given : Option (List ℝ)} {values : List ℝ}
    (built : Path.build loss design l1 l2 ridgeParameter options = .ok path)
    (penalized : path.penalty.unpenalized = []) (listed : path.sequence given = .ok values) :
    (∀ result reached, path.fit given = (.ok result, reached) →
      (∀ step ∈ result.steps, path.lagrangeMax ≤ step.lagrange → path.ZeroStep step) ∧
      ∀ first, result.steps.head? = some first → path.lagrangeMax ≤ first.lagrange →
        first.candidates = 0 ∧ first.step = path.step) ∧
    (∀ failure reached, path.fit given = (.error failure, reached) →
      ∃ lagrange, values[finished path.lagrangeMax values path]? = some lagrange ∧
        lagrange < path.lagrangeMax) ∧
    ∀ first, values.head? = some first → path.lagrangeMax ≤ first →
      ∀ event ∈ path.valueEvents path.lagrangeMax first, event.runsSolver = false := by
  have fresh := build_fresh built
  obtain ⟨nonempty, positive, decreasing⟩ := Grid.validate_eq_ok.1 (sequence_eq_ok listed).1
  have ordered : values.Pairwise (· ≥ ·) := by
    refine List.isChain_iff_pairwise.1 (decreasing.imp fun _ _ => not_lt.1)
  have atNull := fresh.atNull
  obtain ⟨succeeds, fails⟩ :=
    fitValues_zero fresh penalized path.lagrangeMax atNull positive ordered
  rw [fit_of_listed listed]
  refine ⟨fun result reached run => ?_, fun failure reached run => ?_, fun first head above => ?_⟩
  · obtain ⟨-, outcome⟩ := fitValues_of_fit path values run
    refine ⟨succeeds result.steps reached outcome, fun first head above => ?_⟩
    cases values with
    | nil => exact absurd rfl nonempty
    | cons value rest =>
        obtain ⟨step, middle, later, valued, -, steps⟩ := fitValues_cons_ok.1 outcome
        rw [steps] at head
        cases head
        have firstPositive := positive value (List.mem_cons_self ..)
        have advances := fitValue_advances fresh.wellFormed path.lagrangeMax firstPositive.2.le
        rw [valued] at advances
        rw [(advances.stepped first rfl).lagrange_eq] at above
        obtain ⟨trial, tried, -, settled, -⟩ :=
          atNull.zeroStep fresh penalized firstPositive.2 above path.lagrangeMax
        rw [settled] at valued
        cases valued
        have none := fresh.candidates_screen penalized above
        have step : trial.sub.step = (path.screen path.lagrangeMax value).step :=
          trial_step_of_no_candidates none tried
        exact ⟨congrArg List.length none, step⟩
  · exact fails failure reached ((fit_eq_error path values (sequence_eq_ok listed).1).1 run)
  · have firstPositive := positive first (List.mem_of_mem_head? head)
    obtain ⟨trial, tried, passed, -⟩ :=
      atNull.zeroStep fresh penalized firstPositive.2 above path.lagrangeMax
    simp [valueEvents_of_trial tried passed, Event.runsSolver,
      fresh.candidates_screen penalized above]

/-- With slope one the threshold at Lagrange value one, after four, is negative, so that the coefficient
is selected there; it stays at zero. -/
theorem fit_zero_unit :
    let settings : PathOptions ℝ := { (unitPath 0 : Path ℝ).options with slope := 1 }
    let path : Path ℝ := { unitPath 0 with options := settings }
    Path.build unitLoss unitDesign #[1] #[0] none settings = .ok path ∧
      path.penalty.unpenalized = [] ∧ path.sequence (some [4, 1]) = .ok [4, 1] ∧
      path.lagrangeMax = 1 ∧ ∃ result reached, path.fit (some [4, 1]) = (.ok result, reached) ∧
        result.lagrange = [4, 1] ∧ (∀ step ∈ result.steps, path.ZeroStep step) ∧
        (∀ first, result.steps.head? = some first → first.candidates = 0) ∧
        ∀ event ∈ path.valueEvents path.lagrangeMax 4, event.runsSolver = false := by
  intro settings path
  have valid : settings.Valid :=
    { (build_fresh (build_unit 0)).options with slope := ⟨rfl, by norm_num [settings]⟩ }
  have built : Path.build unitLoss unitDesign #[1] #[0] none settings = .ok path :=
    build_unitWith valid rfl
  have listed : path.sequence (some [4, 1]) = .ok [4, 1] := by
    have valid : Grid.validate [(4 : ℝ), 1] = .ok () := by
      refine Grid.validate_eq_ok.2 ⟨List.cons_ne_nil _ _, ?_, ?_⟩ <;> norm_num
    rw [sequence_some, valid]
    rfl
  have lagrangeMax : path.lagrangeMax = 1 := unit_lagrangeMax 0
  have above : ∀ lagrange ∈ [(4 : ℝ), 1], path.lagrangeMax ≤ lagrange := by
    rw [lagrangeMax]
    norm_num
  obtain ⟨succeeds, fails, quiet⟩ := fit_zero built unit_penalized listed
  obtain ⟨-, chain⟩ := fit_chain (build_fresh built).wellFormed (some [4, 1])
  cases run : path.fit (some [4, 1]) with
  | mk outcome reached =>
      cases outcome with
      | error failure =>
          obtain ⟨lagrange, found, below⟩ := fails failure reached run
          exact absurd (above lagrange (List.mem_of_getElem? found)) below.not_ge
      | ok result =>
          obtain ⟨zero, first⟩ := succeeds result reached run
          rw [run] at chain
          have values := (chain [4, 1] result rfl rfl).2.lagrange
          have large : ∀ step ∈ result.steps, path.lagrangeMax ≤ step.lagrange := by
            intro step member
            apply above
            rw [← values]
            exact List.mem_map_of_mem member
          refine ⟨built, unit_penalized, listed, lagrangeMax, result, reached, rfl, values,
            fun step member => zero step member (large step member), fun step head => ?_,
            quiet 4 rfl (above 4 (List.mem_cons_self ..))⟩
          exact (first step head (large step (List.mem_of_mem_head? head))).1

end Path

end GroupLasso
