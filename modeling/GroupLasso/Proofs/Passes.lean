import GroupLasso.Proofs.Frobenius
import GroupLasso.Proofs.ZeroRun

/-!
What one pass of the solver can do, what every pass keeps, and how a run ends. A pass searches the first
halving of the step whose candidate is accepted; a run is a number of passes with one more that converges
or breaks down, or as many as the budget allows.
-/

namespace GroupLasso

open Scalar

namespace Problem

section
variable {problem : Problem ℝ} {point gradient found : Mat ℝ} {value step last : ℝ}
  {halvings count : Nat}

/-- The step after some halvings is the first one whose candidate is accepted. -/
structure FirstAccepted (problem : Problem ℝ) (point : Mat ℝ) (value : ℝ) (gradient : Mat ℝ) (step : ℝ)
    (count : Nat) : Prop where
  accepted : problem.accepts point value gradient
    (problem.candidate point gradient (step / 2 ^ count)) (step / 2 ^ count)
  rejected : ∀ earlier < count, ¬ problem.accepts point value gradient
    (problem.candidate point gradient (step / 2 ^ earlier)) (step / 2 ^ earlier)

theorem FirstAccepted.here
    (accepted : problem.accepts point value gradient (problem.candidate point gradient step) step) :
    FirstAccepted problem point value gradient step 0 := by
  refine ⟨?_, nofun⟩
  rwa [pow_zero, div_one]

theorem FirstAccepted.halved
    (rejected : ¬ problem.accepts point value gradient (problem.candidate point gradient step) step)
    (first : FirstAccepted problem point value gradient (step / 2) count) :
    FirstAccepted problem point value gradient step (count + 1) := by
  have halved : ∀ count, step / 2 ^ (count + 1) = step / 2 / 2 ^ count := by
    intro count
    rw [pow_succ', div_div]
  refine ⟨?_, fun earlier bound => ?_⟩
  · rw [halved]
    exact first.accepted
  · cases earlier with
    | zero => rwa [pow_zero, div_one]
    | succ earlier =>
        rw [halved]
        exact first.rejected earlier (by omega)

theorem FirstAccepted.unique {other : Nat}
    (first : FirstAccepted problem point value gradient step count)
    (again : FirstAccepted problem point value gradient step other) : count = other :=
  le_antisymm (not_lt.1 fun later => first.rejected other later again.accepted)
    (not_lt.1 fun sooner => again.rejected count sooner first.accepted)

theorem search_eq_some
    (searched : problem.search point value gradient halvings step = some (found, last)) :
    ∃ count ≤ halvings, last = step / 2 ^ count ∧ found = problem.candidate point gradient last ∧
      problem.FirstAccepted point value gradient step count := by
  induction halvings generalizing step with
  | zero =>
      simp only [search] at searched
      split_ifs at searched with accepted
      cases searched
      exact ⟨0, le_rfl, by simp, rfl, .here accepted⟩
  | succ halvings ih =>
      have half : step * 0.5 = step / 2 := by norm_num [div_eq_mul_inv]
      simp only [search, half] at searched
      split_ifs at searched with accepted below
      · cases searched
        exact ⟨0, Nat.zero_le _, by simp, rfl, .here accepted⟩
      · obtain ⟨count, bound, halved, found, first⟩ := ih searched
        refine ⟨count + 1, by omega, ?_, found, first.halved accepted⟩
        rw [halved, pow_succ', div_div]

end

def accepted? {α : Type} [Scalar α] (problem : Problem α) (iterate : Iterate α) : Option (Mat α × α) :=
  problem.search iterate.extrapolated (problem.smooth.value iterate.extrapolated)
    (problem.smooth.gradient iterate.extrapolated) (halvingsBelow iterate.step) iterate.step

section
variable {problem : Problem ℝ} {iterate next : Iterate ℝ} {found solution : Mat ℝ} {tolerance step : ℝ}
  {iteration : Nat}

theorem accepted?_eq_some (accepted : problem.accepted? iterate = some (found, step)) :
    ∃ count, step = iterate.step / 2 ^ count ∧
      found = problem.candidate iterate.extrapolated
        (problem.smooth.gradient iterate.extrapolated) step ∧
      problem.FirstAccepted iterate.extrapolated (problem.smooth.value iterate.extrapolated)
        (problem.smooth.gradient iterate.extrapolated) iterate.step count := by
  obtain ⟨count, -, halved, candidate, first⟩ := search_eq_some accepted
  exact ⟨count, halved, candidate, first⟩

theorem accepted?_shape (accepted : problem.accepted? iterate = some (found, step)) :
    found.shape = problem.penalty.shape := search_shape accepted

theorem accepted?_start {options : SolveOptions ℝ}
    (accepted : problem.accepts problem.coefs (problem.smooth.value problem.coefs)
      (problem.smooth.gradient problem.coefs) (problem.firstCandidate options)
        (problem.startingStep options)) :
    problem.accepted? (problem.start options) =
      some (problem.firstCandidate options, problem.startingStep options) :=
  search_of_accepts accepted _

theorem accepted?_step (positive : 0 < iterate.step)
    (accepted : problem.accepted? iterate = some (found, step)) : 0 < step ∧ step ≤ iterate.step := by
  obtain ⟨count, rfl, -, -⟩ := accepted?_eq_some accepted
  exact ⟨by positivity, div_le_self positive.le (one_le_pow₀ one_le_two)⟩

theorem pass_real : problem.pass tolerance iteration iterate =
    match problem.accepted? iterate with
    | none => .failed (.stepCollapsed iteration)
    | some (found, step) =>
        if found.distance iterate.extrapolated ≤ tolerance * max found.frobenius 1 then
          .converged found step
        else .next (problem.advance iterate found step) := by
  have finite : ∀ value : ℝ, isFinite value = true := fun _ => rfl
  simp only [pass, finite, Mat.allFinite_real, and_self, not_true, if_false, larger_real]
  cases searched : problem.accepted? iterate with
  | none =>
      unfold accepted? at searched
      simp only [searched]
  | some accepted =>
      unfold accepted? at searched
      simp only [searched]
      congr

theorem pass_eq_converged :
    problem.pass tolerance iteration iterate = .converged solution step ↔
      problem.accepted? iterate = some (solution, step) ∧
        solution.distance iterate.extrapolated ≤ tolerance * max solution.frobenius 1 := by
  rw [pass_real]
  cases problem.accepted? iterate with
  | none => simp
  | some accepted =>
      obtain ⟨found, last⟩ := accepted
      simp only [Option.some.injEq, Prod.mk.injEq]
      split_ifs with settled
      · rw [Pass.converged.injEq, iff_self_and]
        rintro ⟨rfl, -⟩
        exact settled
      · simp only [false_iff, not_and]
        rintro ⟨rfl, -⟩
        exact settled

theorem pass_eq_next : problem.pass tolerance iteration iterate = .next next ↔
    ∃ found step, problem.accepted? iterate = some (found, step) ∧
      tolerance * max found.frobenius 1 < found.distance iterate.extrapolated ∧
        next = problem.advance iterate found step := by
  rw [pass_real]
  cases problem.accepted? iterate with
  | none => simp
  | some accepted =>
      obtain ⟨found, last⟩ := accepted
      simp only [Option.some.injEq, Prod.mk.injEq]
      split_ifs with settled
      · simp only [false_iff]
        rintro ⟨_, _, ⟨rfl, rfl⟩, unsettled, -⟩
        exact unsettled.not_ge settled
      · rw [Pass.next.injEq]
        constructor
        · rintro rfl
          exact ⟨found, last, ⟨rfl, rfl⟩, not_le.1 settled, rfl⟩
        · rintro ⟨_, _, ⟨rfl, rfl⟩, -, rfl⟩
          rfl

end

structure Iterate.Sound (problem : Problem ℝ) (iterate : Iterate ℝ) : Prop
    extends iterate.Shaped problem where
  keptObjective : iterate.keptObjective = problem.objective iterate.kept
  step_pos : 0 < iterate.step

section
variable {problem : Problem ℝ} {options : SolveOptions ℝ} {iterate : Iterate ℝ} {found : Mat ℝ}
  {step : ℝ}

theorem start_sound (coefsShape : problem.coefs.shape = problem.penalty.shape) :
    (problem.start options).Sound problem :=
  ⟨⟨coefsShape, coefsShape⟩, rfl, startingStep_pos⟩

theorem kept_advance : (problem.advance iterate found step).kept =
    if problem.objective found ≤ iterate.keptObjective then found else iterate.kept := by
  unfold advance
  by_cases improves : problem.objective found ≤ iterate.keptObjective <;> simp [improves]

theorem keptObjective_advance : (problem.advance iterate found step).keptObjective =
    if problem.objective found ≤ iterate.keptObjective then problem.objective found
      else iterate.keptObjective := by
  unfold advance
  by_cases improves : problem.objective found ≤ iterate.keptObjective <;> simp [improves]

theorem advance_sound (sound : iterate.Sound problem) (foundShape : found.shape = problem.penalty.shape)
    (step_pos : 0 < step) : (problem.advance iterate found step).Sound problem := by
  refine ⟨advance_shaped sound.toShaped foundShape step, ?_, step_pos⟩
  rw [keptObjective_advance, kept_advance]
  split_ifs
  · rfl
  · exact sound.keptObjective

theorem get_extrapolated_advance (improves : problem.objective found ≤ iterate.keptObjective)
    (step : ℝ) {row col : Nat} (rowBound : row < found.rows) (colBound : col < found.cols) :
    (problem.advance iterate found step).extrapolated.get row col = found.get row col +
      (iterate.momentum - 1) / (problem.advance iterate found step).momentum *
        (found.get row col - iterate.kept.get row col) := by
  let next := problem.advance iterate found step
  have keeps : next.kept = found := by
    rw [kept_advance, if_pos improves]
  have extent : next.kept.shape = found.shape := by
    rw [keeps]
  have entry : next.extrapolated.get row col = next.kept.get row col +
      iterate.momentum / next.momentum * (found.get row col - next.kept.get row col) +
        (iterate.momentum - 1) / next.momentum * (next.kept.get row col - iterate.kept.get row col) :=
    Mat.get_ofExtent extent rowBound colBound _
  rw [entry, keeps, sub_self, mul_zero, add_zero]

theorem objective_advance_le (sound : iterate.Sound problem) :
    problem.objective (problem.advance iterate found step).kept ≤ problem.objective found ∧
      problem.objective (problem.advance iterate found step).kept ≤ problem.objective iterate.kept := by
  rw [kept_advance, sound.keptObjective]
  split_ifs with improves
  · exact ⟨le_rfl, improves⟩
  · exact ⟨(not_le.1 improves).le, le_rfl⟩

end

/-! Runs. -/

def lastStep {α : Type} (problem : Problem α) (passes : Nat) (iterate : Iterate α) : α :=
  if passes = 0 then problem.step else iterate.step

theorem lastStep_of_pos {α : Type} {problem : Problem α} {passes : Nat} (some : 1 ≤ passes)
    (iterate : Iterate α) : problem.lastStep passes iterate = iterate.step :=
  if_neg (Nat.pos_iff_ne_zero.1 some)

section
variable {α : Type} [Scalar α]

/-- The iterate after some passes that did not end the run. -/
inductive Passes (problem : Problem α) (options : SolveOptions α) : Nat → Iterate α → Prop where
  | start : Passes problem options 0 (problem.start options)
  | next {passes : Nat} {iterate next : Iterate α} (earlier : Passes problem options passes iterate)
      (budget : passes < options.maxIterations)
      (passed : problem.pass options.tolerance passes iterate = .next next) :
      Passes problem options (passes + 1) next

/-- How a run ends: with the candidate of a pass that converged, with a breakdown, or with the kept
point after as many passes as the budget allows. -/
inductive Ends (problem : Problem α) (options : SolveOptions α) : Run α → Prop where
  | converged {passes : Nat} {iterate : Iterate α} {solution : Mat α} {step : α}
      (earlier : Passes problem options passes iterate) (budget : passes < options.maxIterations)
      (last : problem.pass options.tolerance passes iterate = .converged solution step) :
      Ends problem options ⟨.ok solution, solution, step⟩
  | failed {passes : Nat} {iterate : Iterate α} {fault : SolverFault}
      (earlier : Passes problem options passes iterate) (budget : passes < options.maxIterations)
      (last : problem.pass options.tolerance passes iterate = .failed fault) :
      Ends problem options
        ⟨.error (.numerical fault), problem.coefs, problem.lastStep passes iterate⟩
  | exhausted {iterate : Iterate α} (all : Passes problem options options.maxIterations iterate) :
      Ends problem options ⟨.error (.notConverged options.maxIterations), iterate.kept,
        problem.lastStep options.maxIterations iterate⟩

variable {problem : Problem α} {options : SolveOptions α} {iterate : Iterate α}

theorem run_ends {passes budget : Nat} (earlier : Passes problem options passes iterate)
    (remaining : passes + budget = options.maxIterations) :
    Ends problem options (problem.run options budget iterate (problem.lastStep passes iterate)) := by
  induction budget generalizing passes iterate with
  | zero =>
      obtain rfl : passes = options.maxIterations := remaining
      exact .exhausted earlier
  | succ budget ih =>
      have bound : passes < options.maxIterations := by omega
      have pass : options.maxIterations - (budget + 1) = passes := by omega
      rw [run, pass]
      cases last : problem.pass options.tolerance passes iterate with
      | converged solution step => exact .converged earlier bound last
      | failed fault => exact .failed earlier bound last
      | next following => exact ih (earlier.next bound last) (by omega)

theorem solve_ends (problem : Problem α) (options : SolveOptions α) :
    ∃ run, Ends problem options run ∧
      problem.solve options = (run.result, { problem with coefs := run.coefs, step := run.step }) :=
  ⟨_, run_ends .start (Nat.zero_add _), rfl⟩

theorem solve_eq_ok {solution : Mat α} (solved : (problem.solve options).1 = .ok solution) :
    ∃ passes iterate step, Passes problem options passes iterate ∧ passes < options.maxIterations ∧
      problem.pass options.tolerance passes iterate = .converged solution step ∧
        (problem.solve options).2 = { problem with coefs := solution, step } := by
  obtain ⟨run, ended, finished⟩ := solve_ends problem options
  rw [finished] at solved ⊢
  cases ended with
  | converged earlier budget last =>
      cases solved
      exact ⟨_, _, _, earlier, budget, last, rfl⟩
  | failed => cases solved
  | exhausted => cases solved

theorem solve_eq_notConverged {iterations : Nat}
    (failed : (problem.solve options).1 = .error (.notConverged iterations)) :
    iterations = options.maxIterations ∧ ∃ iterate,
      Passes problem options options.maxIterations iterate ∧ (problem.solve options).2 =
        { problem with
          coefs := iterate.kept
          step := problem.lastStep options.maxIterations iterate } := by
  obtain ⟨run, ended, finished⟩ := solve_ends problem options
  rw [finished] at failed ⊢
  cases ended with
  | converged => cases failed
  | failed => cases failed
  | exhausted all =>
      cases failed
      exact ⟨rfl, _, all, rfl⟩

variable {passes : Nat}

theorem Passes.run_eq (reached : Passes problem options passes iterate) :
    ∃ left, passes + left = options.maxIterations ∧
      problem.run options options.maxIterations (problem.start options) problem.step =
        problem.run options left iterate (problem.lastStep passes iterate) := by
  induction reached with
  | start => exact ⟨options.maxIterations, Nat.zero_add _, rfl⟩
  | @next passes iterate _ _ budget passed ih =>
      obtain ⟨left, remaining, run⟩ := ih
      obtain ⟨fewer, rfl⟩ : ∃ fewer, left = fewer + 1 := ⟨left - 1, by omega⟩
      have pass : options.maxIterations - (fewer + 1) = passes := by omega
      refine ⟨fewer, by omega, ?_⟩
      rw [run, Problem.run, pass, passed]
      rfl

theorem Passes.solve_eq_ok {solution : Mat α} {step : α}
    (reached : Passes problem options passes iterate) (budget : passes < options.maxIterations)
    (last : problem.pass options.tolerance passes iterate = .converged solution step) :
    (problem.solve options).1 = .ok solution := by
  obtain ⟨left, remaining, run⟩ := reached.run_eq
  obtain ⟨fewer, rfl⟩ : ∃ fewer, left = fewer + 1 := ⟨left - 1, by omega⟩
  have pass : options.maxIterations - (fewer + 1) = passes := by omega
  change (problem.run options options.maxIterations (problem.start options) problem.step).result = _
  rw [run, Problem.run, pass, last]

theorem Passes.solve_eq_notConverged (reached : Passes problem options passes iterate)
    (all : passes = options.maxIterations) :
    (problem.solve options).1 = .error (.notConverged passes) := by
  obtain ⟨left, remaining, run⟩ := reached.run_eq
  obtain rfl : left = 0 := by omega
  change (problem.run options options.maxIterations (problem.start options) problem.step).result = _
  rw [run, Problem.run, all]

theorem Passes.unique {other : Iterate α} (reached : Passes problem options passes iterate)
    (again : Passes problem options passes other) : iterate = other := by
  induction reached generalizing other with
  | start =>
      cases again
      rfl
  | next earlier _ passed ih =>
      cases again with
      | next earlier' _ passed' =>
          obtain rfl := ih earlier'
          rw [passed] at passed'
          exact Pass.next.inj passed'

theorem Passes.goes_on {before after : Nat} {next : Iterate α}
    (earlier : Passes problem options before iterate) (later : Passes problem options after next)
    (ordered : before < after) :
    ∃ middle, problem.pass options.tolerance before iterate = .next middle := by
  induction later with
  | start => exact absurd ordered (Nat.not_lt_zero before)
  | next previous _ passed ih =>
      rcases Nat.lt_succ_iff_lt_or_eq.1 ordered with sooner | rfl
      · exact ih sooner
      · obtain rfl := earlier.unique previous
        exact ⟨_, passed⟩

theorem Passes.converged_unique {before after : Nat} {next : Iterate α} {solution other : Mat α}
    {step last : α} (earlier : Passes problem options before iterate)
    (converged : problem.pass options.tolerance before iterate = .converged solution step)
    (later : Passes problem options after next)
    (again : problem.pass options.tolerance after next = .converged other last) : before = after := by
  rcases Nat.lt_trichotomy before after with sooner | same | beyond
  · obtain ⟨middle, passed⟩ := earlier.goes_on later sooner
    rw [converged] at passed
    cases passed
  · exact same
  · obtain ⟨middle, passed⟩ := later.goes_on earlier beyond
    rw [again] at passed
    cases passed

end

section
variable {problem : Problem ℝ} {options : SolveOptions ℝ} {iterate : Iterate ℝ} {passes : Nat}

theorem Passes.sound (coefsShape : problem.coefs.shape = problem.penalty.shape)
    (reached : Passes problem options passes iterate) : iterate.Sound problem := by
  induction reached with
  | start => exact start_sound coefsShape
  | next earlier budget passed ih =>
      obtain ⟨found, step, accepted, -, rfl⟩ := pass_eq_next.1 passed
      exact advance_sound ih (accepted?_shape accepted) (accepted?_step ih.step_pos accepted).1

theorem solve_of_exact {found : Mat ℝ} (budget : 2 ≤ options.maxIterations)
    (tolerance : 0 ≤ options.tolerance) (first : problem.firstCandidate options = found)
    (accepted : problem.accepts problem.coefs (problem.smooth.value problem.coefs)
      (problem.smooth.gradient problem.coefs) found (problem.startingStep options))
    (improves : problem.objective found ≤ problem.objective problem.coefs)
    (fixed : problem.candidate found (problem.smooth.gradient found) (problem.startingStep options) =
      found) : (problem.solve options).1 = .ok found := by
  subst first
  let found := problem.firstCandidate options
  let step := problem.startingStep options
  have start := accepted?_start accepted
  by_cases settled : found.distance problem.coefs ≤ options.tolerance * max found.frobenius 1
  · exact Passes.start.solve_eq_ok (by omega) (pass_eq_converged.2 ⟨start, settled⟩)
  · let next := problem.advance (problem.start options) found step
    have reached : Passes problem options 1 next :=
      Passes.start.next (by omega) (pass_eq_next.2 ⟨_, _, start, not_le.1 settled, rfl⟩)
    have kept : problem.objective found ≤ (problem.start options).keptObjective := improves
    have keeps : next.kept = found := by
      rw [kept_advance, if_pos kept]
    have rows : next.kept.rows = found.rows := by rw [keeps]
    have cols : next.kept.cols = found.cols := by rw [keeps]
    have still : next.extrapolated = found := by
      refine Mat.ext_get rows cols fun row rowBound col colBound => ?_
      have momentum : (problem.start options).momentum = 1 := rfl
      rw [get_extrapolated_advance kept step (rowBound.trans_eq rows) (colBound.trans_eq cols), momentum,
        sub_self, zero_div, zero_mul, add_zero]
    have again : problem.accepted? next = some (found, step) := by
      have stays : problem.accepts found (problem.smooth.value found) (problem.smooth.gradient found)
          (problem.candidate found (problem.smooth.gradient found) step) step := by
        rw [fixed]
        exact accepts_self problem found step
      have searched := search_of_accepts stays (halvingsBelow step)
      rw [fixed] at searched
      unfold accepted?
      rw [still]
      exact searched
    refine reached.solve_eq_ok (by omega) (pass_eq_converged.2 ⟨again, ?_⟩)
    rw [still, Mat.distance_self]
    positivity

theorem accepted?_halved {found : Mat ℝ} {first step : ℝ}
    (started : ∃ count : Nat, iterate.step = first / 2 ^ count)
    (accepted : problem.accepted? iterate = some (found, step)) :
    ∃ count : Nat, step = first / 2 ^ count := by
  obtain ⟨count, started⟩ := started
  obtain ⟨more, halved, -, -⟩ := accepted?_eq_some accepted
  exact ⟨count + more, by rw [halved, started, div_div, pow_add]⟩

theorem Passes.step_eq (reached : Passes problem options passes iterate) :
    ∃ count : Nat, iterate.step = problem.startingStep options / 2 ^ count := by
  induction reached with
  | start =>
      refine ⟨0, ?_⟩
      rw [pow_zero, div_one]
      rfl
  | next earlier _ passed ih =>
      obtain ⟨found, step, accepted, -, rfl⟩ := pass_eq_next.1 passed
      exact accepted?_halved ih accepted

theorem Passes.step_pos (reached : Passes problem options passes iterate) : 0 < iterate.step := by
  obtain ⟨count, started⟩ := reached.step_eq
  rw [started]
  exact div_pos startingStep_pos (by positivity)

theorem Passes.step_le (reached : Passes problem options passes iterate) :
    iterate.step ≤ problem.startingStep options := by
  obtain ⟨count, started⟩ := reached.step_eq
  rw [started]
  exact div_le_self startingStep_pos.le (one_le_pow₀ one_le_two)

theorem Ends.coefs_shape {run : Run ℝ} (coefsShape : problem.coefs.shape = problem.penalty.shape)
    (ended : Ends problem options run) : run.coefs.shape = problem.penalty.shape := by
  cases ended with
  | converged earlier budget last => exact pass_shape last
  | failed earlier budget last => exact coefsShape
  | exhausted all => exact (all.sound coefsShape).kept

end

inductive Prepared (smooth : Smooth ℝ) (penalty : Penalty ℝ) : Problem ℝ → Prop where
  | built {problem : Problem ℝ} (made : ofPenalty smooth penalty = .ok problem) :
      Prepared smooth penalty problem
  | warm {problem started : Problem ℝ} {coefs : Mat ℝ} (earlier : Prepared smooth penalty problem)
      (made : problem.warmStart coefs = .ok started) : Prepared smooth penalty started
  | solved {problem : Problem ℝ} (earlier : Prepared smooth penalty problem)
      (options : SolveOptions ℝ) : Prepared smooth penalty (problem.solve options).2

structure Fits (smooth : Smooth ℝ) (penalty : Penalty ℝ) (problem : Problem ℝ) : Prop where
  sameSmooth : problem.smooth = smooth
  samePenalty : problem.penalty = penalty
  shapes : smooth.shape = penalty.shape
  coefsShape : problem.coefs.shape = penalty.shape

theorem Prepared.fits {smooth : Smooth ℝ} {penalty : Penalty ℝ} {problem : Problem ℝ}
    (prepared : Prepared smooth penalty problem) : Fits smooth penalty problem := by
  induction prepared with
  | built made =>
      obtain ⟨_, fits, result⟩ := Failure.bind_eq_ok.1 made
      cases result
      have shapes := Failure.expectShape_eq_ok.1 fits
      exact ⟨rfl, rfl, shapes, shapes⟩
  | warm earlier made ih =>
      obtain ⟨_, fits, result⟩ := Failure.bind_eq_ok.1 made
      cases result
      have shapes := Failure.expectShape_eq_ok.1 fits
      exact ⟨ih.sameSmooth, ih.samePenalty, ih.shapes, by rw [← shapes, ih.sameSmooth, ih.shapes]⟩
  | @solved problem earlier options ih =>
      obtain ⟨run, ended, solved⟩ := solve_ends problem options
      rw [solved]
      have coefsShape : problem.coefs.shape = problem.penalty.shape :=
        ih.coefsShape.trans (congrArg Penalty.shape ih.samePenalty).symm
      exact ⟨ih.sameSmooth, ih.samePenalty, ih.shapes,
        (ended.coefs_shape coefsShape).trans (congrArg Penalty.shape ih.samePenalty)⟩

end Problem

end GroupLasso
