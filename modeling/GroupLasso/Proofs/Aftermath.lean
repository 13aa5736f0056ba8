import GroupLasso.Proofs.Acceleration

/-!
What a run leaves behind, for any smooth function. The kept point only changes to a candidate that is not
worse, so that an exhausted budget leaves coefficients that are no worse than the first ones, and a
breakdown leaves the first ones. Steps are only ever halved.
-/

namespace GroupLasso

open Scalar

namespace Problem

section
variable {α : Type} [Scalar α] {problem : Problem α} {options : SolveOptions α}
  {iterate other : Iterate α} {passes : Nat}

theorem solve_eq_numerical {fault : SolverFault}
    (failed : (problem.solve options).1 = .error (.numerical fault)) :
    ∃ passes iterate, Passes problem options passes iterate ∧ passes < options.maxIterations ∧
      problem.pass options.tolerance passes iterate = .failed fault ∧
        (problem.solve options).2 = { problem with step := problem.lastStep passes iterate } := by
  obtain ⟨run, ended, finished⟩ := solve_ends problem options
  rw [finished] at failed ⊢
  cases ended with
  | converged => cases failed
  | failed earlier budget last =>
      cases failed
      exact ⟨_, _, earlier, budget, last, rfl⟩
  | exhausted => cases failed

end

section
variable {problem : Problem ℝ} {options : SolveOptions ℝ} {iterate next : Iterate ℝ}
  {found : Mat ℝ} {step : ℝ} {passes : Nat}

/-- Some pass of the run puts its candidate in the place of the kept point. -/
def KeepsCandidate (problem : Problem ℝ) (options : SolveOptions ℝ) : Prop :=
  ∃ passes iterate found step, Passes problem options passes iterate ∧
    passes < options.maxIterations ∧ problem.accepted? iterate = some (found, step) ∧
      problem.objective found ≤ iterate.keptObjective

theorem Passes.objective_le (coefsShape : problem.coefs.shape = problem.penalty.shape)
    (reached : Passes problem options passes iterate) :
    problem.objective iterate.kept ≤ problem.objective problem.coefs := by
  induction reached with
  | start => exact le_rfl
  | next earlier _ passed ih =>
      obtain ⟨found, step, -, -, rfl⟩ := pass_eq_next.1 passed
      exact (objective_advance_le (earlier.sound coefsShape)).2.trans ih

theorem Passes.kept_eq (none : ¬ problem.KeepsCandidate options)
    (reached : Passes problem options passes iterate) : iterate.kept = problem.coefs := by
  induction reached with
  | start => rfl
  | next earlier budget passed ih =>
      obtain ⟨found, step, accepted, -, rfl⟩ := pass_eq_next.1 passed
      rw [kept_advance, if_neg fun improves =>
        none ⟨_, _, found, step, earlier, budget, accepted, improves⟩, ih]

theorem startingStep_real (problem : Problem ℝ) (options : SolveOptions ℝ) :
    problem.startingStep options =
      if 0 < options.initialStep.getD problem.step then options.initialStep.getD problem.step else 1 := by
  simp only [startingStep, isFinitePos_real]

theorem Passes.step_le_accepted {before after : Nat} (earlier : Passes problem options before iterate)
    (accepted : problem.accepted? iterate = some (found, step))
    (later : Passes problem options after next) (ordered : before < after) : next.step ≤ step := by
  induction later with
  | start => exact absurd ordered (Nat.not_lt_zero before)
  | @next between iterate' _ previous _ passed ih =>
      obtain ⟨found', step', accepted', -, rfl⟩ := pass_eq_next.1 passed
      change step' ≤ step
      rcases Nat.lt_succ_iff_lt_or_eq.1 ordered with sooner | rfl
      · exact (accepted?_step previous.step_pos accepted').2.trans (ih sooner)
      · obtain rfl := previous.unique earlier
        rw [accepted] at accepted'
        cases accepted'
        exact le_rfl

theorem Passes.accepted_antitone {before after : Nat} {later : Mat ℝ} {last : ℝ}
    (earlier : Passes problem options before iterate)
    (accepted : problem.accepted? iterate = some (found, step))
    (reached : Passes problem options after next)
    (acceptedLater : problem.accepted? next = some (later, last)) (ordered : before ≤ after) :
    last ≤ step := by
  rcases ordered.lt_or_eq with sooner | rfl
  · exact (accepted?_step reached.step_pos acceptedLater).2.trans
      (earlier.step_le_accepted accepted reached sooner)
  · obtain rfl := earlier.unique reached
    rw [accepted] at acceptedLater
    cases acceptedLater
    exact le_rfl

theorem Passes.lastStep_eq (reached : Passes problem options passes iterate) :
    problem.lastStep passes iterate = problem.step ∨
      ∃ count : Nat, problem.lastStep passes iterate = problem.startingStep options / 2 ^ count := by
  rcases Nat.eq_zero_or_pos passes with rfl | some
  · exact .inl rfl
  · rw [lastStep_of_pos some]
    exact .inr reached.step_eq

theorem solve_step (problem : Problem ℝ) (options : SolveOptions ℝ) :
    (problem.solve options).2.step = problem.step ∨
      ∃ count : Nat, (problem.solve options).2.step = problem.startingStep options / 2 ^ count := by
  obtain ⟨run, ended, finished⟩ := solve_ends problem options
  rw [finished]
  cases ended with
  | converged earlier _ last =>
      exact .inr (accepted?_halved earlier.step_eq (pass_eq_converged.1 last).1)
  | failed earlier _ _ => exact earlier.lastStep_eq
  | exhausted all => exact all.lastStep_eq

end

/-- An exhausted budget leaves coefficients that are no worse than the first ones, and the first ones if no
candidate was kept; a breakdown leaves the first ones. However a run ends, its step is the one before the
run or a number of halvings below the one that it started with, and no pass accepts a longer step than an
earlier one. -/
theorem solve_leaves {smooth : Smooth ℝ} {penalty : Penalty ℝ} {problem : Problem ℝ}
    (prepared : Prepared smooth penalty problem) (options : SolveOptions ℝ) :
    let requested := options.initialStep.getD problem.step
    let first := if 0 < requested then requested else 1
    (∀ iterations, (problem.solve options).1 = .error (.notConverged iterations) →
      problem.objective (problem.solve options).2.coefs ≤ problem.objective problem.coefs ∧
        (¬ problem.KeepsCandidate options → (problem.solve options).2.coefs = problem.coefs)) ∧
    (∀ fault, (problem.solve options).1 = .error (.numerical fault) →
      (problem.solve options).2.coefs = problem.coefs) ∧
    ((problem.solve options).2.step = problem.step ∨
      ∃ count : Nat, (problem.solve options).2.step = first / 2 ^ count) ∧
    ∀ {before after : Nat} {iterate next : Iterate ℝ} {found later : Mat ℝ} {step last : ℝ},
      before ≤ after → Passes problem options before iterate → Passes problem options after next →
        problem.accepted? iterate = some (found, step) →
          problem.accepted? next = some (later, last) → last ≤ step := by
  intro requested first
  have coefsShape : problem.coefs.shape = problem.penalty.shape :=
    prepared.fits.coefsShape.trans (congrArg Penalty.shape prepared.fits.samePenalty).symm
  refine ⟨fun iterations failed => ?_, fun fault failed => ?_, ?_,
    fun ordered earlier reached accepted acceptedLater =>
      earlier.accepted_antitone accepted reached acceptedLater ordered⟩
  · obtain ⟨-, iterate, all, finished⟩ := solve_eq_notConverged failed
    rw [finished]
    exact ⟨all.objective_le coefsShape, all.kept_eq⟩
  · obtain ⟨_, _, -, -, -, finished⟩ := solve_eq_numerical failed
    rw [finished]
  · have started : problem.startingStep options = first := startingStep_real problem options
    rw [← started]
    exact solve_step problem options

theorem solve_leaves_unit :
    let problem : Problem ℝ := Path.unitProblem (1 / 2)
    let options : SolveOptions ℝ := ⟨1 / 100, 3, some (1 / 2)⟩
    (problem.solve options).1 = .error (.notConverged 3) ∧
      problem.objective (problem.solve options).2.coefs ≤ problem.objective problem.coefs ∧
      ((problem.solve options).2.step = 1 ∨
        ∃ count : Nat, (problem.solve options).2.step = 1 / 2 / 2 ^ count) ∧
      ∃ next found later step last, Passes problem options 2 next ∧
        problem.accepted? (problem.start options) = some (found, step) ∧
        problem.accepted? next = some (later, last) ∧ last ≤ step := by
  intro problem options
  have starting : problem.startingStep options = 1 / 2 := by
    simp [startingStep, options]
  have failed : (problem.solve options).1 = .error (.notConverged 3) := unit_exhausts rfl rfl le_rfl
  have started : problem.coefs.get 0 0 = 0 := Mat.get_zero ..
  obtain ⟨next, reached, step, -, low, -⟩ :=
    unit_extrapolates (show options.initialStep = some (1 / 2) from rfl) (by decide)
      (by norm_num [options])
  have found := unit_halfway (start_sound rfl) starting started le_rfl
  have later := unit_halfway (reached.sound rfl) step rfl (by linarith)
  obtain ⟨exhausted, -, halved, antitone⟩ :=
    solve_leaves (unit_prepared one_half_pos.le).2 options
  have requested : options.initialStep.getD problem.step = 1 / 2 := rfl
  rw [requested, if_pos one_half_pos] at halved
  exact ⟨failed, (exhausted 3 failed).1, halved, next, _, _, _, _, reached, found, later,
    antitone (Nat.zero_le 2) .start reached found later⟩

end Problem

end GroupLasso
