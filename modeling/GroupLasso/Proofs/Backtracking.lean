import GroupLasso.Proofs.Aftermath

/-!
The search for a step on a function of bounded curvature. A step is accepted once it is short for the
curvature, so that the search ends before it gives up, and what it ends with is at least half of such a
step unless it started below one.
-/

namespace GroupLasso

open Scalar

namespace Problem

section
variable {problem : Problem ℝ} {point gradient : Mat ℝ} {iterate : Iterate ℝ} {value step : ℝ}
  {halvings count : Nat}

theorem minStep_pos : (0 : ℝ) < minStep := by
  norm_num [minStep]

theorem search_of_accepts_halved (step_pos : 0 < step) (enough : count ≤ halvings)
    (large : count = 0 ∨ minStep ≤ step / 2 ^ count)
    (accepted : problem.accepts point value gradient
      (problem.candidate point gradient (step / 2 ^ count)) (step / 2 ^ count)) :
    ∃ found last, problem.search point value gradient halvings step = some (found, last) := by
  induction count generalizing step halvings with
  | zero =>
      rw [pow_zero, div_one] at accepted
      exact ⟨_, _, search_of_accepts accepted halvings⟩
  | succ count ih =>
      obtain ⟨fewer, rfl⟩ := Nat.exists_eq_add_of_le' (Nat.one_le_of_lt enough)
      have half : step * 0.5 = step / 2 := by norm_num [div_eq_mul_inv]
      have halved : step / 2 ^ (count + 1) = step / 2 / 2 ^ count := by
        rw [pow_succ', div_div]
      rw [halved] at accepted
      have remains : minStep ≤ step / 2 / 2 ^ count := by
        rw [← halved]
        exact large.resolve_left (Nat.succ_ne_zero count)
      have longer : step / 2 / 2 ^ count ≤ step / 2 :=
        div_le_self (by positivity) (one_le_pow₀ one_le_two)
      simp only [search, half]
      split_ifs with first below
      · exact ⟨_, _, rfl⟩
      · exact absurd below (remains.trans longer).not_gt
      · exact ih (by positivity) (by omega) (.inr remains) accepted

theorem le_halvingsBelow (step_pos : 0 < step) (large : minStep ≤ step / 2 ^ count) :
    count ≤ halvingsBelow step := by
  have log_two : 0 < Real.log 2 := Real.log_pos one_lt_two
  have logs : Real.log minStep ≤ Real.log step - count * Real.log 2 := by
    rw [← Real.log_pow, ← Real.log_div step_pos.ne' (by positivity)]
    exact Real.log_le_log minStep_pos large
  have quotient : (count : ℝ) ≤ (Real.log step - Real.log minStep) / Real.log 2 := by
    rw [le_div_iff₀ log_two]
    linarith
  have rounded : count ≤ ⌈(Real.log step - Real.log minStep) / Real.log 2⌉₊ :=
    Nat.cast_le.1 (quotient.trans (Nat.le_ceil _))
  exact rounded.trans (Nat.le_add_right _ 2)

theorem accepted?_of_accepts (step_pos : 0 < iterate.step)
    (large : count = 0 ∨ minStep ≤ iterate.step / 2 ^ count)
    (accepted : problem.accepts iterate.extrapolated (problem.smooth.value iterate.extrapolated)
      (problem.smooth.gradient iterate.extrapolated)
      (problem.candidate iterate.extrapolated (problem.smooth.gradient iterate.extrapolated)
        (iterate.step / 2 ^ count)) (iterate.step / 2 ^ count)) :
    ∃ found last, problem.accepted? iterate = some (found, last) := by
  refine search_of_accepts_halved step_pos ?_ large accepted
  rcases large with rfl | remains
  · exact Nat.zero_le _
  · exact le_halvingsBelow step_pos remains

end

end Problem

/-! Bounded curvature. -/

/-- The function lies below each of its tangents plus half its curvature times the squared distance. -/
structure Smooth.CurvedAtMost (smooth : Smooth ℝ) (curvature : ℝ) : Prop where
  positive : 0 < curvature
  below : ∀ {point other : Mat ℝ}, point.shape = smooth.shape → other.shape = smooth.shape →
    smooth.value other ≤ smooth.value point +
      (smooth.gradient point).inner (other.addScaled (-1) point) +
        curvature / 2 * other.distance point ^ 2

namespace Problem

section
variable {problem : Problem ℝ} {options : SolveOptions ℝ} {iterate : Iterate ℝ} {point : Mat ℝ}
  {curvature step : ℝ} {passes : Nat}

theorem half_le_of_long {count : Nat} (curvature_pos : 0 < curvature)
    (long : 1 < curvature * (step / 2 ^ count)) : 1 / (2 * curvature) ≤ step / 2 ^ (count + 1) := by
  rw [div_le_iff₀ (by positivity), pow_succ, ← div_div]
  linarith

theorem exists_short (curvature_pos : 0 < curvature) (step : ℝ) : ∃ count : Nat,
    curvature * (step / 2 ^ count) ≤ 1 ∧ (count = 0 ∨ 1 / (2 * curvature) ≤ step / 2 ^ count) := by
  have short : ∃ count : Nat, curvature * (step / 2 ^ count) ≤ 1 := by
    obtain ⟨count, beyond⟩ := pow_unbounded_of_one_lt (curvature * step) one_lt_two
    exact ⟨count, by rw [← mul_div_assoc, div_le_one (by positivity)]; exact beyond.le⟩
  classical
  refine ⟨Nat.find short, Nat.find_spec short, ?_⟩
  rcases Nat.eq_zero_or_eq_succ_pred (Nat.find short) with first | later
  · exact .inl first
  · rw [later]
    exact .inr (half_le_of_long curvature_pos (not_le.1 (Nat.find_min short (by omega))))

section
variable (shapes : problem.smooth.shape = problem.penalty.shape)
  (coefsShape : problem.coefs.shape = problem.penalty.shape)
  (resolved : minStep ≤ 1 / (2 * curvature)) (curved : problem.smooth.CurvedAtMost curvature)

include shapes curved

theorem accepts_of_short (pointShape : point.shape = problem.penalty.shape) (step_pos : 0 < step)
    (short : curvature * step ≤ 1) :
    problem.accepts point (problem.smooth.value point) (problem.smooth.gradient point)
      (problem.candidate point (problem.smooth.gradient point) step) step := by
  let found := problem.candidate point (problem.smooth.gradient point) step
  have foundShape : found.shape = problem.penalty.shape := rfl
  have tangent := curved.below (pointShape.trans shapes.symm) (foundShape.trans shapes.symm)
  have flat : curvature / 2 ≤ 1 / (2 * step) := by
    rw [le_div_iff₀ (by positivity)]
    linarith
  have square := mul_le_mul_of_nonneg_right flat (sq_nonneg (found.distance point))
  rw [one_div_mul_eq_div] at square
  refine accepts_of_le ?_
  rw [bound, Mat.inner_difference_self foundShape pointShape]
  linarith

include coefsShape

theorem Passes.accepted_ge (reached : Passes problem options passes iterate) {found : Mat ℝ}
    (accepted : problem.accepted? iterate = some (found, step)) :
    step = iterate.step ∨ 1 / (2 * curvature) ≤ step := by
  obtain ⟨count, halved, -, first⟩ := accepted?_eq_some accepted
  cases count with
  | zero =>
      rw [pow_zero, div_one] at halved
      exact .inl halved
  | succ count =>
      have sound := reached.sound coefsShape
      have rejected := first.rejected count (Nat.lt_succ_self count)
      have long : 1 < curvature * (iterate.step / 2 ^ count) := by
        refine not_le.1 fun short => rejected (accepts_of_short shapes curved sound.extrapolated ?_ short)
        exact div_pos sound.step_pos (by positivity)
      rw [halved]
      exact .inr (half_le_of_long curved.positive long)

theorem Passes.step_ge (reached : Passes problem options passes iterate) :
    min (problem.startingStep options) (1 / (2 * curvature)) ≤ iterate.step := by
  induction reached with
  | start => exact min_le_left _ _
  | next earlier _ passed ih =>
      obtain ⟨found, step, accepted, -, rfl⟩ := pass_eq_next.1 passed
      rcases earlier.accepted_ge shapes coefsShape curved accepted with same | long
      · exact ih.trans same.ge
      · exact (min_le_right _ _).trans long

include resolved

theorem Passes.accepts (reached : Passes problem options passes iterate) :
    ∃ found step, problem.accepted? iterate = some (found, step) := by
  have sound := reached.sound coefsShape
  obtain ⟨count, short, large⟩ := exists_short curved.positive iterate.step
  refine accepted?_of_accepts sound.step_pos (large.imp_right resolved.trans)
    (accepts_of_short shapes curved sound.extrapolated ?_ short)
  exact div_pos sound.step_pos (by positivity)

theorem Passes.pass_ne_failed (reached : Passes problem options passes iterate)
    (tolerance : ℝ) (iteration : Nat) (fault : SolverFault) :
    problem.pass tolerance iteration iterate ≠ .failed fault := by
  obtain ⟨found, step, accepted⟩ := reached.accepts shapes coefsShape resolved curved
  rw [pass_real, accepted]
  dsimp only
  split_ifs
  · exact nofun
  · exact nofun

end

end

/-- Where the curvature is bounded, no search gives up: every pass of a run reaches an accepted candidate,
and the run ends with a step that is at least half of a short one, or the one it started with if that was
shorter. -/
theorem solve_step_ge {smooth : Smooth ℝ} {penalty : Penalty ℝ} {problem : Problem ℝ}
    {options : SolveOptions ℝ} {curvature : ℝ} (prepared : Prepared smooth penalty problem)
    (curved : smooth.CurvedAtMost curvature) (resolved : minStep ≤ 1 / (2 * curvature))
    (budget : 1 ≤ options.maxIterations) :
    (∀ iteration, (problem.solve options).1 ≠ .error (.numerical (.stepCollapsed iteration))) ∧
    (∀ passes iterate, Passes problem options passes iterate → ∃ count : Nat,
      problem.FirstAccepted iterate.extrapolated (problem.smooth.value iterate.extrapolated)
          (problem.smooth.gradient iterate.extrapolated) iterate.step count ∧
        problem.accepted? iterate = some (problem.candidate iterate.extrapolated
          (problem.smooth.gradient iterate.extrapolated) (iterate.step / 2 ^ count),
            iterate.step / 2 ^ count)) ∧
    min (problem.startingStep options) (1 / (2 * curvature)) ≤ (problem.solve options).2.step := by
  obtain ⟨rfl, rfl, shapes, coefsShape⟩ := prepared.fits
  refine ⟨fun iteration failed => ?_, fun passes iterate reached => ?_, ?_⟩
  · obtain ⟨_, _, reached, -, last, -⟩ := solve_eq_numerical failed
    exact reached.pass_ne_failed shapes coefsShape resolved curved _ _ _ last
  · obtain ⟨found, step, accepted⟩ := reached.accepts shapes coefsShape resolved curved
    obtain ⟨count, rfl, rfl, first⟩ := accepted?_eq_some accepted
    exact ⟨count, first, accepted⟩
  · obtain ⟨run, ended, finished⟩ := solve_ends problem options
    rw [finished]
    cases ended with
    | converged earlier _ last =>
        rcases earlier.accepted_ge shapes coefsShape curved (pass_eq_converged.1 last).1 with
          same | long
        · exact (earlier.step_ge shapes coefsShape curved).trans same.ge
        · exact (min_le_right _ _).trans long
    | failed earlier _ last =>
        exact absurd last (earlier.pass_ne_failed shapes coefsShape resolved curved _ _ _)
    | exhausted all =>
        change _ ≤ problem.lastStep options.maxIterations _
        rw [lastStep_of_pos budget]
        exact all.step_ge shapes coefsShape curved

theorem unit_curved (lagrange : ℝ) : (Path.unitProblem lagrange).smooth.CurvedAtMost 1 := by
  refine ⟨one_pos, fun {point other} pointShape otherShape => ?_⟩
  rw [unit_expansion lagrange pointShape otherShape]
  linarith

theorem unit_rejects {step : ℝ} (long : 2 ≤ step) (bounded : step ≤ 4) :
    let problem : Problem ℝ := Path.unitProblem (1 / 2)
    ¬ problem.accepts (Mat.zero 1 1) (problem.smooth.value (Mat.zero 1 1))
      (problem.smooth.gradient (Mat.zero 1 1))
        (problem.candidate (Mat.zero 1 1) (problem.smooth.gradient (Mat.zero 1 1)) step) step := by
  intro problem accepted
  have step_pos : 0 < step := by linarith
  let found : Mat ℝ := .ofFn 1 1 fun _ _ => step * (1 - 1 / 2)
  have entry : found.get 0 0 = step * (1 - 1 / 2) := Mat.get_ofFn _ one_pos one_pos
  have candidate : problem.candidate (Mat.zero 1 1) (problem.smooth.gradient (Mat.zero 1 1)) step =
      found := Path.unit_candidate one_half_lt_one step_pos
  have value : problem.smooth.value found = 1 / 2 * (step / 2 - 1) ^ 2 := by
    refine (Path.unit_value rfl).trans ?_
    rw [entry]
    ring
  have limit : bound (problem.smooth.value (Mat.zero 1 1)) (problem.smooth.gradient (Mat.zero 1 1))
      (found.addScaled (-1) (Mat.zero 1 1)) step =
        1 / 2 * (step / 2 - 1) ^ 2 + (step - step ^ 2) / 8 := by
    have start : (Mat.zero 1 1 : Mat ℝ).get 0 0 = 0 := Mat.get_zero ..
    have gained : (1 / step - 1) / 2 * (step * (1 - 1 / 2) - 0) ^ 2 = (step - step ^ 2) / 8 := by
      field_simp
      ring
    rw [Path.unit_bound rfl rfl, value, entry, start, gained]
  rw [candidate] at accepted
  have below := of_decide_eq_true accepted
  simp only [limit, value] at below
  have slack : |1 / 2 * (step / 2 - 1) ^ 2 + (step - step ^ 2) / 8| ≤ 2 :=
    abs_le.2 ⟨by nlinarith, by nlinarith⟩
  have far : (step - step ^ 2) / 8 ≤ -1 / 4 := by nlinarith
  rw [Scalar.abs_real] at below
  linarith

theorem unit_halved :
    let problem : Problem ℝ := Path.unitProblem (1 / 2)
    problem.FirstAccepted (Mat.zero 1 1) (problem.smooth.value (Mat.zero 1 1))
      (problem.smooth.gradient (Mat.zero 1 1)) 4 2 := by
  intro problem
  have two : (4 : ℝ) / 2 ^ 1 = 2 := by norm_num
  have one : (4 : ℝ) / 2 ^ 2 = 1 := by norm_num
  refine ⟨?_, fun earlier bound => ?_⟩
  · rw [one]
    exact Path.unit_accepts rfl rfl one_pos le_rfl
  · interval_cases earlier
    · rw [pow_zero, div_one]
      exact unit_rejects (by norm_num) le_rfl
    · rw [two]
      exact unit_rejects le_rfl (by norm_num)

/-- A step of four is halved twice in the first pass, and the second one starts with the step that is
left. -/
theorem solve_step_ge_unit :
    let problem : Problem ℝ := Path.unitProblem (1 / 2)
    let options : SolveOptions ℝ := ⟨1 / 100, 3, some 4⟩
    problem.smooth.CurvedAtMost 1 ∧ (minStep : ℝ) ≤ 1 / (2 * 1) ∧ 1 ≤ options.maxIterations ∧
      problem.startingStep options = 4 ∧
      (∀ iteration, (problem.solve options).1 ≠ .error (.numerical (.stepCollapsed iteration))) ∧
      problem.accepted? (problem.start options) = some (.ofFn 1 1 fun _ _ => 1 * (1 - 1 / 2), 1) ∧
      (∃ iterate, Passes problem options 1 iterate ∧ iterate.step = 1 ∧
        ∃ found step, problem.accepted? iterate = some (found, step)) ∧
      1 / 2 ≤ (problem.solve options).2.step := by
  intro problem options
  have starting : problem.startingStep options = 4 := by
    simp [startingStep, options]
  have resolved : (minStep : ℝ) ≤ 1 / (2 * 1) := by norm_num [minStep]
  have curved : problem.smooth.CurvedAtMost 1 := unit_curved (1 / 2)
  have budget : 1 ≤ options.maxIterations := by decide
  obtain ⟨uncollapsed, searches, large⟩ :=
    solve_step_ge (unit_prepared one_half_pos.le).2 curved resolved budget
  have accepted : problem.accepted? (problem.start options) =
      some (.ofFn 1 1 fun _ _ => 1 * (1 - 1 / 2), 1) := by
    obtain ⟨count, first, accepted⟩ := searches 0 _ .start
    have step : (problem.start options).step = 4 := starting
    have quarter : (4 : ℝ) / 2 ^ 2 = 1 := by norm_num
    rw [step] at first accepted
    obtain rfl : count = 2 := first.unique unit_halved
    rw [quarter] at accepted
    rw [accepted]
    exact congrArg (fun found => some (found, (1 : ℝ))) (Path.unit_candidate one_half_lt_one one_pos)
  have unsettled : options.tolerance * max (Mat.ofFn 1 1 fun _ _ => 1 * (1 - 1 / 2) : Mat ℝ).frobenius 1 <
      (Mat.ofFn 1 1 fun _ _ => 1 * (1 - 1 / 2) : Mat ℝ).distance (problem.start options).extrapolated := by
    have entry : (Mat.ofFn 1 1 fun _ _ => 1 * (1 - 1 / 2) : Mat ℝ).get 0 0 = 1 * (1 - 1 / 2) :=
      Mat.get_ofFn _ one_pos one_pos
    have start : (problem.start options).extrapolated.get 0 0 = 0 := Mat.get_zero ..
    rw [Path.unit_frobenius rfl, unit_distance rfl rfl, entry, start]
    norm_num [options]
  have second := Passes.start.next budget (pass_eq_next.2 ⟨_, _, accepted, unsettled, rfl⟩)
  obtain ⟨_, -, again⟩ := searches 1 _ second
  refine ⟨curved, resolved, budget, starting, uncollapsed, accepted,
    ⟨_, second, rfl, _, _, again⟩, ?_⟩
  have least : min (problem.startingStep options) (1 / (2 * 1)) = 1 / 2 := by
    rw [starting]
    norm_num
  exact least.symm.trans_le large

end Problem

end GroupLasso
