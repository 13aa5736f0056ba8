import GroupLasso.Proofs.Accounting

/-!
The tolerances of an attempt. Rounds that expand the candidates keep the tolerance, and a round that tightens
it takes a tenth, but not less than a floor. The tolerances of an attempt therefore never rise when the first
of them is not below the floor. From below the floor the first tightening raises the tolerance to the
floor.
-/

namespace GroupLasso

open Scalar

namespace Path

inductive ToleranceUse (α : Type) where
  | solved (tolerance : α)
  | tightened (tolerance : α)

namespace ToleranceUse

variable {α : Type}

def tolerance : ToleranceUse α → α
  | solved tolerance => tolerance
  | tightened tolerance => tolerance

/-- After a failed round the next one has the same tolerance, or the one that was logged. -/
inductive Follows [Scalar α] : ToleranceUse α → ToleranceUse α → Prop where
  | expands (tolerance : α) : Follows (.solved tolerance) (.solved tolerance)
  | tightens (tolerance : α) :
      Follows (.solved tolerance) (.tightened (larger (tolerance * 0.1) minTolerance))
  | retries (tolerance : α) : Follows (.tightened tolerance) (.solved tolerance)

end ToleranceUse

section
variable {α : Type}

def Event.tolerance? : Event α → Option (ToleranceUse α)
  | .solve _ _ options => some (.solved options.tolerance)
  | .record ⟨.tightening, _, .tightening _ tolerance⟩ => some (.tightened tolerance)
  | _ => none

def tolerances (events : List (Event α)) : List (ToleranceUse α) :=
  events.filterMap Event.tolerance?

section
variable (events more : List (Event α))

@[simp] theorem tolerances_append :
    tolerances (events ++ more) = tolerances events ++ tolerances more := List.filterMap_append

@[simp] theorem tolerances_solve (path : Path α) (lagrange : α) (options : SolveOptions α) :
    tolerances (.solve path lagrange options :: events) =
      .solved options.tolerance :: tolerances events := rfl

@[simp] theorem tolerances_mark (groups : List Nat) :
    tolerances (.mark groups :: events) = tolerances events := rfl

end

theorem mem_tolerances {events : List (Event α)} {tolerance : α} :
    .tightened tolerance ∈ tolerances events ↔ ∃ lagrange groups,
      .record ⟨.tightening, lagrange, .tightening groups tolerance⟩ ∈ events := by
  rw [tolerances, List.mem_filterMap]
  constructor
  · rintro ⟨event, member, used⟩
    unfold Event.tolerance? at used
    split at used
    · cases used
    · cases used
      exact ⟨_, _, member⟩
    · cases used
  · rintro ⟨lagrange, groups, member⟩
    exact ⟨_, member, rfl⟩

variable [Scalar α]

/-- No restricted problem is solved, and no tightening logged, with a larger tolerance than the last. -/
def Descends (events : List (Event α)) : Prop :=
  (tolerances events).IsChain fun before after => after.tolerance ≤ before.tolerance

section
variable (path : Path α) (lagrange : α) (options : SolveOptions α) {trial : Trial α}

theorem tolerances_tightened (none : trial.newcomers.isEmpty) :
    tolerances (path.responseEvents lagrange options trial) =
        [.tightened (larger (options.tolerance * 0.1) minTolerance)] ∧
      (path.respond lagrange options trial).2.tolerance =
        larger (options.tolerance * 0.1) minTolerance := by
  unfold responseEvents respond
  simp only [if_pos none]
  exact ⟨rfl, trivial⟩

theorem tolerances_expanded (some : ¬ trial.newcomers.isEmpty) :
    tolerances (path.responseEvents lagrange options trial) = [] ∧
      (path.respond lagrange options trial).2.tolerance = options.tolerance := by
  unfold responseEvents respond
  simp only [if_neg some]
  exact ⟨rfl, trivial⟩

end

theorem tolerances_rounds (lagrange : α) (retries : Nat) (options : SolveOptions α) (path : Path α) :
    (tolerances (roundEvents lagrange retries options path)).head? =
        some (.solved options.tolerance) ∧
      (tolerances (roundEvents lagrange retries options path)).IsChain ToleranceUse.Follows := by
  induction retries generalizing options path with
  | zero =>
      unfold roundEvents
      cases path.trial lagrange options with
      | error failure => exact ⟨rfl, List.isChain_singleton _⟩
      | ok trial =>
          dsimp only
          split_ifs
          · exact ⟨rfl, List.isChain_singleton _⟩
          · exact ⟨rfl, List.isChain_singleton _⟩
  | succ retries ih =>
      cases tried : path.trial lagrange options with
      | error failure =>
          unfold roundEvents
          rw [tried]
          exact ⟨rfl, List.isChain_singleton _⟩
      | ok trial =>
          by_cases passed : trial.violators.isEmpty
          · rw [roundEvents_passed tried passed]
            exact ⟨rfl, List.isChain_singleton _⟩
          · obtain ⟨head, chain⟩ := ih (path.respond lagrange options trial).2
              (path.respond lagrange options trial).1
            rw [roundEvents_retried tried passed retries _ rfl, tolerances_solve, tolerances_append]
            refine ⟨rfl, ?_⟩
            by_cases none : trial.newcomers.isEmpty
            · obtain ⟨logged, tolerance⟩ := tolerances_tightened path lagrange options none
              rw [logged, List.singleton_append]
              refine (chain.cons ?_).cons ?_
              · rw [head, tolerance]
                rintro _ ⟨⟩
                exact .retries _
              · rintro _ ⟨⟩
                exact .tightens _
            · obtain ⟨quiet, tolerance⟩ := tolerances_expanded path lagrange options none
              rw [quiet, List.nil_append]
              refine chain.cons ?_
              rw [head, tolerance]
              rintro _ ⟨⟩
              exact .expands _

theorem tolerances_attempt (attempt : Attempt α) :
    (tolerances attempt.events).head? = some (.solved attempt.options.tolerance) ∧
      (tolerances attempt.events).IsChain ToleranceUse.Follows := by
  rw [Attempt.events, attemptEvents, tolerances_mark]
  exact tolerances_rounds ..

theorem rounds_tightenings (lagrange : α) (retries : Nat) (options : SolveOptions α) (path : Path α) :
    ∀ entry ∈ logged (roundEvents lagrange retries options path), entry.kind = .tightening →
      ∃ groups tolerance, entry.detail = .tightening groups tolerance := by
  refine rounds_induction (motive := fun _ events _ => ∀ entry ∈ logged events,
    entry.kind = .tightening → ∃ groups tolerance, entry.detail = .tightening groups tolerance)
    ?_ ?_ ?_ retries 1 options path
  · intro path options failure
    exact List.forall_mem_nil _
  · intro path options round trial _ _
    exact List.forall_mem_nil _
  · intro path options trial events result _ _ later entry listed tightening
    rw [logged_solve, logged_append] at listed
    rcases List.mem_append.1 listed with answer | rest
    · unfold responseEvents at answer
      split_ifs at answer
      · cases List.mem_singleton.1 answer
        exact ⟨_, _, rfl⟩
      · cases List.mem_singleton.1 answer
        cases tightening
    · exact later entry rest tightening

theorem tightening_logged {attempt : Attempt α} {entry : Diagnostic α}
    (listed : entry ∈ attempt.logged) (tightening : entry.kind = .tightening) :
    ∃ groups tolerance, entry.detail = .tightening groups tolerance ∧
      .tightened tolerance ∈ tolerances attempt.events := by
  obtain ⟨event, member, recorded⟩ := List.mem_filterMap.1 listed
  cases event with
  | record same =>
      cases recorded
      have detailed := rounds_tightenings attempt.next attempt.path.options.maxKktRetries
        attempt.options (attempt.path.screen attempt.current attempt.next)
      obtain ⟨groups, tolerance, detail⟩ := detailed entry listed tightening
      refine ⟨groups, tolerance, detail, mem_tolerances.2 ⟨entry.lagrange, groups, ?_⟩⟩
      rwa [← tightening, ← detail]
  | solve => cases recorded
  | mark => cases recorded
  | commit => cases recorded

theorem countLogged_tightening {attempt : Attempt α} :
    countLogged .tightening attempt.events = 0 ↔
      ∀ tolerance, .tightened tolerance ∉ tolerances attempt.events := by
  rw [countLogged_eq_zero]
  constructor
  · intro none tolerance used
    obtain ⟨lagrange, groups, member⟩ := mem_tolerances.1 used
    exact none _ (List.mem_filterMap.2 ⟨_, member, rfl⟩) rfl
  · intro none entry listed tightening
    obtain ⟨groups, tolerance, -, used⟩ := tightening_logged listed tightening
    exact none tolerance used

end

theorem minTolerance_pos : (0 : ℝ) < minTolerance := by
  norm_num [minTolerance]

section
variable {before after : ToleranceUse ℝ} {events : List (Event ℝ)} {first : ℝ}

theorem ToleranceUse.Follows.le_of_ge (follows : before.Follows after)
    (above : minTolerance ≤ before.tolerance) :
    after.tolerance ≤ before.tolerance ∧ minTolerance ≤ after.tolerance := by
  cases follows with
  | expands tolerance => exact ⟨le_rfl, above⟩
  | tightens tolerance =>
      have positive : 0 < tolerance := minTolerance_pos.trans_le above
      simp only [ToleranceUse.tolerance, larger_real] at above ⊢
      exact ⟨max_le (mul_le_of_le_one_right positive.le (by norm_num)) above, le_max_right _ _⟩
  | retries tolerance => exact ⟨le_rfl, above⟩

theorem ToleranceUse.Follows.eq_of_lt (follows : before.Follows after) (below : first < minTolerance)
    (reached : before = .solved first ∨ before.tolerance = minTolerance) :
    after = .solved first ∨ after.tolerance = minTolerance := by
  have tenth : ∀ {tolerance : ℝ}, tolerance ≤ minTolerance →
      larger (tolerance * 0.1) minTolerance = minTolerance := by
    intro tolerance atMost
    have := minTolerance_pos
    rw [larger_real, max_eq_right (by norm_num; linarith)]
  cases follows with
  | expands tolerance => exact reached
  | tightens tolerance =>
      refine .inr (tenth ?_)
      rcases reached with same | floor
      · cases same
        exact below.le
      · exact floor.le
  | retries tolerance =>
      rcases reached with other | floor
      · cases other
      · exact .inr floor

variable (head : (tolerances events).head? = some (.solved first))
  (chain : (tolerances events).IsChain ToleranceUse.Follows)

include head chain

theorem descends_of_ge (above : minTolerance ≤ first) : Descends events := by
  have floor : ∀ use ∈ tolerances events, minTolerance ≤ use.tolerance := by
    apply chain.induction _ _ fun before after follows floor => (follows.le_of_ge floor).2
    intro nonempty
    rw [List.head?_eq_some_head nonempty] at head
    rw [Option.some.inj head]
    exact above
  exact chain.imp_of_mem_imp fun before after member _ follows =>
    (follows.le_of_ge (floor before member)).1

theorem eq_of_lt (below : first < minTolerance) :
    ∀ use ∈ tolerances events, use = .solved first ∨ use.tolerance = minTolerance := by
  apply chain.induction _ _ fun before after follows reached => follows.eq_of_lt below reached
  intro nonempty
  rw [List.head?_eq_some_head nonempty] at head
  exact .inl (Option.some.inj head)

theorem descends_iff : Descends events ↔
    minTolerance ≤ first ∨ ∀ tolerance, .tightened tolerance ∉ tolerances events := by
  constructor
  · intro descends
    rw [or_iff_not_imp_left, not_le]
    intro below tolerance used
    have raised : tolerance = minTolerance := by
      rcases eq_of_lt head chain below _ used with other | floor
      · cases other
      · exact floor
    have atMost : ∀ use ∈ tolerances events, use.tolerance ≤ first := by
      apply descends.induction _ _ fun before after smaller atMost => smaller.trans atMost
      intro nonempty
      rw [List.head?_eq_some_head nonempty] at head
      rw [Option.some.inj head]
      exact le_rfl
    exact (below.trans_le' (raised ▸ atMost _ used)).false
  · rintro (above | none)
    · exact descends_of_ge head chain above
    · refine chain.imp_of_mem_imp fun before after _ member follows => ?_
      cases follows with
      | expands tolerance => exact le_rfl
      | tightens tolerance => exact absurd member (none _)
      | retries tolerance => exact le_rfl

end

/-- The tolerances of every attempt at a Lagrange value. The first is that of the path, relaxed as often as
there were attempts before; they never rise exactly when it is not below the floor or no round tightens
it; and below the floor every tightening raises them to the floor. -/
theorem attempt_descends_iff (visit : Visit ℝ) {index : Nat} {attempt : Attempt ℝ}
    (made : visit.attempts[index]? = some attempt) :
    let first := visit.path.options.tolerance * 10 ^ index
    (tolerances attempt.events).head? = some (.solved first) ∧
      (tolerances attempt.events).IsChain ToleranceUse.Follows ∧
      (∀ entry ∈ attempt.logged, entry.kind = .tightening → ∃ groups tolerance,
        entry.detail = .tightening groups tolerance ∧
          .tightened tolerance ∈ tolerances attempt.events) ∧
      (Descends attempt.events ↔
        minTolerance ≤ first ∨ countLogged .tightening attempt.events = 0) ∧
      (first < minTolerance → ∀ tolerance, .tightened tolerance ∈ tolerances attempt.events →
        tolerance = minTolerance) := by
  intro first
  obtain ⟨head, chain⟩ := tolerances_attempt attempt
  have relaxed : attempt.options.tolerance = first := by
    rw [visit.tries.options_eq made, relax_iterate]
    simp only [mul_right_iterate]
    rfl
  rw [relaxed] at head
  refine ⟨head, chain, fun entry => tightening_logged, ?_, ?_⟩
  · rw [countLogged_tightening]
    exact descends_iff head chain
  · intro below tolerance used
    rcases eq_of_lt head chain below _ used with other | floor
    · cases other
    · exact floor

/-! A step so short that the solver stops at once, far from the solution. -/

section
variable {path : Path ℝ} {options : SolveOptions ℝ} {step : ℝ}

theorem UnitModel.trial_of_short (model : UnitModel path) (zero : path.solution = Mat.zero 1 1)
    (listed : path.candidates = [0]) (budget : 1 ≤ options.maxIterations)
    (first : options.initialStep = some step) (step_pos : 0 < step) (short : step ≤ 1 / 100)
    (loose : step ≤ options.tolerance) :
    ∃ trial, path.trial (1 / 2) options = .ok trial ∧ 0 ∈ trial.violators := by
  have solvedFirst : ((unitProblem (1 / 2)).solve (path.request options)).1 =
      .ok (Mat.ofFn 1 1 fun _ _ => step * (1 - 1 / 2)) :=
    unit_solve_step one_half_lt_one step_pos (by linarith) budget (by simp [request, first])
      (by change _ ≤ options.tolerance; linarith)
  obtain ⟨sub, solved, found⟩ := model.solve zero one_half_pos solvedFirst
  have tried : ∃ trial, path.trial (1 / 2) options = .ok trial :=
    ⟨_, Failure.bind_eq_ok.2 ⟨sub, by rwa [listed], rfl⟩⟩
  obtain ⟨trial, tried⟩ := tried
  have solution := (model.trial_solution listed solved (by rw [found]; rfl) tried).trans found
  obtain ⟨-, gradient, violators⟩ := trial_gradient model.wellFormed one_half_pos.le tried
  rw [solution, model.gradientOf] at gradient
  refine ⟨trial, tried, ?_⟩
  have row : (Mat.ofFn 1 1 fun _ _ => step * (1 - 1 / 2) - 1 : Mat ℝ).row 0 =
      [step * (1 - 1 / 2) - 1] := Mat.row_ofFn _ one_pos
  have norm : (Mat.ofFn 1 1 fun _ _ => step * (1 - 1 / 2) : Mat ℝ).rowNorm 0 = step * (1 - 1 / 2) := by
    rw [Mat.rowNorm_eq_norm_row, Mat.row_ofFn _ one_pos]
    simpa [norm_real] using Real.sqrt_mul_self (show 0 ≤ step * (1 - 1 / 2) by linarith)
  have inactive : ¬ Optimality.activeCutoff (Mat.ofFn 1 1 fun _ _ => step * (1 - 1 / 2))
      path.options.kktTolerance < (Mat.ofFn 1 1 fun _ _ => step * (1 - 1 / 2) : Mat ℝ).rowNorm 0 := by
    rw [Optimality.activeCutoff, model.kkt, norm, larger_real, not_lt]
    have atLeast := le_max_right
      (Scalar.sum (Mat.ofFn 1 1 fun _ _ => step * (1 - 1 / 2) : Mat ℝ).rowNorms) 1
    linarith
  have penalized : ¬ ((path.penalty.withLagrange (path.options.alpha * (1 / 2))).l1At 0 = 0 ∧
      (path.penalty.withLagrange (path.options.alpha * (1 / 2))).l2At 0 = 0) := by
    simp [model.penalty, unitPenalty, Penalty.withLagrange, Penalty.l1At]
  rw [violators, solution, mem_violators, ne_eq, Optimality.groupStatus_inactive penalized inactive,
    gradient, row, model.alpha, model.penalty, model.kkt]
  refine ⟨one_pos, ?_⟩
  change ¬ (Gauge.gauge [-(step * (1 - 1 / 2) - 1)] 1 0).toScalar < 1 * (1 / 2) * (1 + 1 / 100)
  rw [unit_gauge, abs_of_pos (by linarith), not_lt]
  linarith

end

def slowPath {α : Type} [Scalar α] (tolerance : α) : Path α :=
  unitPathWith { PathOptions.default with
    tolerance, initialStep := some (tolerance * 0.1), maxKktRetries := 1 }

section
variable {tolerance : ℝ} (positive : 0 < tolerance)

include positive

theorem slow_valid : (slowPath tolerance).options.Valid := by
  refine { PathOptions.valid_default with tolerance := positive, initialStep := ?_ }
  rintro step ⟨⟩
  exact mul_pos positive (by norm_num)

theorem build_slow : Path.build unitLoss unitDesign #[1] #[0] none (slowPath tolerance).options =
    .ok (slowPath tolerance) := build_unitWith (slow_valid positive) rfl

theorem slow_model : UnitModel (slowPath tolerance) := by
  refine ⟨(build_fresh (build_slow positive)).wellFormed, rfl, rfl, rfl, rfl, ?_⟩
  norm_num [slowPath, unitPathWith, withGradient, blank, PathOptions.default]

theorem slow_gradient : (slowPath tolerance).gradient = unitDescent :=
  (slow_model positive).fresh_gradient (build_fresh (build_slow positive)) rfl

theorem slow_candidates : ((slowPath tolerance).screen 1 (1 / 2)).candidates = [0] := by
  have selected : 0 ∈ ((slowPath tolerance).strongSet (1 * 1) (1 * (1 / 2))
      (slowPath tolerance).gradient).indices := by
    rw [strongSet, slow_gradient positive, Screening.mem_strongSet, unit_row]
    refine ⟨one_pos, ?_⟩
    have radius : Screening.threshold (1 * 1) (1 * (1 / 2)) (1 : ℝ) = 0 := by
      norm_num [Screening.threshold]
    change Gauge.inside [-1] (Screening.threshold (1 * 1) (1 * (1 / 2)) 1) 1 0 = false
    rw [radius, Bool.eq_false_iff, ne_eq, unit_inside, not_le]
    exact one_pos
  have aligned := build_aligned (build_slow positive)
  exact candidates_of_single rfl
    ((mem_candidates_mark aligned.length).2 (.inr ⟨selected, one_pos⟩))

theorem slow_visit :
    ⟨slowPath tolerance, 1, 1 / 2⟩ ∈ (slowPath tolerance).visits (some [1 / 2]) := by
  have visited := visits_of_single ((slowPath tolerance).sequence_single one_half_pos)
  rw [(slow_model positive).lagrangeMax (slow_gradient positive)] at visited
  rw [visited]
  exact List.mem_singleton_self _

theorem slow_tolerances (below : tolerance ≤ 1 / 10) :
    let tightened := max (tolerance / 10) minTolerance
    [.solved tolerance, .tightened tightened, .solved tightened] <+:
      tolerances (Visit.first ⟨slowPath tolerance, 1, 1 / 2⟩).events := by
  intro tightened
  let path := (slowPath tolerance).screen 1 (1 / 2)
  let options := (slowPath tolerance).options.solve
  have listed : path.candidates = [0] := slow_candidates positive
  have model : UnitModel path := (slow_model positive).sameModel ⟨rfl, rfl, rfl, rfl, rfl⟩
  have budget : 1 ≤ options.maxIterations := by
    change 1 ≤ 2000
    decide
  have tenth : options.tolerance * 0.1 = tolerance / 10 := by
    change tolerance * 0.1 = tolerance / 10
    norm_num [div_eq_mul_inv]
  obtain ⟨trial, tried, violated⟩ := model.trial_of_short rfl listed budget
    (congrArg some tenth) (by linarith) (by linarith) (by change tolerance / 10 ≤ tolerance; linarith)
  have aligned : path.Aligned := (build_aligned (build_slow positive)).apply (.mark _)
  have none : trial.newcomers.isEmpty := newcomers_isEmpty aligned tried fun group bound => by
    rw [model.groups, Nat.lt_one_iff] at bound
    rw [listed, bound]
    exact List.mem_singleton_self 0
  have failed : ¬ trial.violators.isEmpty := fun empty =>
    List.not_mem_nil (List.isEmpty_iff.1 empty ▸ violated)
  obtain ⟨logged, again⟩ := tolerances_tightened path (1 / 2) options none
  have next := (tolerances_rounds (1 / 2) 0 (path.respond (1 / 2) options trial).2
    (path.respond (1 / 2) options trial).1).1
  rw [again, larger_real, tenth] at next
  obtain ⟨later, rest⟩ := List.head?_eq_some_iff.1 next
  have rounds : (Visit.first ⟨slowPath tolerance, 1, 1 / 2⟩).events = .mark _ ::
      roundEvents (1 / 2) 1 options path := rfl
  rw [rounds, tolerances_mark, roundEvents_retried tried failed 0 _ rfl, tolerances_solve,
    tolerances_append, logged, larger_real, tenth, rest]
  exact ⟨later, rfl⟩

end

/-- From a tolerance above the floor the second round has a smaller one. -/
theorem attempt_descends_iff_slow :
    let path : Path ℝ := slowPath (1 / 10)
    let visit : Visit ℝ := ⟨path, 1, 1 / 2⟩
    Path.build unitLoss unitDesign #[1] #[0] none path.options = .ok path ∧
      visit ∈ path.visits (some [1 / 2]) ∧ visit.attempts[0]? = some visit.first ∧
      .tightened (1 / 100) ∈ tolerances visit.first.events ∧ Descends visit.first.events := by
  intro path visit
  have positive : (0 : ℝ) < 1 / 10 := by norm_num
  have made : visit.attempts[0]? = some visit.first := by
    unfold Visit.attempts attemptsMade
    rfl
  have floor : (minTolerance : ℝ) ≤ 1 / 100 := by norm_num [minTolerance]
  have tightened : max ((1 / 10 : ℝ) / 10) minTolerance = 1 / 100 := by
    rw [show (1 / 10 : ℝ) / 10 = 1 / 100 by norm_num, max_eq_left floor]
  have begins := slow_tolerances positive le_rfl
  simp only [tightened] at begins
  obtain ⟨-, -, -, descends, -⟩ := attempt_descends_iff visit made
  refine ⟨build_slow positive, slow_visit positive, made, begins.subset (by simp),
    descends.2 (.inl ?_)⟩
  rw [pow_zero, mul_one]
  change (minTolerance : ℝ) ≤ 1 / 10
  linarith

/-- From an accepted tolerance below the floor the second round has a larger one, which is logged as
tightened. -/
theorem attempt_loosens :
    let path : Path ℝ := slowPath (1 / 10 ^ 15)
    let visit : Visit ℝ := ⟨path, 1, 1 / 2⟩
    path.options.validate = .ok () ∧
      Path.build unitLoss unitDesign #[1] #[0] none path.options = .ok path ∧
      visit ∈ path.visits (some [1 / 2]) ∧ visit.first ∈ visit.attempts ∧
      [.solved (1 / 10 ^ 15), .tightened (1 / 10 ^ 14), .solved (1 / 10 ^ 14)] <+:
        tolerances visit.first.events ∧
      ¬ Descends visit.first.events := by
  intro path visit
  have positive : (0 : ℝ) < 1 / 10 ^ 15 := by norm_num
  have begins := slow_tolerances positive (by norm_num)
  have raised : max ((1 / 10 ^ 15 : ℝ) / 10) minTolerance = 1 / 10 ^ 14 := by
    norm_num [minTolerance]
  simp only [raised] at begins
  refine ⟨PathOptions.validate_eq_ok.2 (slow_valid positive), build_slow positive, slow_visit positive,
    visit.first_mem, begins, fun descends => ?_⟩
  have start := descends.prefix begins
  have smaller := (List.isChain_cons_cons.1 start).1
  norm_num [ToleranceUse.tolerance] at smaller

end Path

end GroupLasso
