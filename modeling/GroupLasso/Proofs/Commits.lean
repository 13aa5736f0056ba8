import GroupLasso.Proofs.Build
import GroupLasso.Proofs.Events
import GroupLasso.Proofs.Exact

/-!
Which values of a sequence a run commits. A value that converges is committed once, and nothing is
committed on the way to a failure; so a failed run leaves the fit that the values before the failure
have led to, and a longer run begins with the steps of a shorter one.
-/

namespace GroupLasso

open Scalar

def PathStep.commits {α : Type} (step : PathStep α) : List α :=
  if step.status = .converged then [step.lagrange] else []

namespace Path

variable {α : Type} [Scalar α]

def outcomeCommits : Except (Failure α) (PathStep α) → List α
  | .error _ => []
  | .ok step => step.commits

theorem commits_response (path : Path α) (lagrange : α) (options : SolveOptions α)
    (trial : Trial α) : commits (path.responseEvents lagrange options trial) = [] := by
  unfold responseEvents
  by_cases none : trial.newcomers.isEmpty <;> simp [none]

theorem commits_rounds (lagrange : α) (retries round : Nat) (options : SolveOptions α)
    (path : Path α) : commits (roundEvents lagrange retries options path) =
      outcomeCommits (rounds lagrange retries round options path).1 := by
  apply rounds_induction (motive := fun _ events result => commits events = outcomeCommits result.1)
  · intro path options failure
    rfl
  · intro path options round trial _ _
    rfl
  · intro path options trial events result _ _ later
    simpa [commits_response] using later

theorem commits_attempt (path : Path α) (current next : α) (options : SolveOptions α) :
    commits (path.attemptEvents current next options) =
      outcomeCommits (path.attempt current next options).1 :=
  commits_rounds next _ 1 options (path.screen current next)

theorem Tries.committed {current next : α} {relaxations : Nat} {options : SolveOptions α}
    {path : Path α} {attempts : List (Attempt α)} {events : List (Event α)}
    {result : Except (Failure α) (PathStep α) × Path α}
    (tries : Tries current next relaxations options path attempts events result) :
    commits events = outcomeCommits result.1 := by
  induction tries with
  | ended relaxations options path => exact commits_attempt path current next options
  | @skipped _ _ options path middle attempted _ =>
      rw [commits_append, commits_attempt, attempted]
      rfl
  | @relaxed _ _ options path middle _ _ _ attempted _ _ later =>
      rw [commits_append, commits_attempt, attempted]
      exact later

theorem commits_value (path : Path α) (current next : α) :
    commits (path.valueEvents current next) = outcomeCommits (path.fitValue current next).1 :=
  (tries current next _ _ path).committed

theorem fitValue_sameFit {path reached : Path α} {current next : α} {failure : Failure α}
    (positive : IsFinitePos next) (failed : path.fitValue current next = (.error failure, reached)) :
    SameFit path reached := by
  have trace := fitValue_trace positive path current
  have uncommitted : commits (path.valueEvents current next) = [] := by
    rw [commits_value, failed]
    rfl
  rw [failed] at trace
  exact trace.sameFit uncommitted

def nextCurrent (current next : α) (step : PathStep α) : α :=
  if step.status = .converged then next else current

/-- The number of values that a run works through, up to the one at which it fails. -/
def finished : α → List α → Path α → Nat
  | _, [], _ => 0
  | current, next :: rest, path =>
      match path.fitValue current next with
      | (.error _, _) => 0
      | (.ok step, path) => finished (nextCurrent current next step) rest path + 1

section
variable {path middle reached : Path α} {current next : α} {values rest : List α}
  {failure : Failure α} {step : PathStep α} {steps : List (PathStep α)}

theorem fitValues_cons : fitValues current (next :: rest) path =
    match path.fitValue current next with
    | (.error failure, path) => (.error failure, path)
    | (.ok step, path) =>
        match fitValues (nextCurrent current next step) rest path with
        | (.error failure, path) => (.error failure, path)
        | (.ok steps, path) => (.ok (step :: steps), path) := by
  rw [fitValues]
  rfl

theorem fitValues_cons_ok : fitValues current (next :: rest) path = (.ok steps, reached) ↔
    ∃ step middle later, path.fitValue current next = (.ok step, middle) ∧
      fitValues (nextCurrent current next step) rest middle = (.ok later, reached) ∧
      steps = step :: later := by
  rw [fitValues_cons]
  constructor
  · intro run
    split at run
    · cases run
    · rename_i step middle outcome
      split at run
      · cases run
      · rename_i later last remaining
        cases run
        exact ⟨step, middle, later, outcome, remaining, rfl⟩
  · rintro ⟨step, middle, later, outcome, remaining, rfl⟩
    rw [outcome]
    simp only [remaining]

theorem fitValues_cons_error : fitValues current (next :: rest) path = (.error failure, reached) ↔
    path.fitValue current next = (.error failure, reached) ∨
      ∃ step middle, path.fitValue current next = (.ok step, middle) ∧
        fitValues (nextCurrent current next step) rest middle = (.error failure, reached) := by
  rw [fitValues_cons]
  constructor
  · intro run
    split at run
    · rename_i failure middle outcome
      cases run
      exact .inl outcome
    · rename_i step middle outcome
      split at run
      · rename_i failure last remaining
        cases run
        exact .inr ⟨step, middle, outcome, remaining⟩
      · cases run
  · rintro (outcome | ⟨step, middle, outcome, remaining⟩)
    · rw [outcome]
    · rw [outcome]
      simp only [remaining]

theorem commits_values (run : fitValues current values path = (.ok steps, reached)) :
    commits (valuesEvents current values path) = steps.flatMap PathStep.commits := by
  induction values generalizing path current steps with
  | nil =>
      cases run
      rfl
  | cons next rest ih =>
      obtain ⟨step, middle, later, outcome, remaining, rfl⟩ := fitValues_cons_ok.1 run
      have first : commits (path.valueEvents current next) = step.commits := by
        rw [commits_value, outcome]
        rfl
      unfold valuesEvents
      simp only [outcome]
      rw [commits_append, first, List.flatMap_cons]
      exact congrArg _ (ih remaining)

theorem finished_of_error (outcome : path.fitValue current next = (.error failure, reached)) :
    finished current (next :: rest) path = 0 := by
  rw [finished, outcome]

theorem finished_of_ok (outcome : path.fitValue current next = (.ok step, middle)) :
    finished current (next :: rest) path =
      finished (nextCurrent current next step) rest middle + 1 := by
  rw [finished, outcome]

theorem fitValues_take (run : fitValues current values path = (.ok steps, reached)) (count : Nat) :
    ∃ middle, fitValues current (values.take count) path = (.ok (steps.take count), middle) := by
  induction values generalizing path current steps count with
  | nil =>
      cases run
      exact ⟨reached, by rw [List.take_nil, List.take_nil]; rfl⟩
  | cons next rest ih =>
      cases count with
      | zero => exact ⟨path, rfl⟩
      | succ count =>
          obtain ⟨step, middle, later, outcome, remaining, rfl⟩ := fitValues_cons_ok.1 run
          obtain ⟨last, shorter⟩ := ih remaining count
          exact ⟨last, fitValues_cons_ok.2 ⟨step, middle, later.take count, outcome, shorter, rfl⟩⟩

theorem fitValues_failed (positive : ∀ lagrange ∈ values, IsFinitePos lagrange)
    (run : fitValues current values path = (.error failure, reached)) :
    finished current values path < values.length ∧
      fitValues current (values.take (finished current values path + 1)) path =
        (.error failure, reached) ∧
      ∃ steps middle,
        fitValues current (values.take (finished current values path)) path = (.ok steps, middle) ∧
        steps.length = finished current values path ∧ SameFit middle reached := by
  induction values generalizing path current with
  | nil => cases run
  | cons next rest ih =>
      obtain ⟨first, later⟩ := List.forall_mem_cons.1 positive
      rcases fitValues_cons_error.1 run with outcome | ⟨step, middle, outcome, remaining⟩
      · rw [finished_of_error outcome]
        exact ⟨Nat.succ_pos _, fitValues_cons_error.2 (.inl outcome), [], path, rfl, rfl,
          fitValue_sameFit first outcome⟩
      · obtain ⟨bound, again, steps, before, shorter, length, same⟩ := ih later remaining
        rw [finished_of_ok outcome]
        refine ⟨Nat.succ_lt_succ bound, ?_, step :: steps, before, ?_, ?_, same⟩
        · exact fitValues_cons_error.2 (.inr ⟨step, middle, outcome, again⟩)
        · exact fitValues_cons_ok.2 ⟨step, middle, steps, outcome, shorter, rfl⟩
        · rw [List.length_cons, length]

end

section
variable (path : Path α) (sequence : List α)

theorem fit_of_invalid {failure : Failure α} (refused : Grid.validate sequence = .error failure) :
    path.fit (some sequence) = (.error failure, path) := by
  rw [fit, sequence_some, refused]
  rfl

theorem fit_of_valid (valid : Grid.validate sequence = .ok ()) : path.fit (some sequence) =
    match fitValues path.lagrangeMax sequence path with
    | (.error failure, path) => (.error failure, path)
    | (.ok steps, reached) => (.ok ⟨path.lagrangeMax, steps, reached.log.entries⟩, reached) := by
  rw [fit, sequence_some, valid]
  rfl

theorem fit_eq_error {failure : Failure α} {reached : Path α}
    (valid : Grid.validate sequence = .ok ()) : path.fit (some sequence) = (.error failure, reached) ↔
      fitValues path.lagrangeMax sequence path = (.error failure, reached) := by
  rw [fit_of_valid path sequence valid]
  cases fitValues path.lagrangeMax sequence path with
  | mk outcome last => cases outcome <;> simp

theorem fit_eq_ok {steps : List (PathStep α)} {reached : Path α}
    (valid : Grid.validate sequence = .ok ())
    (run : fitValues path.lagrangeMax sequence path = (.ok steps, reached)) :
    path.fit (some sequence) =
      (.ok ⟨path.lagrangeMax, steps, reached.log.entries⟩, reached) := by
  rw [fit_of_valid path sequence valid, run]

omit [Scalar α] in
theorem fit_of_value {path reached : Path ℝ} {lagrange : ℝ} {step : PathStep ℝ} (positive : 0 < lagrange)
    (valued : path.fitValue path.lagrangeMax lagrange = (.ok step, reached)) :
    path.fit (some [lagrange]) = (.ok ⟨path.lagrangeMax, [step], reached.log.entries⟩, reached) :=
  fit_eq_ok path [lagrange] (Grid.validate_single positive)
    (fitValues_cons_ok.2 ⟨step, reached, [], valued, rfl, rfl⟩)

theorem fitValues_of_fit {result : PathResult α} {reached : Path α}
    (run : path.fit (some sequence) = (.ok result, reached)) :
    Grid.validate sequence = .ok () ∧
      fitValues path.lagrangeMax sequence path = (.ok result.steps, reached) := by
  cases valid : Grid.validate sequence with
  | error failure =>
      rw [fit_of_invalid path sequence valid] at run
      cases run
  | ok done =>
      rw [fit_of_valid path sequence valid] at run
      refine ⟨rfl, ?_⟩
      split at run
      · cases run
      · rename_i steps last outcome
        cases run
        exact outcome

theorem commits_fit {result : PathResult α} {reached : Path α}
    (run : path.fit (some sequence) = (.ok result, reached)) :
    commits (path.fitEvents (some sequence)) = result.steps.flatMap PathStep.commits := by
  obtain ⟨valid, values⟩ := fitValues_of_fit path sequence run
  rw [fitEvents, sequence_some, valid]
  exact commits_values values

/-- A sequence that is refused leaves the path alone. A run that fails has worked through the values
before the one at which it fails: it leaves the fit that a run over these alone leaves, on the same
model, and has only added groups and log entries. A run that succeeds begins with the steps of every
shorter run. -/
theorem fit_prefix :
    (∀ failure, Grid.validate sequence = .error failure →
      path.fit (some sequence) = (.error failure, path)) ∧
    (∀ failure reached, Grid.validate sequence = .ok () →
      path.fit (some sequence) = (.error failure, reached) →
      let position := finished path.lagrangeMax sequence path
      let before := path.fit (some (sequence.take position))
      position < sequence.length ∧
        path.fit (some (sequence.take (position + 1))) = (.error failure, reached) ∧
        (0 < position → ∃ result, before.1 = .ok result ∧ result.steps.length = position) ∧
        (position = 0 → before.2 = path) ∧ SameFit before.2 reached ∧ SameModel path reached ∧
        (∀ group, path.everActiveMask.contains group = true →
          reached.everActiveMask.contains group = true) ∧
        path.log.entries <+: reached.log.entries) ∧
    ∀ result reached, path.fit (some sequence) = (.ok result, reached) → ∀ count, 0 < count →
      ∃ shorter, (path.fit (some (sequence.take count))).1 = .ok shorter ∧
        shorter.steps = result.steps.take count := by
  refine ⟨fun failure => fit_of_invalid path sequence, ?_, ?_⟩
  · intro failure reached valid run position before
    have trace := fit_trace path (some sequence)
    rw [run] at trace
    obtain ⟨-, positive, -⟩ := Grid.validate_eq_ok.1 valid
    obtain ⟨bound, again, steps, middle, shorter, length, same⟩ :=
      fitValues_failed positive ((fit_eq_error path sequence valid).1 run)
    have nothing : position = 0 → before.2 = path := by
      intro none
      have refused : Grid.validate (sequence.take position) = .error (.invalidSequence .empty) := by
        rw [none]
        rfl
      exact congrArg Prod.snd (fit_of_invalid path _ refused)
    have something : 0 < position → before =
        (.ok ⟨path.lagrangeMax, steps, middle.log.entries⟩, middle) :=
      fun some => fit_eq_ok path _ (Grid.validate_take valid some) shorter
    have fitted : SameFit before.2 reached := by
      rcases Nat.eq_zero_or_pos position with none | some
      · rw [show finished path.lagrangeMax sequence path = 0 from none] at shorter
        cases shorter
        rw [nothing none]
        exact same
      · rw [something some]
        exact same
    refine ⟨bound, ?_, ?_, nothing, fitted, trace.sameModel, ?_, ?_⟩
    · exact (fit_eq_error path _ (Grid.validate_take valid (Nat.succ_pos _))).2 again
    · intro some
      exact ⟨_, congrArg Prod.fst (something some), length⟩
    · intro group active
      exact (trace.everActive.2 group).2 (.inl active)
    · rw [trace.log]
      exact List.prefix_append _ _
  · intro result reached run count positive
    obtain ⟨valid, values⟩ := fitValues_of_fit path sequence run
    obtain ⟨middle, shorter⟩ := fitValues_take values count
    rw [fit_eq_ok path _ (Grid.validate_take valid positive) shorter]
    exact ⟨_, rfl, rfl⟩

end

/-! One case with response one and one coefficient. -/

theorem Fresh.listed_iff {start path : Path ℝ} {events : List (Event ℝ)} {group : Nat}
    (fresh : Fresh start) (trace : Trace start events path) : group ∈ path.candidates ↔
      (group < start.groups ∧ ∃ groups, .mark groups ∈ events ∧ group ∈ groups) ∨
        group ∈ start.penalty.unpenalized := by
  obtain ⟨kept, members⟩ := trace.everActive
  have length : start.everActiveMask.length = start.groups := by
    rw [everActiveMask, fresh.unmarked]
    exact Mask.length_empty _
  have unmarked : start.everActiveMask.contains group = false := by
    rw [everActiveMask, fresh.unmarked]
    exact Mask.contains_empty _ group
  have groups : path.groups = start.groups := congrArg Penalty.groups trace.sameModel.penalty
  rw [mem_candidates (kept.trans (length.trans groups.symm)), members, unmarked, length,
    trace.sameModel.penalty]
  simp

section
variable {α : Type} [Scalar α]

def unitLoss : Loss α := .gaussian (.ofResponse (.ofFn 1 1 fun _ _ => 1))

def unitDesign : Design α := .dense (.ofFn 1 1 fun _ _ => 1) 1

def unitPenalty : Penalty α := ⟨⟨1, 1⟩, #[1], #[0], 1⟩

def unitPathWith (options : PathOptions α) : Path α :=
  let penalty : Penalty α := unitPenalty
  (blank unitLoss unitDesign penalty
    (.ofFn 1 1 fun group _ => if penalty.isUnpenalized group then 0 else 1) options).withGradient 1

/-- Screening with the least slope selects nothing that is zero, and the tolerance lets the solver stop
after one pass. -/
def unitPath (retries : Nat) : Path α :=
  unitPathWith { PathOptions.default with slope := -1, tolerance := 1, maxKktRetries := retries }

end

theorem unit_penalized : (unitPenalty : Penalty ℝ).unpenalized = [] := by
  simp [unitPenalty, Penalty.unpenalized, Penalty.groups, Penalty.isUnpenalized, Penalty.l1At, IsZero]

theorem unit_accepted :
    Penalty.ofWeights ⟨1, 1⟩ #[1] #[0] 1 = .ok (unitPenalty : Penalty ℝ) := by
  have weights : (unitPenalty : Penalty ℝ).Valid :=
    Penalty.valid_iff.2 (by simp [unitPenalty, Penalty.groups])
  exact Penalty.ofWeights_eq_ok.2 ⟨rfl, weights⟩

theorem build_unitOf {loss : Loss ℝ} {options : PathOptions ℝ} (outputs : loss.shape = ⟨1, 1⟩)
    (valid : options.Valid) (unmixed : options.l1Share = none) :
    Path.build loss unitDesign #[1] #[0] none options =
      .ok ((blank loss unitDesign unitPenalty
        (.ofFn 1 1 fun group _ => if (unitPenalty : Penalty ℝ).isUnpenalized group then 0 else 1)
        options).withGradient 1) :=
  build_penalized (PathOptions.validate_eq_ok.2 valid) unmixed outputs unit_accepted unit_penalized

theorem build_unitWith {options : PathOptions ℝ} (valid : options.Valid)
    (unmixed : options.l1Share = none) :
    Path.build unitLoss unitDesign #[1] #[0] none options = .ok (unitPathWith options) :=
  build_unitOf rfl valid unmixed

theorem build_unit (retries : Nat) :
    Path.build unitLoss unitDesign #[1] #[0] none (unitPath retries : Path ℝ).options =
      .ok (unitPath retries) := by
  have valid : (unitPath retries : Path ℝ).options.Valid :=
    { PathOptions.valid_default with slope := ⟨rfl, le_rfl⟩, tolerance := one_pos }
  exact build_unitWith valid rfl

theorem unit_ext {coef other : Mat ℝ} (shape : coef.shape = ⟨1, 1⟩) (otherShape : other.shape = ⟨1, 1⟩)
    (entry : coef.get 0 0 = other.get 0 0) : coef = other := by
  have rows : coef.rows = 1 := Mat.rows_eq shape
  have cols : coef.cols = 1 := Mat.cols_eq shape
  refine Mat.ext_get (rows.trans (Mat.rows_eq otherShape).symm)
    (cols.trans (Mat.cols_eq otherShape).symm) ?_
  intro row rowBound col colBound
  obtain rfl : row = 0 := by omega
  obtain rfl : col = 0 := by omega
  exact entry

/-- A path on this model without a ridge term, whatever its other settings and its state are. -/
structure UnitModel (path : Path ℝ) : Prop where
  wellFormed : path.WellFormed
  loss : path.loss = unitLoss
  design : path.design = unitDesign
  penalty : path.penalty = unitPenalty
  alpha : path.options.alpha = 1
  kkt : path.options.kktTolerance = 1 / 100

def unitDescent {α : Type} [Scalar α] : Mat α := .ofFn 1 1 fun _ _ => -1

theorem unit_row : (unitDescent : Mat ℝ).row 0 = [-1] := by
  simp [unitDescent, Mat.row, Mat.get_ofFn]

theorem unit_gauge (entry : ℝ) : (Gauge.gauge [entry] 1 0).toScalar = |entry| := by
  by_cases zero : entry = 0 <;> simp [Gauge.gauge, Gauge.magnitudes, zero, Radius.toScalar]

theorem unit_inside (radius : ℝ) : Gauge.inside [-1] radius 1 0 = true ↔ 1 ≤ radius := by
  have gauge : Gauge.gauge [(-1 : ℝ)] 1 0 = .finite 1 := by
    simp [Gauge.gauge, Gauge.magnitudes]
  rw [Gauge.inside, gauge]
  exact decide_eq_true_iff

theorem unit_dualNorm (entry : ℝ) :
    (unitPenalty : Penalty ℝ).dualNorm (Mat.ofFn 1 1 fun _ _ => entry) = |entry| := by
  have listed : (List.range 1).filter (fun group => !(unitPenalty : Penalty ℝ).isUnpenalized group) =
      [0] := by simp [unitPenalty, Penalty.isUnpenalized, Penalty.l1At, IsZero]
  have row : (Mat.ofFn 1 1 fun _ _ => entry : Mat ℝ).row 0 = [entry] := by
    simp [Mat.row, Mat.get_ofFn]
  have found : (unitPenalty : Penalty ℝ).gauge (Mat.ofFn 1 1 fun _ _ => entry) 0 = |entry| := by
    rw [Penalty.gauge, row]
    exact unit_gauge entry
  rw [Penalty.dualNorm, show (unitPenalty : Penalty ℝ).groups = 1 from rfl, listed]
  simp [found]

section
variable {start path : Path ℝ} {events : List (Event ℝ)} {lagrange : ℝ}

section
variable (model : UnitModel path)

include model

theorem UnitModel.sameModel {reached : Path ℝ} (same : SameModel path reached) : UnitModel reached :=
  ⟨same.wellFormed model.wellFormed, same.loss.trans model.loss, same.design.trans model.design,
    same.penalty.trans model.penalty, (congrArg PathOptions.alpha same.options).trans model.alpha,
    (congrArg PathOptions.kktTolerance same.options).trans model.kkt⟩

theorem UnitModel.groups : path.groups = 1 := congrArg Penalty.groups model.penalty

theorem UnitModel.shape : path.shape = ⟨1, 1⟩ := congrArg Penalty.shape model.penalty

theorem UnitModel.kkt_pos : 0 < path.options.kktTolerance := by
  rw [model.kkt]
  norm_num

theorem UnitModel.gradientOf (entry : ℝ) :
    (path.fullGradient (path.design.dot (Mat.ofFn 1 1 fun _ _ => entry))).add
      (path.ridgeGradient (Mat.ofFn 1 1 fun _ _ => entry) lagrange) =
        Mat.ofFn 1 1 fun _ _ => entry - 1 := by
  rw [ridgeGradient, if_pos model.alpha.ge, Mat.add_zero_entries, fullGradient, model.loss, model.design]
  refine unit_ext rfl rfl ?_
  simp [unitLoss, unitDesign, Design.adjoint, Design.dot, Mat.mul, Mat.transposeMul,
    Loss.gradient, Gaussian.gradient, Gaussian.ofResponse, CaseWeights.unit, Mat.get_ofFn]

theorem UnitModel.gradientAt :
    (path.fullGradient (path.design.dot (Mat.zero 1 1))).add
      (path.ridgeGradient (Mat.zero 1 1) lagrange) = unitDescent := by
  refine (model.gradientOf 0).trans ?_
  rw [zero_sub]
  rfl

theorem UnitModel.fresh_gradient (fresh : Fresh path) (zero : path.solution = Mat.zero 1 1) :
    path.gradient = unitDescent := by
  rw [fresh.gradient, fresh.predictor, zero]
  exact model.gradientAt

theorem UnitModel.lagrangeMax (gradient : path.gradient = unitDescent) : path.lagrangeMax = 1 := by
  have norm : (unitPenalty : Penalty ℝ).dualNorm unitDescent = |-1| := unit_dualNorm (-1)
  rw [Path.lagrangeMax, model.penalty, gradient, norm, model.alpha, abs_neg, abs_one, div_one]

theorem UnitModel.screen (slope : path.options.slope = -1) (gradient : path.gradient = unitDescent)
    {current : ℝ} (above : 1 ≤ current) (next : ℝ) :
    path.screen current next = path.markEverActive [] := by
  have none : (path.strongSet (path.options.alpha * current) (path.options.alpha * next)
      path.gradient).indices = [] := by
    rw [List.eq_nil_iff_forall_not_mem, strongSet, model.alpha, slope, model.penalty, gradient]
    intro group member
    obtain ⟨bound, outside⟩ := Screening.mem_strongSet.1 member
    obtain rfl : group = 0 := Nat.lt_one_iff.1 bound
    have inside : Gauge.inside [-1] (Screening.threshold (1 * current) (1 * next) (-1)) 1 0 = true := by
      rw [unit_inside]
      simpa [Screening.threshold] using above
    rw [unit_row] at outside
    exact Bool.false_ne_true (outside.symm.trans inside)
  exact congrArg path.markEverActive none

end

theorem UnitModel.listed_iff (model : UnitModel start) (fresh : Fresh start)
    (trace : Trace start events path) {group : Nat} : group ∈ path.candidates ↔
      group = 0 ∧ ∃ groups, .mark groups ∈ events ∧ group ∈ groups := by
  rw [fresh.listed_iff trace, model.groups, model.penalty, unit_penalized, Nat.lt_one_iff]
  exact or_iff_left List.not_mem_nil

theorem UnitModel.unmarked (model : UnitModel start) (fresh : Fresh start)
    (trace : Trace start events path) (unmarked : ∀ groups, .mark groups ∈ events → groups = []) :
    path.candidates = [] := by
  rw [List.eq_nil_iff_forall_not_mem]
  intro group listed
  obtain ⟨-, groups, mark, member⟩ := (model.listed_iff fresh trace).1 listed
  rw [unmarked groups mark] at member
  cases member

section
variable (model : UnitModel path) (none : path.candidates = []) (positive : 0 < lagrange)

include model none positive

theorem UnitModel.trial_zero {options : SolveOptions ℝ} {trial : Trial ℝ}
    (tried : path.trial lagrange options = .ok trial) :
    trial.solution = Mat.zero 1 1 ∧ trial.gradient = unitDescent := by
  obtain ⟨trialShape, gradient, -⟩ := trial_gradient model.wellFormed positive.le tried
  have zero : trial.solution = Mat.zero 1 1 := by
    refine unit_ext (trialShape.trans model.shape) rfl ?_
    rw [trial_unlisted tried (none ▸ List.not_mem_nil), Mat.get_zero]
  refine ⟨zero, ?_⟩
  rw [gradient, zero]
  exact model.gradientAt

theorem UnitModel.missed {options : SolveOptions ℝ} {trial : Trial ℝ}
    (tried : path.trial lagrange options = .ok trial) :
    0 ∈ trial.violators ↔ lagrange ≤ 100 / 101 := by
  obtain ⟨zero, gradient⟩ := model.trial_zero none positive tried
  obtain ⟨-, -, violators⟩ := trial_gradient model.wellFormed positive.le tried
  have empty : (Mat.zero 1 1 : Mat ℝ).rowNorm 0 = 0 := by simp [Mat.rowNorm]
  have penalized : ¬ ((path.penalty.withLagrange (path.options.alpha * lagrange)).l1At 0 = 0 ∧
      (path.penalty.withLagrange (path.options.alpha * lagrange)).l2At 0 = 0) := by
    simp [model.penalty, unitPenalty, Penalty.withLagrange, Penalty.l1At]
  have inactive : ¬ Optimality.activeCutoff (Mat.zero 1 1) path.options.kktTolerance <
      (Mat.zero 1 1 : Mat ℝ).rowNorm 0 := by
    rw [empty]
    exact (Optimality.activeCutoff_pos model.kkt_pos).not_gt
  have radius : (Gauge.gauge ([(-1 : ℝ)].map (- ·)) 1 0).toScalar = 1 := by
    rw [List.map_singleton, neg_neg, unit_gauge, abs_one]
  have margin : lagrange * (1 + 1 / 100) ≤ 1 ↔ lagrange ≤ 100 / 101 := by
    constructor <;> intro below <;> linarith
  rw [violators, zero, mem_violators, ne_eq, Optimality.groupStatus_inactive penalized inactive,
    gradient, unit_row, model.alpha, one_mul, model.penalty, model.kkt, not_lt, ← margin]
  exact (and_iff_right one_pos).trans (Iff.of_eq (congrArg _ radius))

theorem UnitModel.round (options : SolveOptions ℝ) :
    ∃ trial, path.trial lagrange options = .ok trial ∧ trial.gradient = unitDescent ∧
      (trial.violators.isEmpty ↔ 100 / 101 < lagrange) := by
  obtain ⟨trial, tried, -, outside⟩ := trial_of_exact model.wellFormed model.kkt_pos positive
    (solvesExactly_of_no_candidates model.wellFormed positive.le none options)
  refine ⟨trial, tried, (model.trial_zero none positive tried).2, ?_⟩
  rw [← not_le, ← model.missed none positive tried, List.isEmpty_iff,
    List.eq_nil_iff_forall_not_mem]
  constructor
  · intro passed
    exact passed 0
  · intro absent group member
    obtain ⟨bound, -⟩ := outside group member
    rw [model.groups, Nat.lt_one_iff] at bound
    exact absent (bound ▸ member)

end

end

section
variable (retries : Nat)

theorem unit_fresh : Fresh (unitPath retries : Path ℝ) := build_fresh (build_unit retries)

theorem unit_model : UnitModel (unitPath retries : Path ℝ) := by
  refine ⟨(unit_fresh retries).wellFormed, rfl, rfl, rfl, rfl, ?_⟩
  norm_num [unitPath, unitPathWith, withGradient, blank, PathOptions.default]

theorem unit_start_gradient : (unitPath retries : Path ℝ).gradient = unitDescent :=
  (unit_model retries).fresh_gradient (unit_fresh retries) rfl

theorem unit_lagrangeMax : (unitPath retries : Path ℝ).lagrangeMax = 1 :=
  (unit_model retries).lagrangeMax (unit_start_gradient retries)

end

theorem fit_prefix_unit :
    let path : Path ℝ := unitPath 0
    Grid.validate [(2 : ℝ), 1 / 2] = .ok () ∧ ∃ failure reached,
      path.fit (some [2, 1 / 2]) = (.error failure, reached) ∧
      finished path.lagrangeMax [2, 1 / 2] path = 1 ∧
      (∃ result, (path.fit (some [2])).1 = .ok result ∧ result.steps.length = 1) ∧
      SameFit (path.fit (some [2])).2 reached ∧ SameModel path reached := by
  intro path
  have fresh : Fresh path := unit_fresh 0
  have model : UnitModel path := unit_model 0
  have above : 1 ≤ path.lagrangeMax := (unit_lagrangeMax 0).ge
  let marked := path.markEverActive []
  have trace : Trace path [.mark []] marked := .single (.mark [])
  have screened : path.screen path.lagrangeMax 2 = marked :=
    model.screen rfl (unit_start_gradient 0) above 2
  obtain ⟨trial, tried, gradient, passes⟩ := (model.sameModel trace.sameModel).round
    (model.unmarked fresh trace (by simp)) two_pos path.options.solve
  have passed : trial.violators.isEmpty := passes.2 (by norm_num)
  let middle := marked.commit trial
  have first : path.fitValue path.lagrangeMax 2 = (.ok (marked.certifiedStep 2 1 trial), middle) := by
    rw [fitValue_of_trial (screened ▸ tried) passed, screened]
  have committed : Trace path [.mark [], .commit 2 trial] middle :=
    trace.append (.single (.commit ⟨rfl, two_pos⟩ tried passed))
  let last := middle.markEverActive []
  have remarked : Trace path [.mark [], .commit 2 trial, .mark []] last :=
    committed.append (.single (.mark []))
  have rescreened : middle.screen 2 (1 / 2) = last :=
    (model.sameModel committed.sameModel).screen rfl gradient one_le_two (1 / 2)
  obtain ⟨missing, retried, -, clean⟩ := (model.sameModel remarked.sameModel).round
    (model.unmarked fresh remarked (by simp)) one_half_pos middle.options.solve
  have failed : ¬ missing.violators.isEmpty := by
    rw [clean]
    norm_num
  have second : middle.fitValue 2 (1 / 2) = (.error (.kktRetriesExceeded (1 / 2) 0), last) := by
    rw [fitValue_of_violators rfl (rescreened ▸ retried) failed, rescreened]
  have valid : Grid.validate [(2 : ℝ), 1 / 2] = .ok () := by
    refine Grid.validate_eq_ok.2 ⟨List.cons_ne_nil _ _, ?_, ?_⟩ <;> norm_num
  have run : path.fit (some [2, 1 / 2]) = (.error (.kktRetriesExceeded (1 / 2) 0), last) := by
    rw [fit_eq_error path _ valid]
    exact fitValues_cons_error.2 (.inr ⟨_, _, first, fitValues_cons_error.2 (.inl second)⟩)
  have position : finished path.lagrangeMax [2, 1 / 2] path = 1 := by
    rw [finished_of_ok first]
    exact congrArg (· + 1) (finished_of_error second)
  obtain ⟨-, failing, -⟩ := fit_prefix path [2, 1 / 2]
  obtain ⟨-, -, finishes, -, fit, same, -⟩ := failing _ _ valid run
  rw [position] at finishes fit
  exact ⟨valid, _, _, run, position, finishes one_pos, fit, same⟩

end Path

end GroupLasso
