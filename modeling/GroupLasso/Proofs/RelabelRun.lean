import GroupLasso.Proofs.Commits
import GroupLasso.Proofs.Relabel

/-!
Runs under other labels for the groups. The restricted problems of a relabelled path are those of the
path with their candidates in another order, so that rounds, attempts and runs take the same course, and
end with the same results, relabelled.
-/

namespace GroupLasso

open Scalar

section
variable {α : Type} [Scalar α]

def Subsolution.relabel (order places : List Nat) (sub : Subsolution α) : Subsolution α :=
  { sub with
    solution := sub.solution.selectRows places
    gradient := sub.gradient.selectRows places
    candidates := sub.candidates.relabel order }

def Trial.relabel (order places : List Nat) (trial : Trial α) : Trial α where
  sub := trial.sub.relabel order places
  solution := trial.solution.selectRows order
  gradient := trial.gradient.selectRows order
  violators := relabelled order trial.violators

def PathStep.relabel (order : List Nat) (step : PathStep α) : PathStep α :=
  { step with
    solution := step.solution.selectRows order
    active := relabelled order step.active }

def PathResult.relabel (order : List Nat) (result : PathResult α) : PathResult α :=
  { result with steps := result.steps.map (·.relabel order) }

end

namespace Path

section
variable {path : Path ℝ} {order groups : List Nat} {coef : Mat ℝ} {lagrange : ℝ}
  (permutes : order.Perm (List.range path.groups)) (distinct : groups.Nodup)
  (inRange : ∀ group ∈ groups, group < path.groups)

theorem relabelled_inRange (path : Path ℝ) (order groups : List Nat) :
    ∀ label ∈ relabelled order groups, label < (path.relabel order).groups :=
  fun _ member => (mem_relabelled.1 member).1

theorem shape_embed (path : Path ℝ) (groups : List Nat) (coef : Mat ℝ) :
    (path.embed groups coef).shape = path.shape := by
  simp [embed, Mat.shape]

include distinct inRange in
theorem embed_relabel (shape : coef.shape = ⟨groups.length, path.shape.cols⟩) :
    (path.relabel order).embed (relabelled order groups) (coef.selectRows (placement order groups)) =
      (path.embed groups coef).selectRows order :=
  (Mat.selectRows_embedded order distinct inRange shape).symm

include permutes distinct inRange in
theorem value_relabel (wellFormed : path.WellFormed) (lagrange : ℝ)
    (shape : coef.shape = ⟨groups.length, path.shape.cols⟩) :
    ((path.relabel order).smoothOver (relabelled order groups) lagrange).value
        (coef.selectRows (placement order groups)) = (path.smoothOver groups lagrange).value coef := by
  have width : coef.cols = path.shape.cols := by rw [Mat.cols_eq shape]
  have otherWidth : (coef.selectRows (placement order groups)).cols = (path.relabel order).shape.cols :=
    width
  let full := path.embed groups coef
  -- Over the listed groups alone the ridge sums have no common order; over all groups they do.
  have ridge : ∑ label ∈ Finset.range order.length, ∑ col ∈ Finset.range path.shape.cols,
      ((path.relabel order).ridgeDiag lagrange).get label col *
        (full.selectRows order).get label col ^ 2 =
        ∑ group ∈ Finset.range path.shape.rows, ∑ col ∈ Finset.range path.shape.cols,
          (path.ridgeDiag lagrange).get group col * full.get group col ^ 2 := by
    have positions : order.Perm (List.range path.shape.rows) := permutes
    rw [← Mat.sum_order positions, ridgeDiag_relabel permutes wellFormed]
    refine Finset.sum_congr rfl fun label member => Finset.sum_congr rfl fun col _ => ?_
    have bound : label < order.length := Finset.mem_range.1 member
    rw [Mat.get_selectRows _ bound, Mat.get_selectRows _ bound]
  rw [value_smoothOver (relabel_wellFormed wellFormed order) (relabelled_nodup order groups)
      (relabelled_inRange path order groups) otherWidth,
    value_smoothOver wellFormed distinct inRange width, embed_relabel distinct inRange shape,
    dot_relabel permutes (shape_embed path groups coef)]
  change path.loss.value _ + (if path.options.alpha < 1 then 1 / 2 *
    ∑ label ∈ Finset.range order.length, ∑ col ∈ Finset.range path.shape.cols,
      ((path.relabel order).ridgeDiag lagrange).get label col *
        (full.selectRows order).get label col ^ 2 else 0) = _
  rw [ridge]

include permutes distinct inRange in
theorem gradientOver_relabel (wellFormed : path.WellFormed) (lagrange : ℝ)
    (shape : coef.shape = ⟨groups.length, path.shape.cols⟩) :
    ((path.relabel order).smoothOver (relabelled order groups) lagrange).gradient
        (coef.selectRows (placement order groups)) =
      ((path.smoothOver groups lagrange).gradient coef).selectRows (placement order groups) := by
  have width : coef.cols = path.shape.cols := by rw [Mat.cols_eq shape]
  have otherWidth : (coef.selectRows (placement order groups)).cols = (path.relabel order).shape.cols :=
    width
  have places := Mat.mem_order (placement_permutes permutes distinct inRange)
  rw [gradient_smoothOver (relabel_wellFormed wellFormed order) (relabelled_nodup order groups)
      (relabelled_inRange path order groups) otherWidth,
    gradient_smoothOver wellFormed distinct inRange width, embed_relabel distinct inRange shape,
    dot_relabel permutes (shape_embed path groups coef),
    gradient_relabel permutes wellFormed (shape_embed path groups coef),
    Mat.selectRows_selectRows _ fun _ member => (mem_relabelled.1 member).1,
    Mat.selectRows_selectRows _ places, map_placement]

include permutes distinct inRange in
theorem restrictedProblem_reordered (wellFormed : path.WellFormed)
    (solutionShape : path.solution.shape = path.shape) (lagrange : ℝ) :
    Problem.Reordered (placement order groups) (path.restrictedProblem groups lagrange)
      ((path.relabel order).restrictedProblem (relabelled order groups) lagrange) := by
  have permutesPlaces := placement_permutes permutes distinct inRange
  have places := Mat.mem_order permutesPlaces
  have labels : ∀ label ∈ relabelled order groups, label < order.length :=
    fun _ member => (mem_relabelled.1 member).1
  have width : path.solution.cols = path.shape.cols := Mat.cols_eq solutionShape
  refine ⟨permutesPlaces, fun coef shape => ?_,
    fun coef shape => value_relabel permutes distinct inRange wellFormed lagrange shape,
    fun coef shape => gradientOver_relabel permutes distinct inRange wellFormed lagrange shape, ?_,
    congrArg (Shape.mk groups.length) width, ?_, rfl⟩
  · change ((path.smoothOver groups lagrange).gradient coef).shape = ⟨groups.length, path.shape.cols⟩
    have coefWidth : coef.cols = path.shape.cols := by rw [Mat.cols_eq shape]; rfl
    have fullCols := Mat.cols_eq
      (shape_fullGradient wellFormed (path.design.dot (path.embed groups coef)))
    rw [gradient_smoothOver wellFormed distinct inRange coefWidth]
    exact congrArg (Shape.mk groups.length) fullCols
  · let scaled := path.penalty.withLagrange (path.options.alpha * lagrange)
    change (scaled.over order).over (relabelled order groups) =
      (scaled.over groups).over (placement order groups)
    rw [Penalty.over_over labels, Penalty.over_over places, map_placement]
  · change (path.solution.selectRows order).selectRows (relabelled order groups) =
      (path.solution.selectRows groups).selectRows (placement order groups)
    rw [Mat.selectRows_selectRows _ labels, Mat.selectRows_selectRows _ places, map_placement]

theorem solveSubproblem_nil (wellFormed : path.WellFormed) (nonneg : 0 ≤ lagrange)
    (options : SolveOptions ℝ) : path.solveSubproblem [] lagrange options =
      .ok ⟨Mat.zero 0 path.shape.cols, Mat.zero 0 path.shape.cols,
        Mat.zero path.loss.shape.rows path.loss.shape.cols, path.step,
        Mask.ofIndices [] path.design.inputShape.rows⟩ := by
  obtain ⟨mask, restricted⟩ := restrictTo_eq_ok wellFormed nonneg List.nodup_nil nofun
  obtain rfl : mask = _ := restrictTo_candidates restricted
  have cols : (path.design.restrict []).inputShape.cols = path.shape.cols := by
    rw [Design.inputShape_restrict, shape, wellFormed.inputs]
    rfl
  refine Failure.bind_eq_ok.2 ⟨_, restricted, ?_⟩
  rw [← cols]
  rfl

include permutes distinct inRange in
theorem solveSubproblem_relabel (wellFormed : path.WellFormed)
    (solutionShape : path.solution.shape = path.shape) (nonneg : 0 ≤ lagrange)
    (options : SolveOptions ℝ) :
    (path.relabel order).solveSubproblem (relabelled order groups) lagrange options =
      (path.solveSubproblem groups lagrange options).map
        (·.relabel order (placement order groups)) := by
  have other := relabel_wellFormed wellFormed order
  have rows : path.design.inputShape.rows = path.groups :=
    (congrArg Shape.rows wellFormed.inputs).symm
  have otherRows : (path.relabel order).design.inputShape.rows = order.length :=
    congrArg Shape.rows (Design.inputShape_restrict path.design)
  have mask : (Mask.ofIndices groups path.design.inputShape.rows).relabel order =
      Mask.ofIndices (relabelled order groups) (path.relabel order).design.inputShape.rows := by
    rw [rows, otherRows, Mask.relabel_ofIndices permutes]
  by_cases listed : groups = []
  · subst listed
    have none : relabelled order [] = [] := by simp [relabelled]
    rw [none] at mask ⊢
    rw [solveSubproblem_nil wellFormed nonneg, solveSubproblem_nil other nonneg, ← mask]
    simp only [Except.map, Subsolution.relabel, Mat.selectRows_zero, placement, none]
    rfl
  · have otherListed : relabelled order groups ≠ [] := by
      rw [← List.length_pos_iff, length_relabelled permutes distinct inRange, List.length_pos_iff]
      exact listed
    have otherShape : (path.relabel order).solution.shape = (path.relabel order).shape := by
      have width : path.solution.cols = path.shape.cols := Mat.cols_eq solutionShape
      exact congrArg (Shape.mk order.length) width
    have reordered := restrictedProblem_reordered permutes distinct inRange wellFormed solutionShape
      lagrange
    obtain ⟨result, step⟩ := reordered.solve (path.request options)
    have request : (path.relabel order).request options = path.request options := rfl
    rw [solveSubproblem_eq wellFormed nonneg distinct inRange solutionShape listed,
      solveSubproblem_eq other nonneg (relabelled_nodup order groups)
        (relabelled_inRange path order groups) otherShape otherListed, request, result, step, ← mask]
    cases solved : ((path.restrictedProblem groups lagrange).solve (path.request options)).1 with
    | error failure => rfl
    | ok solution =>
        have shape : solution.shape = ⟨groups.length, path.shape.cols⟩ := Problem.solve_shape solved
        have width : solution.cols = path.shape.cols := by rw [Mat.cols_eq shape]
        have otherWidth : (solution.selectRows (placement order groups)).cols =
            (path.relabel order).shape.cols := width
        have predictor : ((path.relabel order).smoothOver (relabelled order groups) lagrange).design.dot
            (solution.selectRows (placement order groups)) =
              (path.smoothOver groups lagrange).design.dot solution := by
          rw [dot_smoothOver lagrange (relabelled_nodup order groups)
              (relabelled_inRange path order groups) otherWidth,
            dot_smoothOver lagrange distinct inRange width, embed_relabel distinct inRange shape,
            dot_relabel permutes (shape_embed path groups solution)]
        have gradient := gradientOver_relabel permutes distinct inRange wellFormed lagrange shape
        simp only [Except.map, Subsolution.relabel, predictor, gradient]

include distinct inRange in
theorem solveSubproblem_shape {sub : Subsolution ℝ} {options : SolveOptions ℝ}
    (wellFormed : path.WellFormed) (solutionShape : path.solution.shape = path.shape)
    (nonneg : 0 ≤ lagrange) (solved : path.solveSubproblem groups lagrange options = .ok sub) :
    sub.solution.shape = ⟨groups.length, path.shape.cols⟩ := by
  by_cases listed : groups = []
  · subst listed
    rw [solveSubproblem_nil wellFormed nonneg] at solved
    cases solved
    rfl
  · rw [solveSubproblem_eq wellFormed nonneg distinct inRange solutionShape listed] at solved
    cases run : ((path.restrictedProblem groups lagrange).solve (path.request options)).1 with
    | error failure =>
        rw [run] at solved
        cases solved
    | ok solution =>
        rw [run] at solved
        cases solved
        exact Problem.solve_shape run

end

theorem Relabels.apply {order : List Nat} {path : Path ℝ} {event : Event ℝ}
    (relabels : Relabels order path) (permitted : path.Permits event) :
    Relabels order (path.apply event) := by
  obtain ⟨permutes, wellFormed, marked, solution, gradient⟩ := relabels
  have reached := (sameModel_apply path event).wellFormed wellFormed
  cases permitted with
  | solve options positive => exact ⟨permutes, reached, marked, solution, gradient⟩
  | record entry => exact ⟨permutes, reached, marked, solution, gradient⟩
  | mark groups =>
      exact ⟨permutes, reached, (Mask.length_insertAll _ groups).trans marked, solution, gradient⟩
  | @commit lagrange options trial positive tried passed =>
      obtain ⟨trialShape, gradient, -⟩ := trial_gradient wellFormed positive.2.le tried
      refine ⟨permutes, reached, marked, trialShape, ?_⟩
      change trial.gradient.shape = path.shape
      rw [gradient]
      exact shape_fullGradient wellFormed _

theorem Trace.relabels {order : List Nat} {path reached : Path ℝ} {events : List (Event ℝ)}
    (trace : Trace path events reached) (relabels : Relabels order path) : Relabels order reached :=
  trace.keeps (fun _ _ relabels permitted => relabels.apply permitted) relabels

def trialOf {α : Type} [Scalar α] (path : Path α) (lagrange : α) (sub : Subsolution α) : Trial α :=
  let solution := path.embed path.candidates sub.solution
  let gradient := (path.fullGradient sub.predictor).add (path.ridgeGradient solution lagrange)
  ⟨sub, solution, gradient, path.violators gradient solution (path.options.alpha * lagrange)⟩

theorem trial_eq (path : Path ℝ) (lagrange : ℝ) (options : SolveOptions ℝ) :
    path.trial lagrange options =
      (path.solveSubproblem path.candidates lagrange options).map (path.trialOf lagrange) := by
  change (path.solveSubproblem path.candidates lagrange options >>= fun sub =>
    pure (path.trialOf lagrange sub)) = _
  cases path.solveSubproblem path.candidates lagrange options <;> rfl

section
variable {path : Path ℝ} {order : List Nat} {lagrange : ℝ} {options : SolveOptions ℝ}
  {trial : Trial ℝ}

theorem newcomers_relabel (trial : Trial ℝ) (order places : List Nat) :
    (trial.relabel order places).newcomers = relabelled order trial.newcomers := by
  rw [Trial.newcomers, Trial.newcomers, relabelled_filter]
  refine List.filter_congr fun label member => ?_
  have bound := (mem_relabelled.1 member).1
  simp only [Trial.relabel, Subsolution.relabel, Mask.contains_relabel bound]

variable (relabels : Relabels order path)
include relabels

theorem trialOf_relabel {sub : Subsolution ℝ}
    (shape : sub.solution.shape = ⟨path.candidates.length, path.shape.cols⟩) (lagrange : ℝ) :
    (path.relabel order).trialOf lagrange (sub.relabel order (placement order path.candidates)) =
      (path.trialOf lagrange sub).relabel order (placement order path.candidates) := by
  obtain ⟨permutes, wellFormed, marked, -, -⟩ := relabels
  have fullShape := shape_embed path path.candidates sub.solution
  have solution : (path.relabel order).embed (relabelled order path.candidates)
      (sub.solution.selectRows (placement order path.candidates)) =
        (path.embed path.candidates sub.solution).selectRows order :=
    embed_relabel (candidates_nodup path) (candidates_inRange path) shape
  have gradient := gradient_relabel permutes wellFormed fullShape sub.predictor lagrange
  simp only [trialOf, candidates_relabel permutes marked, Subsolution.relabel, solution, gradient,
    violators_relabel permutes fullShape, Trial.relabel]
  rfl

theorem trial_relabel (nonneg : 0 ≤ lagrange) (options : SolveOptions ℝ) :
    (path.relabel order).trial lagrange options =
      (path.trial lagrange options).map (·.relabel order (placement order path.candidates)) := by
  have distinct := candidates_nodup path
  have inRange := candidates_inRange path
  rw [trial_eq, trial_eq, candidates_relabel relabels.permutes relabels.marked,
    solveSubproblem_relabel relabels.permutes distinct inRange relabels.wellFormed relabels.solution
      nonneg options]
  cases solved : path.solveSubproblem path.candidates lagrange options with
  | error failure => rfl
  | ok sub =>
      have shape := solveSubproblem_shape distinct inRange relabels.wellFormed relabels.solution nonneg
        solved
      exact congrArg Except.ok (trialOf_relabel relabels shape lagrange)

theorem certifiedStep_relabel {places : List Nat} (shape : trial.solution.shape = path.shape)
    (round : Nat) : (path.relabel order).certifiedStep lagrange round (trial.relabel order places) =
      (path.certifiedStep lagrange round trial).relabel order := by
  have active := activeGroups_relabel relabels.permutes shape
  have candidates : (path.relabel order).candidates.length = path.candidates.length := by
    rw [candidates_relabel relabels.permutes relabels.marked,
      length_relabelled relabels.permutes (candidates_nodup path) (candidates_inRange path)]
  simp only [certifiedStep, Trial.relabel, active, candidates, PathStep.relabel]
  rfl

theorem violators_length (tried : path.trial lagrange options = .ok trial) (places : List Nat) :
    (trial.relabel order places).violators.length = trial.violators.length := by
  obtain ⟨ascending, inRange⟩ := trial_violators tried
  exact length_relabelled relabels.permutes (ascending.imp Nat.ne_of_lt) inRange

theorem respond_relabel (tried : path.trial lagrange options = .ok trial) (places : List Nat) :
    (path.relabel order).respond lagrange options (trial.relabel order places) =
      ((path.respond lagrange options trial).1.relabel order,
        (path.respond lagrange options trial).2) := by
  obtain ⟨ascending, inRange⟩ := trial_violators tried
  have newDistinct : trial.newcomers.Nodup := (ascending.filter _).imp Nat.ne_of_lt
  have newInRange : ∀ group ∈ trial.newcomers, group < path.groups :=
    fun group member => inRange group (List.mem_filter.1 member).1
  have newcomers := length_relabelled relabels.permutes newDistinct newInRange
  have marked := markEverActive_relabel relabels.permutes relabels.marked trial.newcomers
  unfold respond
  simp only [newcomers_relabel, violators_length relabels tried, newcomers, marked,
    List.isEmpty_iff_length_eq_zero]
  split_ifs <;> rfl

end

section
variable {path : Path ℝ} {order : List Nat} {lagrange : ℝ}

theorem rounds_relabel (relabels : Relabels order path) (positive : IsFinitePos lagrange)
    (retries round : Nat) (options : SolveOptions ℝ) :
    rounds lagrange retries round options (path.relabel order) =
      ((rounds lagrange retries round options path).1.map (·.relabel order),
        (rounds lagrange retries round options path).2.relabel order) := by
  have passes : ∀ {path : Path ℝ} {options : SolveOptions ℝ} {trial : Trial ℝ},
      Relabels order path → path.trial lagrange options = .ok trial → ∀ places,
        ((trial.relabel order places).violators.isEmpty ↔ trial.violators.isEmpty) := by
    intro path options trial relabels tried places
    rw [List.isEmpty_iff_length_eq_zero, List.isEmpty_iff_length_eq_zero,
      violators_length relabels tried]
  -- By induction on the retries: a response only marks and records, so that the list still relabels
  -- the path that the next round starts from.
  fun_induction rounds lagrange retries round options path with
  | case1 retries round options path failure tried =>
      unfold rounds
      rw [trial_relabel relabels positive.2.le, tried]
      rfl
  | case2 retries round options path trial tried clean =>
      unfold rounds
      rw [trial_relabel relabels positive.2.le, tried]
      simp only [Except.map, if_pos ((passes relabels tried _).2 clean),
        certifiedStep_relabel relabels (trial_shape tried)]
      rfl
  | case3 round options path trial tried failed =>
      unfold rounds
      rw [trial_relabel relabels positive.2.le, tried]
      simp only [Except.map, if_neg (mt (passes relabels tried _).1 failed)]
      rfl
  | case4 round options path trial tried failed retries response ih =>
      have trace := respond_trace path lagrange options trial
      conv_lhs => unfold rounds
      rw [trial_relabel relabels positive.2.le, tried]
      simp only [Except.map, if_neg (mt (passes relabels tried _).1 failed),
        respond_relabel relabels tried]
      exact ih (trace.relabels relabels)

theorem attempt_relabel (relabels : Relabels order path) (positive : IsFinitePos lagrange)
    (current : ℝ) (options : SolveOptions ℝ) : (path.relabel order).attempt current lagrange options =
      ((path.attempt current lagrange options).1.map (·.relabel order),
        (path.attempt current lagrange options).2.relabel order) := by
  have marked : Relabels order (path.screen current lagrange) := relabels.apply (.mark _)
  unfold attempt
  rw [screen_relabel relabels]
  exact rounds_relabel marked positive _ 1 options

theorem skippedStep_relabel (relabels : Relabels order path) (lagrange : ℝ) :
    (path.relabel order).skippedStep lagrange = (path.skippedStep lagrange).relabel order := by
  have active := activeGroups_relabel relabels.permutes relabels.solution
  unfold skippedStep PathStep.relabel
  rw [← active]
  rfl

theorem attempts_relabel (relabels : Relabels order path) (positive : IsFinitePos lagrange)
    (current : ℝ) (relaxations : Nat) (options : SolveOptions ℝ) :
    attempts current lagrange relaxations options (path.relabel order) =
      ((attempts current lagrange relaxations options path).1.map (·.relabel order),
        (attempts current lagrange relaxations options path).2.relabel order) := by
  have reaches : ∀ {path middle : Path ℝ} {options : SolveOptions ℝ} {failure : Failure ℝ},
      Relabels order path → path.attempt current lagrange options = (.error failure, middle) →
        Relabels order middle := by
    intro path middle options failure relabels outcome
    have trace := attempt_trace positive path current options
    rw [outcome] at trace
    exact trace.relabels relabels
  fun_induction attempts current lagrange relaxations options path with
  | case1 relaxations options path step middle outcome =>
      unfold attempts
      rw [attempt_relabel relabels positive, outcome]
      rfl
  | case2 relaxations options path failure middle outcome final =>
      unfold attempts
      rw [attempt_relabel relabels positive, outcome]
      simp only [Except.map, if_pos final]
  | case3 relaxations options path failure middle outcome mendable policy =>
      unfold attempts
      rw [attempt_relabel relabels positive, outcome]
      have same : (middle.relabel order).options.nonConvergence = .abort := policy
      simp only [Except.map, if_neg mendable, same]
  | case4 relaxations options path failure middle outcome mendable policy recorded =>
      have marked : Relabels order recorded :=
        (reaches relabels outcome).apply (.record ⟨.skip, some lagrange, .skip⟩)
      unfold attempts
      rw [attempt_relabel relabels positive, outcome]
      have same : (middle.relabel order).options.nonConvergence = .skip := policy
      have step := skippedStep_relabel marked lagrange
      simp only [Except.map, if_neg mendable, same, ← step]
      rfl
  | case5 options path failure middle outcome mendable policy =>
      unfold attempts
      rw [attempt_relabel relabels positive, outcome]
      have same : (middle.relabel order).options.nonConvergence = .relax := policy
      simp only [Except.map, if_neg mendable, same]
  | case6 options path failure middle outcome mendable relaxations policy relaxed ih =>
      have marked := (reaches relabels outcome).apply (.record ⟨.relaxation, some lagrange,
        .relaxation relaxed.tolerance relaxed.maxIterations⟩)
      conv_lhs => unfold attempts
      rw [attempt_relabel relabels positive, outcome]
      have same : (middle.relabel order).options.nonConvergence = .relax := policy
      simp only [Except.map, if_neg mendable, same]
      exact ih marked

/-! Whole runs. -/

theorem fitValues_relabel (relabels : Relabels order path) {values : List ℝ}
    (positive : ∀ lagrange ∈ values, IsFinitePos lagrange) (current : ℝ) :
    fitValues current values (path.relabel order) =
      ((fitValues current values path).1.map fun steps => steps.map (·.relabel order),
        (fitValues current values path).2.relabel order) := by
  induction values generalizing current path with
  | nil => rfl
  | cons next rest ih =>
      obtain ⟨first, later⟩ := List.forall_mem_cons.1 positive
      have trace := fitValue_trace first path current
      have same : (path.relabel order).fitValue current next =
          ((path.fitValue current next).1.map (·.relabel order),
            (path.fitValue current next).2.relabel order) :=
        attempts_relabel relabels first current _ _
      rw [fitValues_cons, fitValues_cons, same]
      cases outcome : path.fitValue current next with
      | mk result middle =>
          rw [outcome] at trace
          cases result with
          | error failure => rfl
          | ok step =>
              have current' : nextCurrent current next (step.relabel order) =
                  nextCurrent current next step := rfl
              simp only [Except.map, current', ih (trace.relabels relabels) later]
              cases remaining : fitValues (nextCurrent current next step) rest middle with
              | mk steps reached => cases steps <;> rfl

theorem sequence_relabel (relabels : Relabels order path) (given : Option (List ℝ)) :
    (path.relabel order).sequence given = path.sequence given := by
  unfold sequence
  rw [lagrangeMax_relabel relabels.permutes]
  rfl

theorem fit_relabel (relabels : Relabels order path) (given : Option (List ℝ)) :
    (path.relabel order).fit given =
      ((path.fit given).1.map (·.relabel order), (path.fit given).2.relabel order) := by
  unfold fit
  rw [sequence_relabel relabels, lagrangeMax_relabel relabels.permutes]
  cases listed : path.sequence given with
  | error failure => rfl
  | ok values =>
      obtain ⟨-, positive, -⟩ := Grid.validate_eq_ok.1 (sequence_eq_ok listed).1
      simp only [fitValues_relabel relabels positive]
      cases fitValues path.lagrangeMax values path with
      | mk steps reached => cases steps <;> rfl

end

end Path

end GroupLasso
