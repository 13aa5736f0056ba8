import GroupLasso.Proofs.History

/-!
Where a path can be nonzero. The ever-active groups are those that were ever marked, and they hold the
support of the penalized groups. A restricted problem is therefore started from all of the current
solution, at its full objective.
-/

namespace GroupLasso

open Scalar

namespace Path

variable {start path reached : Path ℝ} {events : List (Event ℝ)} {group : Nat} {lagrange : ℝ}

theorem length_apply {α : Type} {path : Path α}
    (length : path.everActiveMask.length = path.groups) (event : Event α) :
    (path.apply event).everActiveMask.length = (path.apply event).groups := by
  cases event with
  | mark groups => exact (Mask.length_insertAll _ groups).trans length
  | solve receiver lagrange options => exact length
  | record entry => exact length
  | commit lagrange trial => exact length

/-- The solution has a row for every group and is zero outside the candidates. -/
structure Supported (path : Path ℝ) : Prop where
  length : path.everActiveMask.length = path.groups
  shape : path.solution.shape = path.shape
  support : ∀ group ∉ path.candidates, ∀ col, path.solution.get group col = 0

theorem Fresh.supported (fresh : Fresh path) : path.Supported := by
  have length : path.everActiveMask.length = path.groups := by
    rw [everActiveMask, fresh.unmarked]
    exact Mask.length_empty _
  refine ⟨length, fresh.shape, fun group unlisted col => ?_⟩
  by_cases bound : group < path.groups
  · apply fresh.support
    rw [← Bool.not_eq_true]
    intro unpenalized
    exact unlisted ((mem_candidates length).2 (.inr (Penalty.mem_unpenalized.2 ⟨bound, unpenalized⟩)))
  · apply Mat.get_eq_zero
    rw [Mat.rows_eq fresh.shape]
    exact .inl (not_lt.1 bound)

theorem Supported.apply {event : Event ℝ} (supported : path.Supported)
    (permitted : path.Permits event) : (path.apply event).Supported := by
  cases permitted with
  | solve options positive => exact supported
  | record entry => exact ⟨supported.length, supported.shape, supported.support⟩
  | mark groups =>
      have length : (path.markEverActive groups).everActiveMask.length = path.groups :=
        length_apply supported.length (.mark groups)
      refine ⟨length, supported.shape, fun group unlisted => supported.support group ?_⟩
      intro listed
      apply unlisted
      apply (mem_candidates length).2
      rcases (mem_candidates supported.length).1 listed with active | unpenalized
      · exact .inl (Mask.contains_insertAll.2 (.inl active))
      · exact .inr unpenalized
  | @commit lagrange options trial positive tried passed =>
      have shape : trial.solution.shape = path.shape := trial_shape tried
      exact ⟨supported.length, shape, fun group unlisted => trial_unlisted tried unlisted⟩

theorem Trace.supported (trace : Trace path events reached) (supported : path.Supported) :
    reached.Supported :=
  trace.keeps (fun _ _ supported permitted => supported.apply permitted) supported

/-- The full objective: loss, ridge term and penalty. -/
def objectiveAt {α : Type} [Scalar α] (path : Path α) (lagrange : α) (solution : Mat α) : α :=
  let ridge : Ridge α := ⟨path.ridgeDiag lagrange⟩
  path.loss.value (path.design.dot solution) +
    (if 1 ≤ path.options.alpha then 0 else ridge.value solution) +
    (path.penalty.withLagrange (path.options.alpha * lagrange)).value solution

theorem objectiveAt_embed {groups : List Nat} {coef : Mat ℝ} (wellFormed : path.WellFormed)
    (distinct : groups.Nodup) (inRange : ∀ group ∈ groups, group < path.groups)
    (width : coef.cols = path.shape.cols) :
    path.objectiveAt lagrange (path.embed groups coef) =
      (path.smoothOver groups lagrange).value coef +
        ((path.penalty.withLagrange (path.options.alpha * lagrange)).over groups).value coef := by
  have diag : (path.ridgeDiag lagrange).shape = path.shape := shape_ridgeDiag wellFormed
  have penalty : ((path.penalty.withLagrange (path.options.alpha * lagrange)).over groups).value coef =
      (path.penalty.withLagrange (path.options.alpha * lagrange)).value (path.embed groups coef) :=
    Penalty.value_over distinct inRange width
  rw [value_smoothOver wellFormed distinct inRange width, penalty, objectiveAt, Ridge.value_eq,
    Mat.rows_eq diag, Mat.cols_eq diag]
  by_cases mixed : path.options.alpha < 1
  · rw [if_pos mixed, if_neg mixed.not_ge]
  · rw [if_neg mixed, if_pos (not_lt.1 mixed)]

theorem embed_selectRows {groups : List Nat} {solution : Mat ℝ} (distinct : groups.Nodup)
    (inRange : ∀ group ∈ groups, group < path.groups) (shape : solution.shape = path.shape)
    (support : ∀ group ∉ groups, ∀ col, solution.get group col = 0) :
    path.embed groups (solution.selectRows groups) = solution :=
  Mat.scatterRows_selectRows distinct inRange shape support

theorem value_smoothOver_nil (path : Path ℝ) (lagrange : ℝ) (coef : Mat ℝ) :
    (path.smoothOver [] lagrange).value coef =
      (⟨path.loss, path.design.restrict [], none⟩ : Composed ℝ).value coef := by
  unfold smoothOver Restriction.ridge
  split_ifs
  · rfl
  · simp only [Composed.value, Ridge.value_eq, Mat.rows_selectRows, List.length_nil,
      Finset.range_zero, Finset.sum_empty, mul_zero, add_zero]

theorem Supported.objectiveAt_warm (wellFormed : path.WellFormed) (supported : path.Supported)
    {problem : RestrictedProblem ℝ} (nonneg : 0 ≤ lagrange)
    (restricted : path.restrictTo path.candidates lagrange = .ok problem) :
    problem.smooth.value (path.solution.selectRows path.candidates) +
        problem.penalty.value (path.solution.selectRows path.candidates) =
      path.objectiveAt lagrange path.solution := by
  obtain ⟨mask, same⟩ := restrictTo_eq_ok wellFormed nonneg (candidates_nodup path)
    (candidates_inRange path)
  cases restricted.symm.trans same
  have width : (path.solution.selectRows path.candidates).cols = path.shape.cols := by
    rw [Mat.cols_selectRows, Mat.cols_eq supported.shape]
  have embedded := embed_selectRows (candidates_nodup path) (candidates_inRange path)
    supported.shape supported.support
  conv_rhs => rw [← embedded]
  rw [objectiveAt_embed wellFormed (candidates_nodup path) (candidates_inRange path) width]
  by_cases empty : path.candidates.isEmpty
  · rw [if_pos empty, List.isEmpty_iff.1 empty, value_smoothOver_nil]
  · rw [if_neg empty]

theorem Supported.warmStart (wellFormed : path.WellFormed) (supported : path.Supported)
    {problem : RestrictedProblem ℝ} (nonneg : 0 ≤ lagrange)
    (restricted : path.restrictTo path.candidates lagrange = .ok problem)
    (listed : path.candidates ≠ []) (options : SolveOptions ℝ) : ∃ fresh started,
      Problem.ofPenalty problem.smooth.smooth problem.penalty = .ok fresh ∧
      fresh.warmStart (path.solution.selectRows path.candidates) = .ok started ∧
      (path.trial lagrange options).map (·.sub.solution) =
        (started.solve (path.request options)).1 := by
  obtain ⟨mask, same⟩ := restrictTo_eq_ok wellFormed nonneg (candidates_nodup path)
    (candidates_inRange path)
  rw [if_neg fun empty => listed (List.isEmpty_iff.1 empty)] at same
  cases restricted.symm.trans same
  obtain ⟨fresh, built, started⟩ :=
    warmStart_restricted wellFormed supported.shape path.candidates lagrange
  refine ⟨fresh, path.restrictedProblem path.candidates lagrange, built, started, ?_⟩
  calc (path.trial lagrange options).map (·.sub.solution)
      = ((path.trial lagrange options).map Trial.sub).map Subsolution.solution := by
        cases path.trial lagrange options <;> rfl
    _ = ((path.restrictedProblem path.candidates lagrange).solve (path.request options)).1 := by
        rw [trial_sub, solveSubproblem_eq wellFormed nonneg (candidates_nodup path)
          (candidates_inRange path) supported.shape listed]
        cases ((path.restrictedProblem path.candidates lagrange).solve (path.request options)).1 <;> rfl

/-- After any history of runs, also failed ones, and of marked groups: the ever-active groups are
those in range that were ever marked, in ascending order and none before the first mark, and no group
leaves them. Nonzero rows are ever-active or unpenalized. So wherever the history solved a restricted
problem, the candidates held the support of the current solution, the solver started from its rows, and
the objective there was the full one. -/
theorem history_support (history : History start events path) :
    (path.everActive = none ↔ ∀ groups, .mark groups ∉ events) ∧
      (∀ group, group ∈ path.everActiveMask.toIndices ↔
        group < path.groups ∧ ∃ groups, .mark groups ∈ events ∧ group ∈ groups) ∧
      path.everActiveMask.toIndices.Pairwise (· < ·) ∧
      (∀ before, before <+: events →
        (before.foldl apply start).everActiveMask.toIndices ⊆ path.everActiveMask.toIndices) ∧
      (∀ group col, path.solution.get group col ≠ 0 →
        group ∈ path.everActiveMask.toIndices ∨ path.penalty.isUnpenalized group = true) ∧
      ∀ receiver lagrange options, .solve receiver lagrange options ∈ events →
        (∀ group col, receiver.solution.get group col ≠ 0 → group ∈ receiver.candidates) ∧
        ∃ problem, receiver.restrictTo receiver.candidates lagrange = .ok problem ∧
          let warm := receiver.solution.selectRows receiver.candidates
          problem.smooth.value warm + problem.penalty.value warm =
              receiver.objectiveAt lagrange receiver.solution ∧
            (receiver.candidates ≠ [] → ∃ fresh started,
              Problem.ofPenalty problem.smooth.smooth problem.penalty = .ok fresh ∧
              fresh.warmStart warm = .ok started ∧
              (receiver.trial lagrange options).map (·.sub.solution) =
                (started.solve (receiver.request options)).1) := by
  obtain ⟨_, _, _, _, _, _, built⟩ := history.built
  have fresh := build_fresh built
  have trace := history.trace
  have supported := trace.supported fresh.supported
  refine ⟨?_, ?_, Mask.sorted_toIndices _, ?_, ?_, ?_⟩
  · rw [trace.unmarked]
    exact and_iff_right fresh.unmarked
  · intro group
    have unmarked : start.everActiveMask.contains group = false := by
      rw [everActiveMask, fresh.unmarked]
      exact Mask.contains_empty _ group
    rw [Mask.mem_toIndices, trace.everActive.2, unmarked, fresh.supported.length,
      show path.groups = start.groups from congrArg Penalty.groups trace.sameModel.penalty]
    simp
  · rintro before ⟨after, rfl⟩ group active
    rw [Mask.mem_toIndices] at active ⊢
    exact (trace.after.everActive.2 group).2 (.inl active)
  · intro group col nonzero
    by_contra outside
    rw [not_or, Mask.mem_toIndices] at outside
    refine nonzero (supported.support group ?_ col)
    intro listed
    rcases (mem_candidates supported.length).1 listed with active | unpenalized
    · exact outside.1 active
    · exact outside.2 (Penalty.mem_unpenalized.1 unpenalized).2
  · intro receiver lagrange options asked
    obtain ⟨before, -, reaches, positive⟩ := trace.solves asked
    have wellFormed := reaches.sameModel.wellFormed fresh.wellFormed
    have supported := reaches.supported fresh.supported
    obtain ⟨mask, restricted⟩ := restrictTo_eq_ok wellFormed positive.2.le (candidates_nodup receiver)
      (candidates_inRange receiver)
    refine ⟨fun group col nonzero => ?_, _, restricted,
      supported.objectiveAt_warm wellFormed positive.2.le restricted,
      fun listed => supported.warmStart wellFormed positive.2.le restricted listed options⟩
    by_contra outside
    exact nonzero (supported.support group outside col)

theorem history_support_unit :
    let path : Path ℝ := (unitPath 0).markEverActive [0]
    let events := [] ++ [.mark [0]] ++ path.fitEvents (some [1 / 2])
    let reached := (path.fit (some [1 / 2])).2
    let receiver := path.screen path.lagrangeMax (1 / 2)
    let options := path.options.solve
    History (unitPath 0) events reached ∧ 0 ∈ reached.everActiveMask.toIndices ∧
      (∀ group col, reached.solution.get group col ≠ 0 →
        group ∈ reached.everActiveMask.toIndices ∨ reached.penalty.isUnpenalized group = true) ∧
      .solve receiver (1 / 2) options ∈ events ∧ receiver.candidates = [0] ∧
      (∀ group col, receiver.solution.get group col ≠ 0 → group ∈ receiver.candidates) ∧
      ∃ problem, receiver.restrictTo receiver.candidates (1 / 2) = .ok problem ∧
        let warm := receiver.solution.selectRows receiver.candidates
        problem.smooth.value warm + problem.penalty.value warm =
            receiver.objectiveAt (1 / 2) receiver.solution ∧
          ∃ fresh started, Problem.ofPenalty problem.smooth.smooth problem.penalty = .ok fresh ∧
            fresh.warmStart warm = .ok started ∧
            (receiver.trial (1 / 2) options).map (·.sub.solution) =
              (started.solve (receiver.request options)).1 := by
  intro path events reached receiver options
  have history : History (unitPath 0) events reached :=
    ((History.build (build_unit 0)).markEverActive [0]).fit _
  have asked : .solve receiver (1 / 2) options ∈ path.fitEvents (some [1 / 2]) := by
    rw [fitEvents, path.sequence_single one_half_pos]
    refine List.mem_append_left _ ?_
    unfold valueEvents attemptsEvents attemptEvents
    exact List.mem_append_left _ (List.mem_cons_of_mem _ (solve_mem_rounds ..))
  have solve : .solve receiver (1 / 2) options ∈ events := List.mem_append_right _ asked
  obtain ⟨-, members, -, -, support, solves⟩ := history_support history
  have marked : 0 ∈ reached.everActiveMask.toIndices := by
    have count : reached.groups = 1 := congrArg Penalty.groups history.trace.sameModel.penalty
    rw [members, count]
    exact ⟨one_pos, [0], List.mem_cons_self .., List.mem_singleton_self 0⟩
  have begins : UnitStart receiver options :=
    unit_begins (.next (.mark [0]) (.single (.mark _))) rfl (List.mem_cons_self ..)
      (List.mem_singleton_self 0)
  obtain ⟨listed, problem, restricted, warm, run⟩ := solves _ _ _ solve
  exact ⟨history, marked, support, solve, begins.listed, listed, problem, restricted, warm,
    run (begins.listed ▸ List.cons_ne_nil _ _)⟩

end Path

end GroupLasso
