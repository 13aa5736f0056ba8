import GroupLasso.Proofs.Expansion
import GroupLasso.Proofs.Refusals
import GroupLasso.Proofs.Visits

/-!
The candidates of the restricted problems that a run solves, and what a run can fail with. Candidates
are listed in ascending order without repetition, also after violators were appended to them, so that
every restricted problem fits its path and only the solver can refuse it.
-/

namespace GroupLasso

open Scalar Failure

namespace Path

section
variable {α : Type} [Scalar α] {path : Path α} {lagrange : α} {options : SolveOptions α}
  {trial : Trial α}

/-- The groups of a path are the columns of its design, and the ever-active ones are among them. -/
structure Aligned (path : Path α) : Prop where
  inputs : path.penalty.shape = path.design.inputShape
  length : path.everActiveMask.length = path.groups

omit [Scalar α] in
theorem Aligned.apply (aligned : path.Aligned) (event : Event α) : (path.apply event).Aligned := by
  have same := sameModel_apply path event
  refine ⟨?_, length_apply aligned.length event⟩
  rw [same.penalty, same.design]
  exact aligned.inputs

theorem Trace.aligned {reached : Path α} {events : List (Event α)} (trace : Trace path events reached)
    (aligned : path.Aligned) : reached.Aligned :=
  trace.keeps (fun _ event aligned _ => aligned.apply event) aligned

theorem build_aligned {loss : Loss α} {design : Design α} {l1 l2 : Array α}
    {ridgeParameter : Option (Mat α)} {options : PathOptions α}
    (built : Path.build loss design l1 l2 ridgeParameter options = .ok path) : path.Aligned := by
  obtain ⟨-, -, penalty, parameter, fitted, accepted, -, solved, rfl⟩ := build_iff.1 built
  obtain ⟨-, fields⟩ := Penalty.ofWeights_fields accepted
  have blank : (blank loss design penalty parameter options).Aligned :=
    ⟨congrArg Penalty.shape fields, Mask.length_empty _⟩
  have aligned : fitted.Aligned := by
    rcases fitNull_eq_ok solved with rfl | ⟨null, -, rfl⟩
    · exact blank
    · exact ⟨blank.inputs, blank.length⟩
  unfold warnOfRidge
  split_ifs
  · exact ⟨aligned.inputs, aligned.length⟩
  · exact ⟨aligned.inputs, aligned.length⟩

theorem candidates_ascending (path : Path α) : path.candidates.Pairwise (· < ·) :=
  Mask.sorted_toIndices _

theorem candidates_eq (aligned : path.Aligned) : path.candidates =
    (path.everActiveMask.toIndices ++ path.penalty.unpenalized).mergeSort.dedup := by
  have sorted := List.pairwise_mergeSort' (· ≤ ·)
    (path.everActiveMask.toIndices ++ path.penalty.unpenalized)
  refine eq_of_ascending (candidates_ascending path) ?_ fun group => ?_
  · have ordered := sorted.sublist (List.dedup_sublist _)
    exact (ordered.and (List.nodup_dedup _)).imp fun both => Nat.lt_of_le_of_ne both.1 both.2
  · rw [mem_candidates aligned.length, List.mem_dedup, List.mem_mergeSort, List.mem_append,
      Mask.mem_toIndices]

theorem trial_mask (aligned : path.Aligned) (tried : path.trial lagrange options = .ok trial) :
    trial.sub.candidates = Mask.ofIndices path.candidates path.groups := by
  obtain ⟨sub, solved, finished⟩ := Failure.bind_eq_ok.1 tried
  cases finished
  have rows : path.groups = path.design.inputShape.rows := congrArg Shape.rows aligned.inputs
  rw [rows]
  exact solveSubproblem_candidates solved

theorem mem_newcomers (aligned : path.Aligned) (tried : path.trial lagrange options = .ok trial)
    {group : Nat} : group ∈ trial.newcomers ↔ group ∈ trial.violators ∧ group ∈ path.outside := by
  rw [Trial.newcomers, List.mem_filter, mem_outside, trial_mask aligned tried, Bool.not_eq_true',
    ← Bool.not_eq_true, Mask.contains_ofIndices]
  have bound := (trial_violators tried).2 group
  tauto

theorem newcomers_isEmpty (aligned : path.Aligned) (tried : path.trial lagrange options = .ok trial)
    (all : ∀ group < path.groups, group ∈ path.candidates) : trial.newcomers.isEmpty := by
  rw [List.isEmpty_iff, List.eq_nil_iff_forall_not_mem]
  intro group new
  obtain ⟨bound, unlisted⟩ := mem_outside.1 ((mem_newcomers aligned tried).1 new).2
  exact unlisted (all group bound)

theorem mem_candidates_respond (aligned : path.Aligned)
    (tried : path.trial lagrange options = .ok trial) {group : Nat} :
    group ∈ (path.respond lagrange options trial).1.candidates ↔
      group ∈ path.candidates ∨ group ∈ trial.newcomers := by
  unfold respond
  by_cases none : trial.newcomers.isEmpty
  · rw [if_pos none, List.isEmpty_iff.1 none]
    exact (or_iff_left List.not_mem_nil).symm
  · rw [if_neg none]
    refine (mem_candidates_mark aligned.length).trans (or_congr_right ⟨And.left, fun listed => ?_⟩)
    exact ⟨listed, (mem_outside.1 ((mem_newcomers aligned tried).1 listed).2).1⟩

theorem candidates_respond (aligned : path.Aligned)
    (tried : path.trial lagrange options = .ok trial) :
    (path.respond lagrange options trial).1.candidates =
      (path.candidates ++ trial.newcomers).mergeSort := by
  have newcomers : trial.newcomers.Nodup :=
    ((trial_violators tried).1.filter _).imp Nat.ne_of_lt
  have disjoint : ∀ group ∈ path.candidates, ∀ other ∈ trial.newcomers, group ≠ other := by
    rintro group listed _ new rfl
    exact (mem_outside.1 ((mem_newcomers aligned tried).1 new).2).2 listed
  have distinct : (path.candidates ++ trial.newcomers).Nodup :=
    List.nodup_append.2 ⟨candidates_nodup path, newcomers, disjoint⟩
  refine eq_of_ascending (candidates_ascending _) (mergeSort_ascending distinct) fun group => ?_
  rw [mem_candidates_respond aligned tried, List.mem_mergeSort, List.mem_append]

end

/-! What a run can fail with. -/

section
variable {path : Path ℝ} {lagrange : ℝ} {given : Option (List ℝ)}

theorem WellFormed.raises_solver (wellFormed : path.WellFormed)
    (shape : path.solution.shape = path.shape) (nonneg : 0 ≤ lagrange) (options : SolveOptions ℝ) :
    Raises OfSolver (path.trial lagrange options) := by
  refine Raises.bind ?_ fun _ => raises_ok _
  by_cases none : path.candidates = []
  · obtain ⟨sub, _, _, solved, -⟩ := solvesExactly_of_no_candidates wellFormed nonneg none options
    rw [solved]
    exact raises_ok sub
  · rw [solveSubproblem_eq wellFormed nonneg (candidates_nodup path) (candidates_inRange path) shape
      none]
    exact Raises.map Problem.raises_solve _

theorem Reachable.supported (reachable : Reachable path) : path.Supported := by
  obtain ⟨start, events, history⟩ := reachable.history
  obtain ⟨_, _, _, _, _, _, built⟩ := history.built
  exact history.trace.supported (build_fresh built).supported

theorem Reachable.valid (reachable : Reachable path) : path.options.Valid := by
  obtain ⟨start, events, history⟩ := reachable.history
  obtain ⟨_, _, _, _, _, _, built⟩ := history.built
  rw [history.trace.sameModel.options]
  exact (build_fresh built).options

theorem Reachable.fit_error (reachable : Reachable path) {failure : Failure ℝ}
    (failed : (path.fit given).1 = .error failure) :
    (path.sequence given = .error failure ∧ ∃ fault, failure = .invalidSequence fault) ∨
      failure.OfSolver ∨ ∃ lagrange retries, failure = .kktRetriesExceeded lagrange retries := by
  rcases Path.fit_error failed with refused | ⟨visit, visited, attempt, made, raised⟩
  · exact .inl ⟨refused, raises_sequence failure refused⟩
  · rcases attempt_error raised with ⟨receiver, options, asked, raised⟩ | ⟨exhausted, -⟩
    · obtain ⟨before, -, trace, positive⟩ :=
        (fit_trace path given).solves (mem_fitEvents visited made asked)
      have wellFormed := trace.sameModel.wellFormed reachable.wellFormed
      have shape := (trace.supported reachable.supported).shape
      exact .inr (.inl (wellFormed.raises_solver shape positive.2.le options failure raised))
    · exact .inr (.inr ⟨_, _, exhausted⟩)

theorem Reachable.fit_invalidSequence (reachable : Reachable path) :
    (∃ fault, (path.fit given).1 = .error (.invalidSequence fault)) ↔
      ∀ values, path.sequence given ≠ .ok values := by
  rw [← Failure.exists_error]
  constructor
  · rintro ⟨fault, failed⟩
    rcases reachable.fit_error failed with ⟨refused, -⟩ | (⟨_, ⟨⟩⟩ | ⟨_, ⟨⟩⟩) | ⟨_, _, ⟨⟩⟩
    exact ⟨_, refused⟩
  · rintro ⟨failure, refused⟩
    obtain ⟨fault, rfl⟩ := raises_sequence failure refused
    refine ⟨fault, ?_⟩
    rw [Path.fit, refused]

theorem sequence_some_refused {values : List ℝ} :
    (∀ sequence, path.sequence (some values) ≠ .ok sequence) ↔ values = [] ∨
      (∃ lagrange ∈ values, lagrange ≤ 0) ∨
      ∃ index, ∃ bound : index + 1 < values.length, values[index] < values[index + 1] := by
  have accepted : (∃ sequence, path.sequence (some values) = .ok sequence) ↔
      Grid.validate values = .ok () := by
    rw [sequence_some]
    cases Grid.validate values with
    | error failure => exact ⟨nofun, nofun⟩
    | ok done => exact ⟨fun _ => rfl, fun _ => ⟨values, rfl⟩⟩
  rw [← not_exists, accepted, Grid.validate_eq_ok, List.isChain_iff_getElem]
  simp only [isFinitePos_real, not_and_or, ne_eq, not_not, not_forall, not_lt, not_le,
    exists_prop]

theorem sequence_none_refused (valid : path.options.Valid) :
    (∀ sequence, path.sequence none ≠ .ok sequence) ↔ path.lagrangeMax ≤ 0 := by
  by_cases positive : IsFinitePos path.lagrangeMax
  · have accepted := Grid.validate_geometric positive.2 valid.gridRatio.1 valid.gridRatio.2.le
      valid.gridSize
    have listed : ∃ sequence, path.sequence none = .ok sequence := by
      refine ⟨Grid.geometric path.lagrangeMax path.options.gridRatio path.options.gridSize, ?_⟩
      simp only [sequence, if_pos positive]
      exact Failure.bind_eq_ok.2 ⟨_, rfl, Failure.bind_eq_ok.2 ⟨(), accepted, rfl⟩⟩
    obtain ⟨sequence, listed⟩ := listed
    exact ⟨fun refused => absurd listed (refused sequence), fun low => absurd positive.2 low.not_gt⟩
  · have refused : path.sequence none =
        .error (.invalidSequence (.noDefault path.lagrangeMax)) := by
      simp only [sequence, if_neg positive]
      rfl
    rw [refused]
    rw [isFinitePos_real, not_lt] at positive
    exact ⟨fun _ => positive, fun _ _ => nofun⟩

/-- After any history of runs and marked groups, the candidates of every restricted problem that a run
solves are the ever-active and the unpenalized groups in ascending order, which is what sorting the two
lists and dropping repetitions gives, and the solver is handed that list. Violators are positions of the
candidate mask, and after a round that fails the next candidates are the old ones and the new violators,
sorted and as many. So a run fails only with its sequence, with the solver, or when its rounds have run
out; and it fails with its sequence exactly when a given one is empty, has a value that is not positive or
increases, and without one exactly when the largest Lagrange value of interest is not positive. -/
theorem fit_candidates (reachable : Reachable path) :
    (∀ given receiver lagrange options, .solve receiver lagrange options ∈ path.fitEvents given →
      receiver.candidates.Pairwise (· < ·) ∧
      (∀ group, group ∈ receiver.candidates ↔ group < path.groups ∧
        (receiver.everActiveMask.contains group = true ∨ group ∈ path.penalty.unpenalized)) ∧
      receiver.candidates =
        (receiver.everActiveMask.toIndices ++ path.penalty.unpenalized).mergeSort.dedup ∧
      (receiver.trial lagrange options).map Trial.sub =
        receiver.solveSubproblem receiver.candidates lagrange options ∧
      ∀ trial, receiver.trial lagrange options = .ok trial →
        (∀ group ∈ trial.violators, group < trial.sub.candidates.length) ∧
        (receiver.respond lagrange options trial).1.candidates =
          (receiver.candidates ++ trial.newcomers).mergeSort) ∧
    (∀ given failure, (path.fit given).1 = .error failure →
      (∃ fault, failure = .invalidSequence fault) ∨
      (∃ iterations, failure = .notConverged iterations) ∨
      (∃ lagrange retries, failure = .kktRetriesExceeded lagrange retries) ∨
      ∃ fault, failure = .numerical fault) ∧
    (∀ values, (∃ fault, (path.fit (some values)).1 = .error (.invalidSequence fault)) ↔
      values = [] ∨ (∃ lagrange ∈ values, lagrange ≤ 0) ∨
        ∃ index, ∃ bound : index + 1 < values.length, values[index] < values[index + 1]) ∧
    ((∃ fault, (path.fit none).1 = .error (.invalidSequence fault)) ↔ path.lagrangeMax ≤ 0) := by
  refine ⟨?_, ?_, ?_, ?_⟩
  · intro given receiver lagrange options asked
    obtain ⟨before, -, trace, -⟩ := (fit_trace path given).solves asked
    have same := trace.sameModel
    have aligned : receiver.Aligned :=
      ⟨(same.wellFormed reachable.wellFormed).inputs, (trace.supported reachable.supported).length⟩
    have groups : receiver.groups = path.groups := congrArg Penalty.groups same.penalty
    rw [← same.penalty, ← groups]
    refine ⟨candidates_ascending receiver, fun group => ?_, candidates_eq aligned,
      trial_sub receiver lagrange options, ?_⟩
    · rw [← mem_candidates aligned.length]
      exact ⟨fun listed => ⟨candidates_inRange receiver group listed, listed⟩, And.right⟩
    · intro trial tried
      refine ⟨fun group violates => ?_, candidates_respond aligned tried⟩
      rw [trial_mask aligned tried, Mask.length_ofIndices]
      exact (trial_violators tried).2 group violates
  · intro given failure failed
    rcases reachable.fit_error failed with ⟨-, sequence⟩ | (stopped | broke) | exhausted
    · exact .inl sequence
    · exact .inr (.inl stopped)
    · exact .inr (.inr (.inr broke))
    · exact .inr (.inr (.inl exhausted))
  · intro values
    exact reachable.fit_invalidSequence.trans sequence_some_refused
  · exact reachable.fit_invalidSequence.trans (sequence_none_refused reachable.valid)

theorem fit_candidates_unit :
    let path : Path ℝ := unitPath 1
    let receiver := path.screen path.lagrangeMax (1 / 2)
    let options := path.options.solve
    Reachable path ∧ .solve receiver (1 / 2) options ∈ path.fitEvents (some [1 / 2]) ∧
      receiver.candidates = [] ∧ receiver.candidates.Pairwise (· < ·) ∧
      (receiver.trial (1 / 2) options).map Trial.sub =
        receiver.solveSubproblem receiver.candidates (1 / 2) options ∧
      (∃ trial, receiver.trial (1 / 2) options = .ok trial ∧ 0 ∈ trial.violators ∧
        0 < trial.sub.candidates.length ∧
        (receiver.respond (1 / 2) options trial).1.candidates =
          (receiver.candidates ++ trial.newcomers).mergeSort) ∧
      ∃ fault, (path.fit (some [1 / 2, 1])).1 = .error (.invalidSequence fault) := by
  intro path receiver options
  have reachable : Reachable path := .build (build_unit 1)
  have positive : (0 : ℝ) < 1 / 2 := one_half_pos
  have begins : receiver = path.screen 1 (1 / 2) :=
    congrArg (path.screen · (1 / 2)) (unit_lagrangeMax 1)
  obtain ⟨none, trial, tried, missed, -⟩ := (unit_model 1).expands reachable (unit_fresh 1) rfl
    (unit_start_gradient 1) positive (by norm_num) options
  rw [← begins] at none tried
  have asked : .solve receiver (1 / 2) options ∈ path.fitEvents (some [1 / 2]) := by
    have visited : ⟨path, path.lagrangeMax, 1 / 2⟩ ∈ path.visits (some [1 / 2]) := by
      rw [visits, path.sequence_single positive]
      exact List.mem_cons_self ..
    apply mem_fitEvents visited (Visit.first_mem _)
    exact List.mem_cons_of_mem _ (solve_mem_rounds ..)
  obtain ⟨listed, -, refused, -⟩ := fit_candidates reachable
  obtain ⟨ascending, -, -, handed, round⟩ := listed _ _ _ _ asked
  obtain ⟨inside, next⟩ := round trial tried
  refine ⟨reachable, asked, none, ascending, handed, ⟨trial, tried, missed, inside 0 missed, next⟩, ?_⟩
  exact (refused _).2 (.inr (.inr ⟨0, by decide, by norm_num⟩))

end

end Path

end GroupLasso
