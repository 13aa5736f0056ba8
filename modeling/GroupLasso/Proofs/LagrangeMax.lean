import GroupLasso.Proofs.Duality
import GroupLasso.Proofs.Expansion
import GroupLasso.Proofs.History

/-!
The largest Lagrange value of interest over the history of a path. It is computed from the current
gradient, so that it stays what it was only as long as the solution does; after a commit it follows the
Lagrange value that was committed.
-/

namespace GroupLasso

open Scalar

namespace Path

section
variable {start path : Path ℝ} {events : List (Event ℝ)} {lagrange : ℝ}

theorem Trace.certified {reached : Path ℝ} (wellFormed : path.WellFormed)
    (trace : Trace path events reached) (last : lastCommitted events = some lagrange) :
    0 < lagrange ∧ reached.CertifiedAt lagrange reached.solution := by
  have since := trace.sinceCommit (motive := fun path committed =>
    ∀ lagrange, committed = some lagrange → 0 < lagrange ∧ path.CertifiedAt lagrange path.solution)
    ?_ wellFormed none nofun
  · exact since lagrange (by rw [last]; rfl)
  · intro path event committed wellFormed certified permitted
    cases permitted with
    | solve options positive => exact certified
    | mark groups => exact certified
    | record entry => exact certified
    | @commit value options trial positive tried passed =>
        rintro _ ⟨⟩
        have certified : path.CertifiedAt value trial.solution :=
          trial_certified wellFormed positive.2.le tried passed
        exact ⟨positive.2, certified⟩

theorem CertifiedAt.gauge (wellFormed : path.WellFormed) (nonneg : 0 ≤ lagrange)
    (certified : path.CertifiedAt lagrange path.solution)
    (gradient : path.gradient = (path.fullGradient (path.design.dot path.solution)).add
      (path.ridgeGradient path.solution lagrange)) {group : Nat} (bound : group < path.groups)
    (penalized : path.penalty.isUnpenalized group = false) :
    let cutoff := Optimality.activeCutoff path.solution path.options.kktTolerance
    (cutoff < path.solution.rowNorm group →
      path.options.alpha * lagrange * (1 - path.options.kktTolerance) ≤
        path.penalty.gauge path.gradient group) ∧
    (¬ cutoff < path.solution.rowNorm group → path.penalty.gauge path.gradient group <
      path.options.alpha * lagrange * (1 + path.options.kktTolerance)) := by
  intro cutoff
  obtain ⟨shape, checked⟩ := certified
  have gradientShape : path.gradient.shape = path.shape := by
    rw [gradient]
    exact shape_fullGradient wellFormed _
  let scaled := path.penalty.withLagrange (path.options.alpha * lagrange)
  have weighted : ¬ (scaled.l1At group = 0 ∧ scaled.l2At group = 0) :=
    Penalty.isUnpenalized_eq_false.1 penalized
  rw [← gradient] at checked
  have satisfied : Optimality.groupStatus scaled path.gradient path.solution
      path.options.kktTolerance group = .satisfied :=
    (Optimality.certified_iff_groups (wellFormed.scaled nonneg) gradientShape shape).1 checked group
      bound
  constructor
  · intro active
    have cols := (Mat.cols_eq gradientShape).trans (Mat.cols_eq shape).symm
    rw [Optimality.groupStatus_active weighted cols active,
      Optimality.checkActive_satisfied] at satisfied
    have above := satisfied.2.2
    rw [Gauge.split_radius, ← Optimality.row_negated cols, Gauge.gauge_neg] at above
    exact above
  · intro inactive
    have below := (Optimality.groupStatus_inactive weighted inactive).1 satisfied
    rw [Gauge.gauge_neg] at below
    exact below

/-- After any history of runs, also failed ones, and of marked groups, the largest Lagrange value of
interest is the one from the start as long as the solution is the one from the start, above all before
the first commit. After that it is computed from the gradient at the solution and Lagrange value that
were committed last: it is near that value or above where a penalized group counts as nonzero, and near
it or below where none does. -/
theorem history_lagrangeMax (history : History start events path) :
    (path.solution = start.solution → path.lagrangeMax = start.lagrangeMax) ∧
    (lastCommitted events = none → path.lagrangeMax = start.lagrangeMax) ∧
    ∀ lagrange, lastCommitted events = some lagrange →
      let cutoff := Optimality.activeCutoff path.solution path.options.kktTolerance
      path.lagrangeMax = path.penalty.dualNorm
        ((path.fullGradient (path.design.dot path.solution)).add
          (path.ridgeGradient path.solution lagrange)) / path.options.alpha ∧
      ((∃ group < path.groups, path.penalty.isUnpenalized group = false ∧
          cutoff < path.solution.rowNorm group) →
        lagrange * (1 - path.options.kktTolerance) ≤ path.lagrangeMax) ∧
      ((∀ group < path.groups, path.penalty.isUnpenalized group = false →
          ¬ cutoff < path.solution.rowNorm group) →
        path.lagrangeMax ≤ lagrange * (1 + path.options.kktTolerance)) := by
  obtain ⟨_, _, _, _, _, _, built⟩ := history.built
  have fresh := build_fresh built
  have trace := history.trace
  have same := trace.sameModel
  have wellFormed := same.wellFormed fresh.wellFormed
  have alpha_pos := wellFormed.alpha_pos
  have coherent := trace.coherent fresh.wellFormed fresh.coherent
  rw [Option.or_none] at coherent
  have gradientAt : ∀ lagrange, lastCommitted events = none ∨ lastCommitted events = some lagrange →
      path.gradient = (path.fullGradient (path.design.dot path.solution)).add
        (path.ridgeGradient path.solution lagrange) := by
    intro lagrange last
    rw [← coherent.predictor]
    exact coherent.gradient lagrange last
  refine ⟨fun unmoved => ?_, fun none => ?_, fun lagrange last => ⟨?_, ?_, ?_⟩⟩
  · obtain ⟨lagrange, last⟩ : ∃ lagrange,
        lastCommitted events = none ∨ lastCommitted events = some lagrange := by
      cases lastCommitted events with
      | none => exact ⟨1, .inl rfl⟩
      | some lagrange => exact ⟨lagrange, .inr rfl⟩
    apply same.lagrangeMax
    rw [gradientAt lagrange last, unmoved, same.gradientAt, ← fresh.predictor]
    exact (fresh.coherent.gradient lagrange (.inl rfl)).symm
  · have uncommitted : commits events = [] := List.getLast?_eq_none_iff.1 none
    exact same.lagrangeMax (trace.sameFit uncommitted).gradient
  · rw [← gradientAt lagrange (.inr last)]
    rfl
  · rintro ⟨group, bound, penalized, active⟩
    obtain ⟨positive, certified⟩ := trace.certified fresh.wellFormed last
    have gauge := (certified.gauge wellFormed positive.le (gradientAt lagrange (.inr last)) bound
      penalized).1 active
    have below := gauge.trans (gauge_le_lagrangeMax alpha_pos bound penalized)
    rw [mul_assoc] at below
    exact le_of_mul_le_mul_left below alpha_pos
  · intro inactive
    obtain ⟨positive, certified⟩ := trace.certified fresh.wellFormed last
    have tolerance_pos : 0 < path.options.kktTolerance :=
      same.options ▸ fresh.options.kktTolerance.1
    rw [lagrangeMax, div_le_iff₀' alpha_pos, Penalty.dualNorm_le_iff, ← mul_assoc]
    refine ⟨by positivity, fun group bound penalized => ?_⟩
    exact ((certified.gauge wellFormed positive.le (gradientAt lagrange (.inr last)) bound
      penalized).2 (inactive group bound penalized)).le

end

/-! One coefficient. -/

theorem unit_fit {lagrange : ℝ} (positive : 0 < lagrange) (below : lagrange ≤ 100 / 101) :
    let path : Path ℝ := unitPath 1
    lastCommitted (path.fitEvents (some [lagrange])) = some lagrange ∧
      (path.fit (some [lagrange])).2.solution = Mat.ofFn 1 1 fun _ _ => 1 - lagrange := by
  intro path
  obtain ⟨-, trial, second, -, solution, attempted, -⟩ := unit_expands positive below
  have valued : path.fitValue path.lagrangeMax lagrange =
      (.ok (((path.screen 1 lagrange).expanded lagrange trial.violators).certifiedStep lagrange 2
        second), ((path.screen 1 lagrange).expanded lagrange trial.violators).commit second) := by
    rw [unit_lagrangeMax 1, fitValue, attempts, attempted]
  have run := fit_of_value positive valued
  refine ⟨?_, ?_⟩
  · rw [lastCommitted, commits_fit path [lagrange] run]
    rfl
  · rw [run]
    exact solution

theorem history_lagrangeMax_unit :
    let path : Path ℝ := unitPath 1
    let events := [] ++ path.fitEvents (some [1 / 2])
    let reached := (path.fit (some [1 / 2])).2
    History path events reached ∧ lastCommitted events = some (1 / 2) ∧
      1 / 2 * (1 - reached.options.kktTolerance) ≤ reached.lagrangeMax := by
  intro path events reached
  obtain ⟨last, solution⟩ := unit_fit one_half_pos (by norm_num)
  have history : History path events reached := (History.build (build_unit 1)).fit _
  have model := (unit_model 1).sameModel history.trace.sameModel
  have norm : reached.solution.rowNorm 0 = 1 / 2 := by
    rw [solution]
    norm_num [Mat.rowNorm, Mat.get_ofFn, Real.sqrt_mul_self]
  have active : Optimality.activeCutoff reached.solution reached.options.kktTolerance <
      reached.solution.rowNorm 0 := by
    have rows : reached.solution.rows = 1 := by rw [solution]; rfl
    have total : Scalar.sum reached.solution.rowNorms = 1 / 2 := by
      simp [Mat.rowNorms, rows, norm]
    rw [Optimality.activeCutoff, larger_real, total, norm, model.kkt]
    norm_num
  obtain ⟨-, -, after⟩ := history_lagrangeMax history
  refine ⟨history, last, (after _ last).2.1 ⟨0, ?_, ?_, active⟩⟩
  · rw [model.groups]
    exact one_pos
  · rw [model.penalty]
    simp [unitPenalty, Penalty.isUnpenalized, Penalty.l1At, IsZero]

/-- On a path as it was built the largest Lagrange value of interest is one. After a run to one half it
is one half, at which the coefficient is not zero. -/
theorem lagrangeMax_drifts :
    let path : Path ℝ := unitPath 1
    let reached := (path.fit (some [1 / 2])).2
    Path.build unitLoss unitDesign #[1] #[0] none path.options = .ok path ∧
      path.lagrangeMax = 1 ∧ reached.lagrangeMax = 1 / 2 ∧ reached.solution.get 0 0 = 1 / 2 := by
  intro path reached
  obtain ⟨last, solution⟩ := unit_fit one_half_pos (by norm_num)
  have history : History path ([] ++ path.fitEvents (some [1 / 2])) reached :=
    (History.build (build_unit 1)).fit _
  have model := (unit_model 1).sameModel history.trace.sameModel
  have fresh := unit_fresh 1
  have coherent := history.trace.coherent fresh.wellFormed fresh.coherent
  have gradient : reached.gradient = Mat.ofFn 1 1 fun _ _ => 1 - 1 / 2 - 1 := by
    rw [coherent.gradient (1 / 2) (.inr (congrArg (·.or none) last)), coherent.predictor, solution]
    exact model.gradientOf _
  refine ⟨build_unit 1, unit_lagrangeMax 1, ?_, ?_⟩
  · have norm : reached.penalty.dualNorm reached.gradient = |1 - 1 / 2 - 1| := by
      rw [gradient, model.penalty]
      exact unit_dualNorm _
    rw [lagrangeMax, norm, model.alpha]
    norm_num
  · rw [solution, Mat.get_ofFn _ one_pos one_pos]
    norm_num

end Path

end GroupLasso
