import GroupLasso.Proofs.Trial

/-!
Work on one Lagrange value. A round preserves the model, and either commits a solution that the full
problem certifies or keeps the one before; so do the rounds of an attempt and the attempts that the
policy makes.
-/

namespace GroupLasso

open Scalar

theorem Screening.mem_strongSet {l1 l2 : Array ℝ} {current next slope : ℝ} {gradient : Mat ℝ}
    {group : Nat} : group ∈ (strongSet l1 l2 current next gradient slope).indices ↔
      group < gradient.rows ∧ Gauge.inside (gradient.row group) (threshold current next slope)
        (l1.getD group 0) (l2.getD group 0) = false := by
  rw [StrongSet.indices, Mask.mem_toIndices]
  by_cases bound : group < gradient.rows <;> simp [strongSet, Mask.contains, bound]

namespace Path

/-- The model and the settings, which running a path never changes. -/
structure SameModel {α : Type} (path reached : Path α) : Prop where
  loss : reached.loss = path.loss
  design : reached.design = path.design
  penalty : reached.penalty = path.penalty
  ridgeParameter : reached.ridgeParameter = path.ridgeParameter
  options : reached.options = path.options

theorem SameModel.refl {α : Type} (path : Path α) : SameModel path path :=
  ⟨rfl, rfl, rfl, rfl, rfl⟩

theorem SameModel.trans {α : Type} {path middle reached : Path α}
    (first : SameModel path middle) (second : SameModel middle reached) : SameModel path reached :=
  ⟨second.loss.trans first.loss, second.design.trans first.design,
    second.penalty.trans first.penalty, second.ridgeParameter.trans first.ridgeParameter,
    second.options.trans first.options⟩

section
variable {path middle reached : Path ℝ}

theorem SameModel.wellFormed (same : SameModel path reached) (wellFormed : path.WellFormed) :
    reached.WellFormed := by
  refine ⟨?_, ?_, ?_, ?_, ?_, ?_⟩
  · rw [same.loss, same.design]
    exact wellFormed.outputs
  · rw [same.penalty, same.design]
    exact wellFormed.inputs
  · rw [same.penalty]
    exact wellFormed.weights
  · rw [same.ridgeParameter, same.penalty]
    exact wellFormed.ridge
  · rw [same.options]
    exact wellFormed.alpha_pos
  · rw [same.options]
    exact wellFormed.alpha_le

theorem SameModel.certifiedAt (same : SameModel path reached) {lagrange : ℝ} {solution : Mat ℝ} :
    reached.CertifiedAt lagrange solution ↔ path.CertifiedAt lagrange solution := by
  simp only [CertifiedAt, shape, fullGradient, ridgeGradient, ridgeDiag, same.loss, same.design,
    same.penalty, same.ridgeParameter, same.options]

theorem SameModel.gradientAt (same : SameModel path reached) (solution : Mat ℝ) (lagrange : ℝ) :
    (reached.fullGradient (reached.design.dot solution)).add
        (reached.ridgeGradient solution lagrange) =
      (path.fullGradient (path.design.dot solution)).add (path.ridgeGradient solution lagrange) := by
  simp only [fullGradient, ridgeGradient, ridgeDiag, same.loss, same.design, same.penalty,
    same.ridgeParameter, same.options]

theorem SameModel.lagrangeMax (same : SameModel path reached)
    (gradient : reached.gradient = path.gradient) : reached.lagrangeMax = path.lagrangeMax := by
  rw [Path.lagrangeMax, Path.lagrangeMax, same.penalty, same.options, gradient]

end

structure StepFrom (path : Path ℝ) (before : Mat ℝ) (lagrange : ℝ) (step : PathStep ℝ) : Prop where
  lagrange_eq : step.lagrange = lagrange
  active : step.active = activeGroups step.solution
  certified : step.status = .converged → path.CertifiedAt lagrange step.solution
  kept : step.status = .skipped → step.solution = before

/-- What is left after working on one Lagrange value: the model is the same, and the solution is that
of the step, or the old one when there is none. -/
structure Advances (path : Path ℝ) (lagrange : ℝ)
    (result : Except (Failure ℝ) (PathStep ℝ) × Path ℝ) : Prop where
  model : SameModel path result.2
  failed : ∀ failure, result.1 = .error failure → result.2.solution = path.solution
  stepped : ∀ step, result.1 = .ok step → path.StepFrom path.solution lagrange step
  reached : ∀ step, result.1 = .ok step → result.2.solution = step.solution

section
variable {path middle : Path ℝ} {lagrange : ℝ}
  {result : Except (Failure ℝ) (PathStep ℝ) × Path ℝ}

theorem Advances.of_error {failure : Failure ℝ} (same : SameModel path middle)
    (solution : middle.solution = path.solution) :
    Advances path lagrange (.error failure, middle) :=
  ⟨same, fun _ _ => solution, nofun, nofun⟩

theorem Advances.after (same : SameModel path middle) (solution : middle.solution = path.solution)
    (advances : Advances middle lagrange result) : Advances path lagrange result := by
  refine ⟨same.trans advances.model, ?_, ?_, advances.reached⟩
  · intro failure failed
    rw [advances.failed failure failed, solution]
  · intro step stepped
    have from_middle := advances.stepped step stepped
    refine ⟨from_middle.lagrange_eq, from_middle.active, ?_, ?_⟩
    · intro converged
      exact same.certifiedAt.1 (from_middle.certified converged)
    · intro skipped
      rw [from_middle.kept skipped, solution]

theorem sameModel_respond {α : Type} [Scalar α] (path : Path α) (lagrange : α)
    (options : SolveOptions α) (trial : Trial α) :
    SameModel path (path.respond lagrange options trial).1 ∧
      (path.respond lagrange options trial).1.solution = path.solution := by
  unfold respond
  by_cases none : trial.newcomers.isEmpty
  · simp only [if_pos none]
    exact ⟨⟨rfl, rfl, rfl, rfl, rfl⟩, rfl⟩
  · simp only [if_neg none]
    exact ⟨⟨rfl, rfl, rfl, rfl, rfl⟩, rfl⟩

theorem commit_advances {options : SolveOptions ℝ} {trial : Trial ℝ} (wellFormed : path.WellFormed)
    (nonneg : 0 ≤ lagrange) (tried : path.trial lagrange options = .ok trial)
    (passed : trial.violators.isEmpty) (round : Nat) :
    Advances path lagrange (.ok (path.certifiedStep lagrange round trial), path.commit trial) := by
  refine ⟨⟨rfl, rfl, rfl, rfl, rfl⟩, nofun, ?_, ?_⟩
  · rintro _ ⟨⟩
    exact ⟨rfl, rfl, fun _ => trial_certified wellFormed nonneg tried passed, nofun⟩
  · rintro _ ⟨⟩
    rfl

theorem round_advances (wellFormed : path.WellFormed) (nonneg : 0 ≤ lagrange) {retries : Nat}
    (again : ∀ fewer, retries = fewer + 1 → ∀ (path : Path ℝ) (round : Nat)
      (options : SolveOptions ℝ), path.WellFormed →
        Advances path lagrange (rounds lagrange fewer round options path))
    (round : Nat) (options : SolveOptions ℝ) :
    Advances path lagrange (rounds lagrange retries round options path) := by
  unfold rounds
  cases tried : path.trial lagrange options with
  | error failure => exact .of_error (.refl path) rfl
  | ok trial =>
      by_cases passed : trial.violators.isEmpty
      · simp only [if_pos passed]
        exact commit_advances wellFormed nonneg tried passed round
      · simp only [if_neg passed]
        cases retries with
        | zero => exact .of_error (.refl path) rfl
        | succ fewer =>
            obtain ⟨same, solution⟩ := sameModel_respond path lagrange options trial
            exact .after same solution (again fewer rfl _ _ _ (same.wellFormed wellFormed))

theorem rounds_advances (wellFormed : path.WellFormed) (nonneg : 0 ≤ lagrange) (retries round : Nat)
    (options : SolveOptions ℝ) :
    Advances path lagrange (rounds lagrange retries round options path) := by
  induction retries generalizing path round options with
  | zero =>
      refine round_advances wellFormed nonneg ?_ round options
      rintro _ ⟨⟩
  | succ retries ih =>
      refine round_advances wellFormed nonneg ?_ round options
      rintro _ ⟨⟩ path round options wellFormed
      exact ih wellFormed round options

theorem attempt_advances (wellFormed : path.WellFormed) (current : ℝ) (nonneg : 0 ≤ lagrange)
    (options : SolveOptions ℝ) : Advances path lagrange (path.attempt current lagrange options) := by
  have same : SameModel path (path.screen current lagrange) := ⟨rfl, rfl, rfl, rfl, rfl⟩
  exact .after same rfl (rounds_advances (same.wellFormed wellFormed) nonneg _ 1 options)

theorem skip_advances (path : Path ℝ) (lagrange : ℝ) :
    Advances path lagrange (.ok ((path.record .skip (some lagrange) .skip).skippedStep lagrange),
      path.record .skip (some lagrange) .skip) := by
  refine ⟨⟨rfl, rfl, rfl, rfl, rfl⟩, nofun, ?_, ?_⟩
  · rintro _ ⟨⟩
    exact ⟨rfl, rfl, nofun, fun _ => rfl⟩
  · rintro _ ⟨⟩
    rfl

theorem policy_advances (wellFormed : path.WellFormed) (current : ℝ) (nonneg : 0 ≤ lagrange)
    {relaxations : Nat}
    (again : ∀ fewer, relaxations = fewer + 1 → ∀ (path : Path ℝ) (options : SolveOptions ℝ),
      path.WellFormed → Advances path lagrange (attempts current lagrange fewer options path))
    (options : SolveOptions ℝ) :
    Advances path lagrange (attempts current lagrange relaxations options path) := by
  have attempted := attempt_advances wellFormed current nonneg options
  unfold attempts
  cases outcome : path.attempt current lagrange options with
  | mk result middle =>
      rw [outcome] at attempted
      cases result with
      | ok step => exact attempted
      | error failure =>
          have solution := attempted.failed failure rfl
          by_cases final : !failure.isConvergenceFailure
          · simp only [if_pos final]
            exact attempted
          · simp only [if_neg final]
            cases policy : middle.options.nonConvergence with
            | abort => exact attempted
            | skip => exact .after attempted.model solution (skip_advances middle lagrange)
            | relax =>
                cases relaxations with
                | zero => exact attempted
                | succ fewer =>
                    let recorded := middle.record .relaxation (some lagrange)
                      (.relaxation (relax options).tolerance (relax options).maxIterations)
                    have same : SameModel middle recorded := ⟨rfl, rfl, rfl, rfl, rfl⟩
                    have relaxed := again fewer rfl recorded (relax options)
                      (same.wellFormed (attempted.model.wellFormed wellFormed))
                    exact .after attempted.model solution (.after same rfl relaxed)

theorem attempts_advances (wellFormed : path.WellFormed) (current : ℝ) (nonneg : 0 ≤ lagrange)
    (relaxations : Nat) (options : SolveOptions ℝ) :
    Advances path lagrange (attempts current lagrange relaxations options path) := by
  induction relaxations generalizing path options with
  | zero =>
      refine policy_advances wellFormed current nonneg ?_ options
      rintro _ ⟨⟩
  | succ relaxations ih =>
      refine policy_advances wellFormed current nonneg ?_ options
      rintro _ ⟨⟩ path options wellFormed
      exact ih wellFormed options

theorem fitValue_advances (wellFormed : path.WellFormed) (current : ℝ) (nonneg : 0 ≤ lagrange) :
    Advances path lagrange (path.fitValue current lagrange) :=
  attempts_advances wellFormed current nonneg _ _

end

theorem fitValue_of_trial {path : Path ℝ} {current next : ℝ} {trial : Trial ℝ}
    (tried : (path.screen current next).trial next path.options.solve = .ok trial)
    (passed : trial.violators.isEmpty) : path.fitValue current next =
      (.ok ((path.screen current next).certifiedStep next 1 trial),
        (path.screen current next).commit trial) := by
  have attempted : path.attempt current next path.options.solve =
      (.ok ((path.screen current next).certifiedStep next 1 trial),
        (path.screen current next).commit trial) := by
    unfold attempt rounds
    rw [tried]
    simp only [passed, if_true]
  rw [fitValue, attempts, attempted]

theorem fitValue_of_violators {path : Path ℝ} {current next : ℝ} {trial : Trial ℝ}
    (none : path.options.maxKktRetries = 0)
    (tried : (path.screen current next).trial next path.options.solve = .ok trial)
    (failed : ¬ trial.violators.isEmpty) : path.fitValue current next =
      (.error (.kktRetriesExceeded next 0), path.screen current next) := by
  have attempted : path.attempt current next path.options.solve =
      (.error (.kktRetriesExceeded next 0), path.screen current next) := by
    have limit : (path.screen current next).options.maxKktRetries = 0 := none
    rw [attempt, none, rounds, tried]
    simp only [if_neg failed, limit]
  rw [fitValue, attempts, attempted]
  rfl

end Path

end GroupLasso
