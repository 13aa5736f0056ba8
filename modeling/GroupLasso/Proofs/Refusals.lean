import GroupLasso.Path.Fit
import GroupLasso.Proofs.Failure

/-!
What solving a restricted problem can fail with. The solver runs out of iterations or breaks down, and
nothing on the way to it tells of the checks, which only the rounds around it make.
-/

namespace GroupLasso

open Scalar

namespace Failure

variable {α : Type}

def OfSolver (failure : Failure α) : Prop :=
  (∃ iterations, failure = .notConverged iterations) ∨ ∃ fault, failure = .numerical fault

/-- Failures of a model or of the solver, which do not tell of any checks. -/
def OfModel : Failure α → Prop
  | kktRetriesExceeded .. => False
  | _ => True

theorem OfSolver.ofModel {failure : Failure α} (solver : failure.OfSolver) : failure.OfModel := by
  rcases solver with ⟨_, rfl⟩ | ⟨_, rfl⟩ <;> trivial

theorem raises_expectShape {expected found : Shape} {context : String} :
    Raises OfModel (expectShape expected found context : Except (Failure α) Unit) := by
  unfold expectShape
  split
  · exact raises_ok ()
  · exact raises_error trivial

theorem raises_expectLength {expected found : Nat} {context : String} :
    Raises OfModel (expectLength expected found context : Except (Failure α) Unit) := by
  unfold expectLength
  split
  · exact raises_ok ()
  · exact raises_error trivial

end Failure

open Failure

variable {α : Type} [Scalar α]

theorem Penalty.raises_validateWeights {name : String} {weights : Array α} {groups : Nat} :
    Raises OfModel (validateWeights name weights groups) := by
  refine Raises.bind raises_expectLength fun _ => ?_
  split
  · exact raises_error trivial
  · exact raises_ok ()

theorem Penalty.raises_ofWeights {shape : Shape} {l1 l2 : Array α} {lagrange : α} :
    Raises OfModel (ofWeights shape l1 l2 lagrange) := by
  refine Raises.bind raises_validateWeights fun _ => ?_
  refine Raises.bind raises_validateWeights fun _ => ?_
  split
  · exact raises_ok _
  · exact raises_error trivial

theorem Penalty.raises_restrict {penalty : Penalty α} {subset : List Nat} :
    Raises OfModel (penalty.restrict subset) := by
  unfold restrict
  split
  · exact raises_error trivial
  · exact raises_ofWeights

omit [Scalar α] in
theorem Restriction.raises_candidateMask {candidates : List Nat} {groups : Nat} :
    Raises OfModel (candidateMask candidates groups : Except (Failure α) Mask) := by
  refine Raises.foldlM (fun mask group => ?_) _ _
  unfold addCandidate
  split
  · exact raises_error trivial
  · exact raises_ok _

theorem Path.raises_restrictTo {path : Path α} {candidates : List Nat} {lagrange : α} :
    Raises OfModel (path.restrictTo candidates lagrange) := by
  have problem : Raises OfModel (Restriction.problem path.design path.loss
      (path.options.alpha * lagrange) path.penalty.l1 path.penalty.l2 candidates) := by
    refine Raises.bind Restriction.raises_candidateMask fun _ => ?_
    refine Raises.bind Penalty.raises_ofWeights fun _ => ?_
    refine Raises.bind Penalty.raises_restrict fun _ => ?_
    refine Raises.bind ?_ fun _ => raises_ok _
    exact Raises.bind raises_expectShape fun _ => raises_ok _
  refine Raises.bind problem fun _ => ?_
  split
  · exact raises_ok _
  · split
    · refine Raises.bind ?_ fun _ => raises_ok _
      exact Raises.bind raises_expectShape fun _ => raises_ok _
    · exact raises_ok _

theorem Problem.raises_run {problem : Problem α} {options : SolveOptions α} {budget : Nat}
    {iterate : Iterate α} {step : α} :
    Raises OfSolver (problem.run options budget iterate step).result := by
  induction budget generalizing iterate step with
  | zero => exact raises_error (.inl ⟨_, rfl⟩)
  | succ budget ih =>
      unfold run
      split
      · exact raises_ok _
      · exact raises_error (.inr ⟨_, rfl⟩)
      · exact ih

theorem Problem.raises_solve {problem : Problem α} {options : SolveOptions α} :
    Raises OfSolver (problem.solve options).1 := raises_run

theorem Path.raises_trial {path : Path α} {lagrange : α} {options : SolveOptions α} :
    Raises OfModel (path.trial lagrange options) := by
  refine Raises.bind ?_ fun _ => raises_ok _
  refine Raises.bind raises_restrictTo fun _ => ?_
  split
  · exact raises_ok _
  · refine Raises.bind (Raises.bind raises_expectShape fun _ => raises_ok _) fun _ => ?_
    refine Raises.bind (Raises.bind raises_expectShape fun _ => raises_ok _) fun _ => ?_
    refine Raises.bind ?_ fun _ => raises_ok _
    exact fun failure failed => (Problem.raises_solve failure failed).ofModel

end GroupLasso
