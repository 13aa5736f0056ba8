import GroupLasso.Path.Basic
import GroupLasso.ProximalGradient

/-!
The problem of a path restricted to some of its groups, solved from the current solution.
-/

namespace GroupLasso

structure Subsolution (α : Type) where
  /-- One row for each candidate. -/
  solution : Mat α
  /-- The gradient of loss and ridge term, one row for each candidate. -/
  gradient : Mat α
  predictor : Mat α
  step : α
  candidates : Mask

namespace Path

variable {α : Type} [Scalar α]

def restrictTo (path : Path α) (candidates : List Nat) (lagrange : α) :
    Except (Failure α) (RestrictedProblem α) := do
  let problem ← Restriction.problem path.design path.loss (path.options.alpha * lagrange)
    path.penalty.l1 path.penalty.l2 candidates
  if candidates.isEmpty then return problem
  match Restriction.ridge path.ridgeParameter path.penalty.penalizedMask lagrange
      path.options.alpha candidates with
  | some ridge => return { problem with smooth := ← problem.smooth.withRidge ridge }
  | none => return problem

/-- What an empty list of candidates leaves: no coefficients and a zero predictor. -/
def emptySubsolution (path : Path α) (problem : RestrictedProblem α) : Subsolution α where
  solution := Mat.zero 0 problem.smooth.shape.cols
  gradient := Mat.zero 0 problem.smooth.shape.cols
  predictor := Mat.zero path.loss.shape.rows path.loss.shape.cols
  step := path.step
  candidates := problem.candidates

/-- Solves over the candidates at a Lagrange value, from the current solution and, unless the
options have a step, from the step used last. Without candidates no solver runs. -/
def solveSubproblem (path : Path α) (candidates : List Nat) (lagrange : α)
    (options : SolveOptions α) : Except (Failure α) (Subsolution α) := do
  let problem ← path.restrictTo candidates lagrange
  if candidates.isEmpty then return path.emptySubsolution problem
  let fresh ← Problem.ofPenalty problem.smooth.smooth problem.penalty
  let warm ← fresh.warmStart (path.solution.selectRows candidates)
  let step := options.initialStep.getD path.step
  let (result, solved) := warm.solve { options with initialStep := some step }
  let solution ← result
  return {
    solution
    gradient := problem.smooth.gradient solution
    predictor := problem.smooth.design.dot solution
    step := solved.step
    candidates := problem.candidates }

end Path

end GroupLasso
