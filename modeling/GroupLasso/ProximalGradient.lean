import GroupLasso.Penalty
import GroupLasso.Smooth

/-!
Accelerated proximal gradient for a smooth function plus a sparse-group penalty. The kept iterate
never gets worse, and the step is halved until the quadratic bound at the extrapolated point holds.
-/

namespace GroupLasso

open Scalar

structure Problem (α : Type) where
  smooth : Smooth α
  penalty : Penalty α
  coefs : Mat α
  step : α

namespace Problem

variable {α : Type} [Scalar α]

/-- A search for a step gives up below this step. -/
def minStep : α := 1e-20

def ofPenalty (smooth : Smooth α) (penalty : Penalty α) : Except (Failure α) (Problem α) := do
  Failure.expectShape smooth.shape penalty.shape "penalty vs smooth loss"
  return ⟨smooth, penalty, Mat.zero smooth.shape.rows smooth.shape.cols, 1⟩

def warmStart (problem : Problem α) (coefs : Mat α) : Except (Failure α) (Problem α) := do
  Failure.expectShape problem.smooth.shape coefs.shape "warm start coefficients"
  return { problem with coefs }

def objective (problem : Problem α) (coef : Mat α) : α :=
  problem.smooth.value coef + problem.penalty.value coef

structure Iterate (α : Type) where
  kept : Mat α
  keptObjective : α
  extrapolated : Mat α
  momentum : α
  step : α

def candidate (problem : Problem α) (point gradient : Mat α) (step : α) : Mat α :=
  problem.penalty.proximal (point.addScaled (-step) gradient) step

def bound (value : α) (gradient difference : Mat α) (step : α) : α :=
  value + gradient.inner difference + difference.inner difference / (2 * step)

/-- Whether the smooth function is below the quadratic bound at a candidate, up to rounding. -/
def accepts (problem : Problem α) (point : Mat α) (value : α) (gradient candidate : Mat α)
    (step : α) : Bool :=
  let limit := bound value gradient (candidate.addScaled (-1) point) step
  problem.smooth.value candidate ≤ limit + 1e-12 * Scalar.abs limit

/-- Halves the step until its candidate is accepted, at most `halvings` times and not below the
least step. -/
def search (problem : Problem α) (point : Mat α) (value : α) (gradient : Mat α) :
    Nat → α → Option (Mat α × α)
  | halvings, step =>
      let found := problem.candidate point gradient step
      if problem.accepts point value gradient found step then some (found, step)
      else
        match halvings with
        | 0 => none
        | halvings + 1 =>
            let step := step * 0.5
            if step < minStep then none else problem.search point value gradient halvings step

/-- Halvings that take a step below the least one. -/
def halvingsBelow (step : α) : Nat := ceil ((log step - log minStep) / log 2) + 2

inductive Pass (α : Type) where
  | converged (solution : Mat α) (step : α)
  | failed (fault : SolverFault)
  | next (iterate : Iterate α)

/-- Keeps the better of the old point and the candidate and extrapolates past it. -/
def advance (problem : Problem α) (iterate : Iterate α) (found : Mat α) (step : α) : Iterate α :=
  let foundObjective := problem.objective found
  let improves : Bool := foundObjective ≤ iterate.keptObjective
  let kept := if improves then found else iterate.kept
  let momentum := 0.5 * (1 + sqrt (1 + 4 * iterate.momentum * iterate.momentum))
  let toFound := iterate.momentum / momentum
  let onward := (iterate.momentum - 1) / momentum
  { kept
    keptObjective := if improves then foundObjective else iterate.keptObjective
    extrapolated := Mat.ofFn kept.rows kept.cols fun row col =>
      kept.get row col + toFound * (found.get row col - kept.get row col) +
        onward * (kept.get row col - iterate.kept.get row col)
    momentum
    step }

/-- One pass: search a step at the extrapolated point and stop if its candidate barely moved. -/
def pass (problem : Problem α) (tolerance : α) (iteration : Nat) (iterate : Iterate α) : Pass α :=
  let point := iterate.extrapolated
  let value := problem.smooth.value point
  let gradient := problem.smooth.gradient point
  if ¬ (isFinite value ∧ gradient.allFinite) then .failed .nonFiniteObjective
  else
    match problem.search point value gradient (halvingsBelow iterate.step) iterate.step with
    | none => .failed (.stepCollapsed iteration)
    | some (found, step) =>
        let moved := (found.addScaled (-1) point).frobenius
        if moved ≤ tolerance * larger found.frobenius 1 then .converged found step
        else .next (problem.advance iterate found step)

structure Run (α : Type) where
  result : Except (Failure α) (Mat α)
  coefs : Mat α
  step : α

/-- Runs passes while the budget lasts. `step` is the step of the last accepted candidate; a
breakdown leaves the starting coefficients, and an exhausted budget the best point. -/
def run (problem : Problem α) (options : SolveOptions α) : Nat → Iterate α → α → Run α
  | 0, iterate, step => ⟨.error (.notConverged options.maxIterations), iterate.kept, step⟩
  | budget + 1, iterate, step =>
      match problem.pass options.tolerance (options.maxIterations - (budget + 1)) iterate with
      | .converged solution step => ⟨.ok solution, solution, step⟩
      | .failed fault => ⟨.error (.numerical fault), problem.coefs, step⟩
      | .next iterate => problem.run options budget iterate iterate.step

/-- The requested step or the last one used, and one if that is not finite and positive. -/
def startingStep (problem : Problem α) (options : SolveOptions α) : α :=
  let requested := options.initialStep.getD problem.step
  if IsFinitePos requested then requested else 1

def start (problem : Problem α) (options : SolveOptions α) : Iterate α where
  kept := problem.coefs
  keptObjective := problem.objective problem.coefs
  extrapolated := problem.coefs
  momentum := 1
  step := problem.startingStep options

/-- Solves from the current coefficients. The problem that is returned has the coefficients and the
step that the run left behind, also when it failed. -/
def solve (problem : Problem α) (options : SolveOptions α) :
    Except (Failure α) (Mat α) × Problem α :=
  let finished := problem.run options options.maxIterations (problem.start options) problem.step
  (finished.result, { problem with coefs := finished.coefs, step := finished.step })

end Problem

end GroupLasso
