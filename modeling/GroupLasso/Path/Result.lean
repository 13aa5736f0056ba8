import GroupLasso.Diagnostics
import GroupLasso.Mat.Basic

/-!
What a run over a sequence of Lagrange values returns.
-/

namespace GroupLasso

inductive StepStatus where
  | converged
  | skipped
  deriving DecidableEq, Repr

structure PathStep (α : Type) where
  lagrange : α
  solution : Mat α
  active : List Nat
  /-- The number of groups in the last restricted problem. -/
  candidates : Nat
  /-- The number of restricted problems that were solved. -/
  rounds : Nat
  step : α
  status : StepStatus

/-- Whether the first list of candidates was not enough. -/
def PathStep.wasExpanded {α : Type} (step : PathStep α) : Bool := 1 < step.rounds

structure PathResult (α : Type) where
  /-- The least Lagrange value at which every penalized group is zero. -/
  lagrangeMax : α
  steps : List (PathStep α)
  diagnostics : List (Diagnostic α)

namespace PathResult

variable {α : Type}

def lagrange (result : PathResult α) : List α := result.steps.map (·.lagrange)

def solutions (result : PathResult α) : List (Mat α) := result.steps.map (·.solution)

def last? (result : PathResult α) : Option (PathStep α) := result.steps.getLast?

def skipped (result : PathResult α) : Nat := result.steps.countP (·.status == .skipped)

def size (result : PathResult α) : Nat := result.steps.length

def isEmpty (result : PathResult α) : Bool := result.steps.isEmpty

end PathResult

end GroupLasso
