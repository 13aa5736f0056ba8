import GroupLasso.Diagnostics
import GroupLasso.Optimality
import GroupLasso.Restriction
import GroupLasso.Screening

/-!
The state of a regularization path: a model, its settings, and the current solution with its gradient
and linear predictor.
-/

namespace GroupLasso

open Scalar

structure Path (α : Type) where
  loss : Loss α
  design : Design α
  /-- The weights, at Lagrange value one. -/
  penalty : Penalty α
  /-- Coefficients of the ridge term before they are scaled. -/
  ridgeParameter : Mat α
  options : PathOptions α
  solution : Mat α
  /-- The gradient of loss and ridge term at the solution. -/
  gradient : Mat α
  predictor : Mat α
  step : α
  /-- The groups that were ever candidates, once there were any. -/
  everActive : Option Mask
  log : DiagnosticLog α

namespace Path

variable {α : Type} [Scalar α]

def shape (path : Path α) : Shape := path.penalty.shape

def groups (path : Path α) : Nat := path.penalty.groups

def fullGradient (path : Path α) (predictor : Mat α) : Mat α :=
  path.design.adjoint (path.loss.gradient predictor)

def ridgeDiag (path : Path α) (lagrange : α) : Mat α :=
  Restriction.ridgeDiag path.ridgeParameter path.penalty.penalizedMask lagrange path.options.alpha

/-- The gradient of the ridge term, which is zero for a pure sparse-group penalty. -/
def ridgeGradient (path : Path α) (solution : Mat α) (lagrange : α) : Mat α :=
  if 1 ≤ path.options.alpha then Mat.zero solution.rows solution.cols
  else (path.ridgeDiag lagrange).scaleEntries solution

/-- The least Lagrange value at which every penalized group is zero at the current gradient. -/
def lagrangeMax (path : Path α) : α := path.penalty.dualNorm path.gradient / path.options.alpha

def strongSet (path : Path α) (current next : α) (gradient : Mat α) : StrongSet :=
  Screening.strongSet path.penalty.l1 path.penalty.l2 current next gradient path.options.slope

def check (path : Path α) (gradient solution : Mat α) (lagrange : α) : List Optimality :=
  Optimality.check gradient solution path.penalty.l1 path.penalty.l2 lagrange
    path.options.kktTolerance

def violators (path : Path α) (gradient solution : Mat α) (lagrange : α) : List Nat :=
  Mask.toIndices ((path.check gradient solution lagrange).map Optimality.isViolation)

def everActiveMask (path : Path α) : Mask := path.everActive.getD (Mask.empty path.groups)

/-- Adds groups to the ever-active ones; those out of range are ignored. -/
def markEverActive (path : Path α) (groups : List Nat) : Path α :=
  { path with everActive := some (path.everActiveMask.insertAll groups) }

/-- The groups of the restricted problem: the ever-active ones and the unpenalized ones. -/
def candidates (path : Path α) : List Nat :=
  Mask.toIndices
    (path.everActiveMask.union (Mask.ofIndices path.penalty.unpenalized path.groups))

def record (path : Path α) (kind : DiagnosticKind) (lagrange : Option α)
    (detail : DiagnosticDetail α) : Path α :=
  { path with log := path.log.push ⟨kind, lagrange, detail⟩ }

def restrictedPenalty (path : Path α) (subset : List Nat) : Except (Failure α) (Penalty α) :=
  (path.penalty.withLagrange 1).restrict subset

/-! Operations on matrices that are given from outside, with no answer when they do not fit. -/

def fullGradient? (path : Path α) (predictor : Mat α) : Option (Mat α) := do
  path.design.adjoint? (← path.loss.gradient? predictor)

def ridgeGradient? (path : Path α) (solution : Mat α) (lagrange : α) : Option (Mat α) :=
  if 1 ≤ path.options.alpha ∨ path.ridgeParameter.Covers solution.rows solution.cols then
    some (path.ridgeGradient solution lagrange)
  else none

def strongSet? (path : Path α) (current next : α) (gradient : Mat α) : Option StrongSet :=
  Screening.strongSet? path.penalty.l1 path.penalty.l2 current next gradient path.options.slope

def check? (path : Path α) (gradient solution : Mat α) (lagrange : α)
    (penalty : Option (Penalty α)) : Option (List Optimality) :=
  let penalty := penalty.getD path.penalty
  Optimality.check? gradient solution penalty.l1 penalty.l2 lagrange path.options.kktTolerance

end Path

end GroupLasso
