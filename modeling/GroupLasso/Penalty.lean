import GroupLasso.Failure
import GroupLasso.Gauge
import GroupLasso.IndexSet
import GroupLasso.Mat.Algebra

/-!
The sparse-group penalty `λ Σ_g (l1_g ‖β_g‖₁ + l2_g ‖β_g‖₂)` over the rows `β_g` of a coefficient matrix:
its value, its proximal map and the dual norm of a gradient.
-/

namespace GroupLasso

open Scalar

/-- Weights of the groups and the Lagrange value. A group with both weights zero is unpenalized. -/
structure Penalty (α : Type) where
  shape : Shape
  l1 : Array α
  l2 : Array α
  lagrange : α

namespace Penalty

variable {α : Type} [Scalar α]

def validateWeights (name : String) (weights : Array α) (groups : Nat) :
    Except (Failure α) Unit := do
  Failure.expectLength groups weights.size (name ++ " vs number of groups")
  match weights.find? fun weight => ¬ IsFiniteNonneg weight with
  | some weight => throw (.invalidWeights (.penaltyWeight name weight))
  | none => return

def ofWeights (shape : Shape) (l1 l2 : Array α) (lagrange : α) :
    Except (Failure α) (Penalty α) := do
  validateWeights "l1_weight" l1 shape.rows
  validateWeights "l2_weight" l2 shape.rows
  unless IsFiniteNonneg lagrange do
    throw (.invalidWeights (.lagrange lagrange))
  return ⟨shape, l1, l2, lagrange⟩

def uniform (shape : Shape) (l1 l2 lagrange : α) : Except (Failure α) (Penalty α) :=
  ofWeights shape (Array.replicate shape.rows l1) (Array.replicate shape.rows l2) lagrange

def groups (penalty : Penalty α) : Nat := penalty.shape.rows

def l1At (penalty : Penalty α) (group : Nat) : α := penalty.l1.getD group 0

def l2At (penalty : Penalty α) (group : Nat) : α := penalty.l2.getD group 0

/-- The same weights at another Lagrange value, which is not checked. -/
def withLagrange (penalty : Penalty α) (lagrange : α) : Penalty α := { penalty with lagrange }

def isUnpenalized (penalty : Penalty α) (group : Nat) : Bool :=
  IsZero (penalty.l1At group) ∧ IsZero (penalty.l2At group)

def unpenalized (penalty : Penalty α) : List Nat :=
  (List.range penalty.groups).filter penalty.isUnpenalized

def penalizedMask (penalty : Penalty α) : Mask :=
  (List.range penalty.groups).map fun group => !penalty.isUnpenalized group

def value (penalty : Penalty α) (coef : Mat α) : α :=
  penalty.lagrange * sumTo penalty.shape.rows fun group =>
    let sumAbs := sumTo penalty.shape.cols fun col => Scalar.abs (coef.get group col)
    let sumSquares :=
      sumTo penalty.shape.cols fun col => coef.get group col * coef.get group col
    penalty.l1At group * sumAbs + penalty.l2At group * sqrt sumSquares

/-- Factor that shrinks a vector of the given norm by `amount`, to zero when it is no longer than
that. -/
def shrinkage (norm amount : α) : α := if amount < norm then 1 - amount / norm else 0

/-- The minimizer of `½ ‖z - coef‖² + step · penalty z`: entries are soft-thresholded, then each row
is shrunk. -/
def proximal (penalty : Penalty α) (coef : Mat α) (step : α) : Mat α :=
  let thresholded :=
    Mat.ofFn penalty.shape.rows penalty.shape.cols fun group col =>
      softThreshold (coef.get group col) (step * penalty.lagrange * penalty.l1At group)
  let factors := Array.ofFn (n := penalty.shape.rows) fun group =>
    shrinkage (thresholded.rowNorm group) (step * penalty.lagrange * penalty.l2At group)
  Mat.ofFn penalty.shape.rows penalty.shape.cols fun group col =>
    thresholded.get group col * factors.getD group 0

def restrict (penalty : Penalty α) (subset : List Nat) : Except (Failure α) (Penalty α) :=
  match subset.find? (penalty.groups ≤ ·) with
  | some group => .error (.invalidCandidate group penalty.groups)
  | none =>
      ofWeights ⟨subset.length, penalty.shape.cols⟩ (subset.map penalty.l1At).toArray
        (subset.map penalty.l2At).toArray penalty.lagrange

def split (penalty : Penalty α) (gradient : Mat α) (group : Nat) : Gauge.Split α :=
  Gauge.split (gradient.row group) (penalty.l1At group) (penalty.l2At group)

def gauge (penalty : Penalty α) (gradient : Mat α) (group : Nat) : α :=
  (Gauge.gauge (gradient.row group) (penalty.l1At group) (penalty.l2At group)).toScalar

/-- The largest gauge over the penalized groups: the least Lagrange value at which all of them can
be zero in a solution with this gradient. -/
def dualNorm (penalty : Penalty α) (gradient : Mat α) : α :=
  ((List.range penalty.groups).filter fun group => !penalty.isUnpenalized group).foldl
    (fun largest group => larger largest (penalty.gauge gradient group)) 0

/-! The same operations, with no answer when the argument does not fit. -/

def isUnpenalized? (penalty : Penalty α) (group : Nat) : Option Bool :=
  if group < penalty.groups then some (penalty.isUnpenalized group) else none

def value? (penalty : Penalty α) (coef : Mat α) : Option α :=
  if coef.Covers penalty.shape.rows penalty.shape.cols then some (penalty.value coef) else none

def proximal? (penalty : Penalty α) (coef : Mat α) (step : α) : Option (Mat α) :=
  if coef.Covers penalty.shape.rows penalty.shape.cols then some (penalty.proximal coef step)
  else none

def split? (penalty : Penalty α) (gradient : Mat α) (group : Nat) : Option (Gauge.Split α) :=
  if group < penalty.groups ∧ (gradient.cols = 0 ∨ group < gradient.rows) then
    some (penalty.split gradient group)
  else none

def dualNorm? (penalty : Penalty α) (gradient : Mat α) : Option α :=
  if gradient.cols = 0 ∨
      ∀ group < penalty.groups, penalty.isUnpenalized group ∨ group < gradient.rows then
    some (penalty.dualNorm gradient)
  else none

end Penalty

end GroupLasso
