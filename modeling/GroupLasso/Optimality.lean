import GroupLasso.Gauge
import GroupLasso.Mat.Algebra

/-!
Checks that a solution `β` with smooth gradient `∇f` is optimal for `f` plus a sparse-group penalty,
group by group.

- A zero group needs a gauge of `-∇f_g` of at most the Lagrange value `λ`.
- A nonzero group needs `-∇f_g = λ · l1 · sign β_g + λ · l2 · β_g / ‖β_g‖` on its nonzero entries, so that
  its gauge is `λ`, the first part has the signs of `β_g` and the second its direction.
- An unpenalized group needs a zero gradient.
-/

namespace GroupLasso

open Scalar

inductive Optimality where
  | satisfied
  /-- A zero group whose gradient is outside the dual ball. -/
  | inactive
  /-- A nonzero group whose first part disagrees with the signs of its coefficients. -/
  | activeL1
  /-- A nonzero group whose gauge is below the Lagrange value. -/
  | activeNorm
  /-- A nonzero group whose second part is not along its coefficients. -/
  | activeL2
  deriving DecidableEq, Repr

namespace Optimality

def code : Optimality → Nat
  | satisfied => 0
  | inactive => 2
  | activeL1 => 10
  | activeNorm => 11
  | activeL2 => 12

def isViolation (status : Optimality) : Bool := status != satisfied

variable {α : Type} [Scalar α]

def defaultTolerance : α := 1e-2

/-- A vector scaled to norm one; the zero vector stays zero. -/
def unitVector (vector : List α) (norm : α) : List α :=
  vector.map fun entry => if IsZero norm then 0 else entry / norm

def aligned (part coef : List α) (coefNorm tolerance : α) : Bool :=
  let partNorm := norm part
  if IsZero partNorm ∧ IsZero coefNorm then true
  else
    norm (List.zipWith (· - ·) (unitVector part partNorm) (unitVector coef coefNorm)) ≤ tolerance

/-- Distance, over the nonzero coefficients, of the first part from `λ · l1` times their signs. -/
def signError (part coef : List α) (l1 lagrange : α) : α :=
  norm ((coef.zip part).filterMap fun (entry, share) =>
    if IsZero entry then none else some (share - l1 * sign entry * lagrange))

def checkUnpenalized (gradient : List α) (coefNorm tolerance : α) (active : Bool) : Optimality :=
  if norm gradient ≤ tolerance * larger coefNorm 1 then satisfied
  else if active then activeNorm
  else inactive

def checkInactive (split : Gauge.Split α) (lagrange tolerance : α) : Optimality :=
  if lagrange * (1 + tolerance) ≤ split.radius.toScalar then inactive else satisfied

def checkActive (split : Gauge.Split α) (coef : List α) (coefNorm l1 l2 lagrange tolerance : α) :
    Optimality :=
  if 0 < l2 ∧ ¬ aligned split.l2Part coef coefNorm tolerance then activeL2
  else if tolerance * larger coefNorm 1 < signError split.l1Part coef l1 lagrange then activeL1
  else if split.radius.toScalar < lagrange * (1 - tolerance) then activeNorm
  else satisfied

def checkGroup (gradient coef : List α) (coefNorm l1 l2 lagrange tolerance : α) (active : Bool) :
    Optimality :=
  if IsZero l1 ∧ IsZero l2 then checkUnpenalized gradient coefNorm tolerance active
  else
    let split := Gauge.split (gradient.map (- ·)) l1 l2
    if active then checkActive split coef coefNorm l1 l2 lagrange tolerance
    else checkInactive split lagrange tolerance

/-- A group counts as nonzero when its norm exceeds the tolerance times the sum of all norms, or
times one if that is larger. -/
def activeCutoff (solution : Mat α) (tolerance : α) : α :=
  tolerance * larger (sum solution.rowNorms) 1

def check (gradient solution : Mat α) (l1 l2 : Array α) (lagrange tolerance : α) :
    List Optimality :=
  let cutoff := activeCutoff solution tolerance
  (List.range solution.rows).map fun group =>
    let coefNorm := solution.rowNorm group
    checkGroup (gradient.row group) (solution.row group) coefNorm (l1.getD group 0)
      (l2.getD group 0) lagrange tolerance (cutoff < coefNorm)

/-- The checks of a group read inside the gradient and the weights, between ordered bounds. -/
def CanCheck (gradient : Mat α) (l1 l2 : Array α) (group : Nat) : Prop :=
  group < l1.size ∧ group < l2.size ∧ (gradient.cols = 0 ∨ group < gradient.rows) ∧
    (IsZero (l1.getD group 0) ∧ IsZero (l2.getD group 0) ∨
      Gauge.SplitIsOrdered ((gradient.row group).map (- ·)) (l1.getD group 0) (l2.getD group 0))

instance (gradient : Mat α) (l1 l2 : Array α) (group : Nat) :
    Decidable (CanCheck gradient l1 l2 group) :=
  inferInstanceAs (Decidable (_ ∧ _ ∧ _ ∧ (_ ∨ _)))

def check? (gradient solution : Mat α) (l1 l2 : Array α) (lagrange tolerance : α) :
    Option (List Optimality) :=
  if ∀ group < solution.rows, CanCheck gradient l1 l2 group then
    some (check gradient solution l1 l2 lagrange tolerance)
  else none

end Optimality

end GroupLasso
