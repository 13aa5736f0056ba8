import GroupLasso.Penalty
import GroupLasso.Smooth

/-!
A penalized problem over a list of candidate groups only.
-/

namespace GroupLasso

structure RestrictedProblem (α : Type) where
  smooth : Composed α
  penalty : Penalty α
  candidates : Mask

namespace Restriction

variable {α : Type} [Scalar α]

def addCandidate (groups : Nat) (mask : Mask) (group : Nat) : Except (Failure α) Mask :=
  if groups ≤ group ∨ mask.contains group then .error (.invalidCandidate group groups)
  else .ok (mask.insert group)

/-- The mask of a candidate list; refuses the first entry that is out of range or repeated. -/
def candidateMask (candidates : List Nat) (groups : Nat) : Except (Failure α) Mask :=
  candidates.foldlM (addCandidate groups) (Mask.empty groups)

def problem (design : Design α) (loss : Loss α) (lagrange : α) (l1 l2 : Array α)
    (candidates : List Nat) : Except (Failure α) (RestrictedProblem α) := do
  let mask ← candidateMask candidates design.inputShape.rows
  let penalty ← Penalty.ofWeights design.inputShape l1 l2 lagrange
  let restricted ← penalty.restrict candidates
  let smooth ← Composed.ofLoss loss (design.restrict candidates)
  return ⟨smooth, restricted, mask⟩

/-- Ridge coefficients of all groups: the parameter times `1 - alpha`, and times the Lagrange value
on penalized groups. -/
def ridgeDiag (parameter : Mat α) (penalized : Mask) (lagrange alpha : α) : Mat α :=
  Mat.ofFn parameter.rows parameter.cols fun group col =>
    parameter.get group col * (1 - alpha) * if penalized.contains group then lagrange else 1

/-- The ridge term of the candidates; there is none for a pure sparse-group penalty. -/
def ridge (parameter : Mat α) (penalized : Mask) (lagrange alpha : α) (candidates : List Nat) :
    Option (Ridge α) :=
  if 1 ≤ alpha then none
  else some ⟨(ridgeDiag parameter penalized lagrange alpha).selectRows candidates⟩

/-- The ridge coefficients, or no answer when the mask is shorter than the parameter. -/
def ridgeDiag? (parameter : Mat α) (penalized : Mask) (lagrange alpha : α) : Option (Mat α) :=
  if parameter.cols = 0 ∨ parameter.rows ≤ penalized.length then
    some (ridgeDiag parameter penalized lagrange alpha)
  else none

def ridge? (parameter : Mat α) (penalized : Mask) (lagrange alpha : α) (candidates : List Nat) :
    Option (Option (Ridge α)) :=
  if 1 ≤ alpha then some none
  else do
    let diag ← ridgeDiag? parameter penalized lagrange alpha
    return some ⟨← diag.selectRows? candidates⟩

end Restriction

end GroupLasso
