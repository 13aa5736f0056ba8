import GroupLasso.Link
import GroupLasso.Loss.CaseWeights
import GroupLasso.Mat.Algebra

/-!
Poisson loss `Σᵢ wᵢ (exp (ηᵢ + oᵢ) - yᵢ (ηᵢ + oᵢ))`, up to a constant.
-/

namespace GroupLasso

open Scalar

structure Poisson (α : Type) where
  counts : Array α
  offset : Option (Array α)
  weights : Array α

namespace Poisson

variable {α : Type} [Scalar α]

def ofCounts (counts : Array α) : Except (Failure α) (Poisson α) :=
  if counts.all fun count => IsFiniteNonneg count then
    .ok ⟨counts, none, CaseWeights.unit counts.size⟩
  else .error (.invalidWeights .poissonCounts)

def withOffset (loss : Poisson α) (offset : Array α) : Except (Failure α) (Poisson α) := do
  Failure.expectLength loss.counts.size offset.size "Poisson offset"
  return { loss with offset := some offset }

def weighted (loss : Poisson α) (weights : Array α) : Except (Failure α) (Poisson α) := do
  CaseWeights.validate weights loss.counts.size
  return { loss with weights }

def shifted (loss : Poisson α) (eta : Mat α) (row : Nat) : α :=
  match loss.offset with
  | some offset => eta.get row 0 + offset.getD row 0
  | none => eta.get row 0

def value (loss : Poisson α) (eta : Mat α) : α :=
  sumTo loss.counts.size fun row =>
    let shifted := loss.shifted eta row
    loss.weights.getD row 0 * (Link.log.mean shifted - loss.counts.getD row 0 * shifted)

def gradient (loss : Poisson α) (eta : Mat α) : Mat α :=
  Mat.ofFn loss.counts.size 1 fun row _ =>
    loss.weights.getD row 0 * (Link.log.mean (loss.shifted eta row) - loss.counts.getD row 0)

/-- Every read of the value and the gradient lies inside the predictor and the weights. -/
def Reads (loss : Poisson α) (eta : Mat α) : Prop :=
  eta.Covers loss.counts.size 1 ∧ loss.counts.size ≤ loss.weights.size

instance (loss : Poisson α) (eta : Mat α) : Decidable (loss.Reads eta) :=
  inferInstanceAs (Decidable (_ ∧ _))

end Poisson

end GroupLasso
