import GroupLasso.Loss.CaseWeights
import GroupLasso.Mat.Algebra

/-!
Squared-error loss `½ Σᵢ wᵢ Σₖ (ηᵢₖ - yᵢₖ)²` for one or more responses.
-/

namespace GroupLasso

open Scalar

structure Gaussian (α : Type) where
  response : Mat α
  weights : Array α

namespace Gaussian

variable {α : Type} [Scalar α]

def ofResponse (response : Mat α) : Gaussian α := ⟨response, CaseWeights.unit response.rows⟩

def weighted (response : Mat α) (weights : Array α) : Except (Failure α) (Gaussian α) := do
  CaseWeights.validate weights response.rows
  return ⟨response, weights⟩

def value (loss : Gaussian α) (eta : Mat α) : α :=
  0.5 * sumTo loss.response.cols fun col => sumTo loss.response.rows fun row =>
    let residual := eta.get row col - loss.response.get row col
    loss.weights.getD row 0 * residual * residual

def gradient (loss : Gaussian α) (eta : Mat α) : Mat α :=
  Mat.ofFn loss.response.rows loss.response.cols fun row col =>
    loss.weights.getD row 0 * (eta.get row col - loss.response.get row col)

/-- Every read of the value and the gradient lies inside the predictor and the weights. -/
def Reads (loss : Gaussian α) (eta : Mat α) : Prop :=
  eta.Covers loss.response.rows loss.response.cols ∧
    (loss.response.cols = 0 ∨ loss.response.rows ≤ loss.weights.size)

instance (loss : Gaussian α) (eta : Mat α) : Decidable (loss.Reads eta) :=
  inferInstanceAs (Decidable (_ ∧ _))

end Gaussian

end GroupLasso
