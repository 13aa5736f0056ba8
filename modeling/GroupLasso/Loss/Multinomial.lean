import GroupLasso.Loss.CaseWeights
import GroupLasso.Mat.Algebra

/-!
Multinomial loss `Σᵢ wᵢ (Nᵢ · log Σₖ exp ηᵢₖ - Σₖ yᵢₖ ηᵢₖ)` with `Nᵢ = Σₖ yᵢₖ`. Exponentials are taken
of differences to the row maximum, so that none overflows.
-/

namespace GroupLasso

open Scalar

structure Multinomial (α : Type) where
  counts : Mat α
  weights : Array α

namespace Multinomial

variable {α : Type} [Scalar α]

/-- The first count, by columns, that is not finite and non-negative. -/
def badCount? (counts : Mat α) : Option (WeightFault α) :=
  (List.range counts.cols).findSome? fun col => (List.range counts.rows).findSome? fun row =>
    let count := counts.get row col
    if IsFiniteNonneg count then none else some (.multinomialCount count row col)

def ofCounts (counts : Mat α) : Except (Failure α) (Multinomial α) :=
  match badCount? counts with
  | some fault => .error (.invalidWeights fault)
  | none => .ok ⟨counts, CaseWeights.unit counts.rows⟩

def ofLabels (labels : List Nat) (classes : Nat) : Except (Failure α) (Multinomial α) :=
  match labels.find? (classes ≤ ·) with
  | some label =>
      .error (.lengthMismatch "multinomial label vs number of classes" classes (label + 1))
  | none => ofCounts (Mat.ofFn labels.length classes fun row col =>
      if labels.getD row 0 = col then 1 else 0)

def weighted (counts : Mat α) (weights : Array α) : Except (Failure α) (Multinomial α) := do
  CaseWeights.validate weights counts.rows
  let loss ← ofCounts counts
  return { loss with weights }

/-- The largest entry of a row; the logarithm of zero for a row without entries. -/
def rowMax (entries : List α) : α :=
  match entries with
  | [] => log 0
  | first :: rest => rest.foldl larger first

/-- A row's maximum and the sum of the exponentials of the differences to it. -/
structure RowScale (α : Type) where
  max : α
  expSum : α

def rowScale (eta : Mat α) (row : Nat) : RowScale α :=
  let max := rowMax (eta.row row)
  ⟨max, sumTo eta.cols fun col => exp (eta.get row col - max)⟩

def probabilities (eta : Mat α) : Mat α :=
  let scales := Array.ofFn (n := eta.rows) fun row => rowScale eta row
  Mat.ofFn eta.rows eta.cols fun row col =>
    let scale := scales.getD row ⟨0, 0⟩
    exp (eta.get row col - scale.max) / scale.expSum

def total (loss : Multinomial α) (row : Nat) : α :=
  sumTo loss.counts.cols fun col => loss.counts.get row col

def caseLoss (loss : Multinomial α) (eta : Mat α) (row : Nat) : α :=
  let scale := rowScale eta row
  let logSum := scale.max + log scale.expSum
  let linear := sumTo loss.counts.cols fun col => loss.counts.get row col * eta.get row col
  loss.weights.getD row 0 * (loss.total row * logSum - linear)

/-- A case of weight zero adds nothing, whatever its predictor. -/
def value (loss : Multinomial α) (eta : Mat α) : α :=
  sumTo loss.counts.rows fun row =>
    if IsZero (loss.weights.getD row 0) then 0 else loss.caseLoss eta row

def gradient (loss : Multinomial α) (eta : Mat α) : Mat α :=
  let predicted := probabilities eta
  let totals := Array.ofFn (n := loss.counts.rows) fun row => loss.total row
  Mat.ofFn loss.counts.rows loss.counts.cols fun row col =>
    loss.weights.getD row 0 *
      (totals.getD row 0 * predicted.get row col - loss.counts.get row col)

/-- Every read of the value lies inside the predictor and the weights; the predictor is not read
for cases of weight zero. -/
def ValueReads (loss : Multinomial α) (eta : Mat α) : Prop :=
  loss.counts.rows ≤ loss.weights.size ∧
    ∀ row < loss.counts.rows, IsZero (loss.weights.getD row 0) ∨
      (loss.counts.cols ≤ eta.cols ∧ (eta.cols = 0 ∨ row < eta.rows))

def GradientReads (loss : Multinomial α) (eta : Mat α) : Prop :=
  loss.counts.rows ≤ loss.weights.size ∧ eta.Covers loss.counts.rows loss.counts.cols

instance (loss : Multinomial α) (eta : Mat α) : Decidable (loss.ValueReads eta) :=
  inferInstanceAs (Decidable (_ ∧ _))

instance (loss : Multinomial α) (eta : Mat α) : Decidable (loss.GradientReads eta) :=
  inferInstanceAs (Decidable (_ ∧ _))

end Multinomial

end GroupLasso
