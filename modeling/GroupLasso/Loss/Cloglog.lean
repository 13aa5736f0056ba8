import GroupLasso.Loss.CaseWeights
import GroupLasso.Mat.Algebra

/-!
Binomial loss with the complementary log-log link. For `s` successes in `m` trials the loss of a
case is `-s · log (1 - exp (-exp η)) + (m - s) · exp η`.
-/

namespace GroupLasso

open Scalar

structure Cloglog (α : Type) where
  successes : Array α
  trials : Array α
  offset : Option (Array α)
  weights : Array α

namespace Cloglog

variable {α : Type} [Scalar α]

/-- Larger linear predictors are replaced by this one before they are exponentiated. -/
def etaMax : α := 700

/-- Below this rate the gradient takes the limit of its ratio. -/
def smallRate : α := 1e-12

/-- Accepts finite successes and trials with `0 ≤ successes ≤ trials` in every case. -/
def ofTrials (successes trials : Array α) : Except (Failure α) (Cloglog α) := do
  Failure.expectLength successes.size trials.size "cloglog trials"
  let fault? (case : Nat) : Option (WeightFault α) :=
    let count := successes.getD case 0
    let total := trials.getD case 0
    if isFinite count ∧ isFinite total ∧ 0 ≤ count ∧ count ≤ total then none
    else some (.successes case count total)
  match (List.range successes.size).findSome? fault? with
  | some fault => throw (.invalidWeights fault)
  | none => return ⟨successes, trials, none, CaseWeights.unit successes.size⟩

def ofSuccesses (successes : Array α) : Except (Failure α) (Cloglog α) :=
  ofTrials successes (Array.replicate successes.size 1)

def withOffset (loss : Cloglog α) (offset : Array α) : Except (Failure α) (Cloglog α) := do
  Failure.expectLength loss.successes.size offset.size "cloglog offset"
  return { loss with offset := some offset }

def weighted (loss : Cloglog α) (weights : Array α) : Except (Failure α) (Cloglog α) := do
  CaseWeights.validate weights loss.successes.size
  return { loss with weights }

def rate (loss : Cloglog α) (eta : α) (case : Nat) : α :=
  let shifted :=
    match loss.offset with
    | some offset => eta + offset.getD case 0
    | none => eta
  exp (smaller shifted etaMax)

def caseLoss (loss : Cloglog α) (eta : α) (case : Nat) : α :=
  let rate := loss.rate eta case
  let successes := loss.successes.getD case 0
  let trials := loss.trials.getD case 0
  let logProbability := if 0 < successes then log (-expm1 (-rate)) else 0
  loss.weights.getD case 0 * (-successes * logProbability + (trials - successes) * rate)

def caseLosses (loss : Cloglog α) (eta : List α) : List α :=
  eta.zipIdx.map fun (entry, case) => loss.caseLoss entry case

def value (loss : Cloglog α) (eta : Mat α) : α := sum (loss.caseLosses eta.firstColumn)

def gradient (loss : Cloglog α) (eta : Mat α) : Mat α :=
  Mat.ofFn loss.successes.size 1 fun row _ =>
    let rate := loss.rate (eta.get row 0) row
    let successes := loss.successes.getD row 0
    let trials := loss.trials.getD row 0
    let ratio := if rate < smallRate then 1 else rate / expm1 rate
    loss.weights.getD row 0 * (-successes * ratio + (trials - successes) * rate)

def CasesRead (loss : Cloglog α) (count : Nat) : Prop :=
  count ≤ loss.successes.size ∧ count ≤ loss.weights.size

/-- Every read of the value lies inside the predictor, the cases and the weights. -/
def ValueReads (loss : Cloglog α) (eta : Mat α) : Prop :=
  (eta.rows = 0 ∨ 0 < eta.cols) ∧ loss.CasesRead eta.rows

def GradientReads (loss : Cloglog α) (eta : Mat α) : Prop :=
  eta.Covers loss.successes.size 1 ∧ loss.successes.size ≤ loss.weights.size

instance (loss : Cloglog α) (count : Nat) : Decidable (loss.CasesRead count) :=
  inferInstanceAs (Decidable (_ ∧ _))

def caseLosses? (loss : Cloglog α) (eta : List α) : Option (List α) :=
  if loss.CasesRead eta.length then some (loss.caseLosses eta) else none

instance (loss : Cloglog α) (eta : Mat α) : Decidable (loss.ValueReads eta) :=
  inferInstanceAs (Decidable (_ ∧ _))

instance (loss : Cloglog α) (eta : Mat α) : Decidable (loss.GradientReads eta) :=
  inferInstanceAs (Decidable (_ ∧ _))

end Cloglog

end GroupLasso
