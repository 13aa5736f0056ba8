import GroupLasso.Loss.Cloglog
import GroupLasso.Loss.Gaussian
import GroupLasso.Loss.Multinomial
import GroupLasso.Loss.Poisson

/-!
Likelihood losses as functions of the linear predictor, with weights on their cases.
-/

namespace GroupLasso

inductive Loss (α : Type) where
  | gaussian (loss : Gaussian α)
  | multinomial (loss : Multinomial α)
  | poisson (loss : Poisson α)
  | cloglog (loss : Cloglog α)

namespace Loss

variable {α : Type} [Scalar α]

def shape : Loss α → Shape
  | gaussian loss => loss.response.shape
  | multinomial loss => loss.counts.shape
  | poisson loss => ⟨loss.counts.size, 1⟩
  | cloglog loss => ⟨loss.successes.size, 1⟩

def value (loss : Loss α) (eta : Mat α) : α :=
  match loss with
  | gaussian loss => loss.value eta
  | multinomial loss => loss.value eta
  | poisson loss => loss.value eta
  | cloglog loss => loss.value eta

def gradient (loss : Loss α) (eta : Mat α) : Mat α :=
  match loss with
  | gaussian loss => loss.gradient eta
  | multinomial loss => loss.gradient eta
  | poisson loss => loss.gradient eta
  | cloglog loss => loss.gradient eta

def weights : Loss α → Array α
  | gaussian loss => loss.weights
  | multinomial loss => loss.weights
  | poisson loss => loss.weights
  | cloglog loss => loss.weights

/-- The same loss with other case weights, which are not checked. -/
def withWeights (loss : Loss α) (weights : Array α) : Loss α :=
  match loss with
  | gaussian loss => gaussian { loss with weights }
  | multinomial loss => multinomial { loss with weights }
  | poisson loss => poisson { loss with weights }
  | cloglog loss => cloglog { loss with weights }

def subsample (loss : Loss α) (indices : List Nat) : Except (Failure α) (Loss α) := do
  return loss.withWeights (← CaseWeights.select loss.weights indices)

def value? (loss : Loss α) (eta : Mat α) : Option α :=
  let reads : Bool :=
    match loss with
    | gaussian loss => decide (loss.Reads eta)
    | multinomial loss => decide (loss.ValueReads eta)
    | poisson loss => decide (loss.Reads eta)
    | cloglog loss => decide (loss.ValueReads eta)
  if reads then some (loss.value eta) else none

def gradient? (loss : Loss α) (eta : Mat α) : Option (Mat α) :=
  let reads : Bool :=
    match loss with
    | gaussian loss => decide (loss.Reads eta)
    | multinomial loss => decide (loss.GradientReads eta)
    | poisson loss => decide (loss.Reads eta)
    | cloglog loss => decide (loss.GradientReads eta)
  if reads then some (loss.gradient eta) else none

end Loss

end GroupLasso
