import GroupLasso.Loss.Basic

/-!
Binomial responses: successes of every case, with optional trials, case weights and offset.
-/

namespace GroupLasso

open Scalar

/-- All parts have one entry for every case. -/
structure Response (α : Type) where
  successes : Array α
  trials : Option (Array α)
  weights : Option (Array α)
  offset : Option (Array α)

namespace Response

variable {α : Type} [Scalar α]

def ofSuccesses (successes : Array α) : Response α := ⟨successes, none, none, none⟩

def ofLabels (labels : List Bool) : Response α :=
  ofSuccesses (labels.map fun label => if label then 1 else 0).toArray

def size (response : Response α) : Nat := response.successes.size

def isEmpty (response : Response α) : Bool := response.size == 0

def withTrials (response : Response α) (trials : Array α) : Except (Failure α) (Response α) := do
  Failure.expectLength response.size trials.size "response trials"
  return { response with trials := some trials }

def withWeights (response : Response α) (weights : Array α) :
    Except (Failure α) (Response α) := do
  Failure.expectLength response.size weights.size "response case weights"
  return { response with weights := some weights }

def withOffset (response : Response α) (offset : Array α) : Except (Failure α) (Response α) := do
  Failure.expectLength response.size offset.size "response offset"
  return { response with offset := some offset }

def trialsAt (response : Response α) (case : Nat) : α :=
  match response.trials with
  | some trials => trials.getD case 0
  | none => 1

def weightAt (response : Response α) (case : Nat) : α :=
  match response.weights with
  | some weights => weights.getD case 0
  | none => 1

def offsetAt (response : Response α) (case : Nat) : α :=
  match response.offset with
  | some offset => offset.getD case 0
  | none => 0

/-- The observed proportion of successes; zero for a case without trials. -/
def proportion (response : Response α) (case : Nat) : α :=
  if 0 < response.trialsAt case then
    response.successes.getD case 0 / response.trialsAt case
  else 0

def proportions (response : Response α) : List α :=
  (List.range response.size).map response.proportion

def cloglog (response : Response α) (withOffset : Bool) : Except (Failure α) (Cloglog α) := do
  let loss ←
    match response.trials with
    | some trials => Cloglog.ofTrials response.successes trials
    | none => Cloglog.ofSuccesses response.successes
  let loss ←
    match response.weights with
    | some weights => loss.weighted weights
    | none => pure loss
  match withOffset, response.offset with
  | true, some offset => loss.withOffset offset
  | _, _ => return loss

end Response

end GroupLasso
