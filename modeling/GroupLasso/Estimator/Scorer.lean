import GroupLasso.Estimator.Response

/-!
Scores of linear predictors against a response. Deviances are losses, so that a larger score need not
be a better one.
-/

namespace GroupLasso

open Scalar

structure Scorer (α : Type) where
  score : List α → Response α → Except (Failure α) α

namespace Scorer

variable {α : Type} [Scalar α]

/-- Accepts one predictor for each case, and at least one case. -/
def checkLength (eta : List α) (response : Response α) : Except (Failure α) Unit := do
  Failure.expectLength response.size eta.length "predictions vs response"
  if response.isEmpty then throw .emptySubsample

def devianceOf (eta : List α) (response : Response α) (withOffset : Bool) :
    Except (Failure α) α := do
  return sum ((← response.cloglog withOffset).caseLosses eta)

def agreement (response : Response α) (predicted : Nat → Bool) : α :=
  let hits := (List.range response.size).countP fun case =>
    predicted case == decide (0.5 < response.proportion case)
  ofNat hits / ofNat response.size

def meanProportion (response : Response α) : α :=
  let successes := sumTo response.size fun case =>
    response.weightAt case * response.successes.getD case 0
  let trials := sumTo response.size fun case => response.weightAt case * response.trialsAt case
  if 0 < trials then successes / trials else 0

/-- The constant predictor that reproduces the mean proportion. -/
def nullPredictor (response : Response α) : List α :=
  List.replicate response.size (Link.cloglog.predictor (meanProportion response))

def deviance : Scorer α where
  score eta response := do
    checkLength eta response
    devianceOf eta response true

def meanDeviance : Scorer α where
  score eta response := do
    checkLength eta response
    return (← devianceOf eta response true) / ofNat response.size

/-- One minus the deviance over that of the constant predictor of the mean. -/
def r2 : Scorer α where
  score eta response := do
    checkLength eta response
    let fitted ← devianceOf eta response true
    let null ← devianceOf (nullPredictor response) response false
    return 1 - fitted / null

def accuracy : Scorer α where
  score eta response := do
    checkLength eta response
    return agreement response fun case => 0 < eta.getD case 0 + response.offsetAt case

def classification : Scorer α where
  score eta response := do
    checkLength eta response
    return agreement response fun case =>
      0.5 < Link.cloglog.mean (eta.getD case 0 + response.offsetAt case)

end Scorer

end GroupLasso
