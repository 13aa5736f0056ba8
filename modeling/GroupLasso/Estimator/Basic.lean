import GroupLasso.Estimator.Scorer
import GroupLasso.Path.Fit

/-!
Estimators for one response, fitted by running a path down to a target Lagrange value. Each feature
is a group of its own; the intercept is an unpenalized column of ones.
-/

namespace GroupLasso

open Scalar

structure LossFactory (α : Type) where
  loss : Response α → Except (Failure α) (Loss α)
  link : Link

def LossFactory.cloglog {α : Type} [Scalar α] : LossFactory α where
  loss response := do return .cloglog (← response.cloglog true)
  link := .cloglog

structure Estimator (α : Type) where
  factory : LossFactory α
  scorer : Scorer α
  lagrange : α
  /-- Weights of the features; without any, every feature has `l1` weight one and `l2` weight zero. -/
  weights : Option (Array α × Array α)
  intercept : Bool
  options : PathOptions α

structure FittedEstimator (α : Type) where
  coefs : Array α
  intercept : α
  link : Link
  scorer : Scorer α
  result : PathResult α

namespace Estimator

variable {α : Type} [Scalar α]

/-- An intercept, target one and default weights and options. -/
def ofFactory (factory : LossFactory α) (scorer : Scorer α) : Estimator α :=
  ⟨factory, scorer, 1, none, true, PathOptions.default⟩

def groupWeights (estimator : Estimator α) (features : Nat) : Array α × Array α :=
  let (l1, l2) :=
    estimator.weights.getD (Array.replicate features 1, Array.replicate features 0)
  if estimator.intercept then (#[0] ++ l1, #[0] ++ l2) else (l1, l2)

def design (estimator : Estimator α) (features : Mat α) : Design α :=
  if estimator.intercept then .withIntercept features 1 else .dense features 1

/-- The default grid from the largest Lagrange value of interest down to the target, or the target
alone when it is no smaller. -/
def sequence (estimator : Estimator α) (lagrangeMax : α) : List α :=
  if estimator.lagrange < lagrangeMax then
    Grid.geometric lagrangeMax (estimator.lagrange / lagrangeMax) estimator.options.gridSize
  else [estimator.lagrange]

def read (estimator : Estimator α) (features : Nat) (path : Path α) (result : PathResult α) :
    FittedEstimator α :=
  let first := if estimator.intercept then 1 else 0
  { coefs := Array.ofFn (n := features) fun feature => path.solution.get (feature + first) 0
    intercept := if estimator.intercept then path.solution.get 0 0 else 0
    link := estimator.factory.link
    scorer := estimator.scorer
    result }

def fit (estimator : Estimator α) (features : Mat α) (response : Response α) :
    Except (Failure α) (FittedEstimator α) := do
  unless IsFinitePos estimator.lagrange do
    throw (.invalidSequence (.target estimator.lagrange))
  let loss ← estimator.factory.loss response
  let (l1, l2) := estimator.groupWeights features.cols
  let path ← Path.build loss (estimator.design features) l1 l2 none estimator.options
  let (outcome, reached) := path.fit (some (estimator.sequence path.lagrangeMax))
  let result ← outcome
  return estimator.read features.cols reached result

end Estimator

namespace FittedEstimator

variable {α : Type} [Scalar α]

/-- Linear predictors of new cases, which must have one feature for each coefficient. -/
def predict (fitted : FittedEstimator α) (features : Mat α) : Except (Failure α) (List α) := do
  Failure.expectLength fitted.coefs.size features.cols "features vs coefficients"
  let product := features.mul (Mat.ofColumn fitted.coefs)
  return product.firstColumn.map (fitted.intercept + ·)

def predictMean (fitted : FittedEstimator α) (features : Mat α) : Except (Failure α) (List α) := do
  return (← fitted.predict features).map fitted.link.mean

def score (fitted : FittedEstimator α) (features : Mat α) (response : Response α) :
    Except (Failure α) α := do
  fitted.scorer.score (← fitted.predict features) response

def nonzero (fitted : FittedEstimator α) : Nat :=
  fitted.coefs.countP fun coef => ¬ IsZero coef

end FittedEstimator

end GroupLasso
