import GroupLasso.Path.Subproblem

/-!
Building a path: the checks on the model, and the solution without penalized groups from which every
run starts.
-/

namespace GroupLasso.Path

open Scalar

variable {α : Type} [Scalar α]

/-- The Lagrange value at which the model without penalized groups is solved. -/
def nullLagrange : α := 1000000000000

def mixWeights (options : PathOptions α) (l1 l2 : Array α) : Array α × Array α :=
  match options.l1Share with
  | some share => (l1.map (· * share), l2.map (· * (1 - share)))
  | none => (l1, l2)

/-- The ridge parameter: ones on penalized groups and zeros on the others, unless one is given, which
must have the shape of the coefficients and finite, non-negative entries. -/
def chooseRidge (penalty : Penalty α) (given : Option (Mat α)) : Except (Failure α) (Mat α) :=
  match given with
  | some parameter => do
      Failure.expectShape penalty.shape parameter.shape "elastic_net_param vs coefficients"
      unless parameter.all fun entry => IsFiniteNonneg entry do
        throw (.invalidWeights .elasticNet)
      return parameter
  | none => .ok (Mat.ofFn penalty.shape.rows penalty.shape.cols fun group _ =>
      if penalty.isUnpenalized group then 0 else 1)

def blank (loss : Loss α) (design : Design α) (penalty : Penalty α) (ridgeParameter : Mat α)
    (options : PathOptions α) : Path α where
  loss
  design
  penalty
  ridgeParameter
  options
  solution := Mat.zero penalty.shape.rows penalty.shape.cols
  gradient := Mat.zero penalty.shape.rows penalty.shape.cols
  predictor := Mat.zero design.outputShape.rows design.outputShape.cols
  step := options.initialStep.getD 1
  everActive := none
  log := .empty

/-- Solves over the unpenalized groups, if there are any. -/
def fitNull (path : Path α) : Except (Failure α) (Path α) :=
  let unpenalized := path.penalty.unpenalized
  if unpenalized.isEmpty then .ok path
  else do
    let null ← path.solveSubproblem unpenalized nullLagrange path.options.nullSolve
    return { path with
      solution := path.solution.scatterRows unpenalized null.solution
      predictor := null.predictor
      step := null.step }

def hasUnpenalizedRidge (path : Path α) : Bool :=
  path.penalty.unpenalized.any fun group =>
    (path.ridgeParameter.row group).any fun entry => ¬ IsZero entry

def warnOfRidge (path : Path α) : Path α :=
  if path.hasUnpenalizedRidge then path.record .unpenalizedRidge none .unpenalizedRidge else path

def withGradient (path : Path α) (lagrange : α) : Path α :=
  { path with
    gradient := (path.fullGradient path.predictor).add (path.ridgeGradient path.solution lagrange) }

/-- Checks a model and solves it without its penalized groups. -/
def build (loss : Loss α) (design : Design α) (l1 l2 : Array α) (ridgeParameter : Option (Mat α))
    (options : PathOptions α) : Except (Failure α) (Path α) := do
  options.validate.mapError .invalidOptions
  Failure.expectShape loss.shape design.outputShape "design output vs saturated loss"
  let weights := mixWeights options l1 l2
  let penalty ← Penalty.ofWeights design.inputShape weights.1 weights.2 1
  let parameter ← chooseRidge penalty ridgeParameter
  let fitted ← (blank loss design penalty parameter options).fitNull
  return fitted.warnOfRidge.withGradient 1

/-- A path of its own over some of the cases, each as often as it is listed. The weights have been
mixed already and are not mixed again. -/
def subsample (path : Path α) (cases : List Nat) : Except (Failure α) (Path α) := do
  let loss ← path.loss.subsample cases
  build loss path.design path.penalty.l1 path.penalty.l2 (some path.ridgeParameter)
    { path.options with l1Share := none }

def multinomial (matrix counts : Mat α) (l1 l2 : Array α) (ridgeParameter : Option (Mat α))
    (options : PathOptions α) : Except (Failure α) (Path α) := do
  let loss ← Multinomial.ofCounts counts
  build (.multinomial loss) (.dense matrix counts.cols) l1 l2 ridgeParameter options

def sharedGaussian (matrix responses : Mat α) (l1 l2 : Array α) (ridgeParameter : Option (Mat α))
    (options : PathOptions α) : Except (Failure α) (Path α) :=
  build (.gaussian (.ofResponse responses)) (.dense matrix responses.cols) l1 l2 ridgeParameter
    options

def stackedGaussian (blocks : List (Mat α)) (responses : Mat α) (l1 l2 : Array α)
    (ridgeParameter : Option (Mat α)) (options : PathOptions α) : Except (Failure α) (Path α) := do
  Failure.expectLength responses.cols blocks.length "number of design blocks vs responses"
  build (.gaussian (.ofResponse responses)) (← Design.ofBlocks blocks) l1 l2 ridgeParameter options

end GroupLasso.Path
