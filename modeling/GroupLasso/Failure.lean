import GroupLasso.Decimal.Notation
import GroupLasso.Options
import GroupLasso.Shape

/-!
Why building or running a model fails, and the wording of each failure.
-/

namespace GroupLasso

inductive WeightFault (α : Type) where
  | penaltyWeight (name : String) (value : α)
  | lagrange (value : α)
  | caseWeights
  | multinomialCount (value : α) (row col : Nat)
  | poissonCounts
  | successes (case : Nat) (successes trials : α)
  | elasticNet

inductive SequenceFault (α : Type) where
  | empty
  | value (lagrange : α)
  | increase (first second : α)
  | noDefault (lagrangeMax : α)
  | target (lagrange : α)

inductive SolverFault where
  | nonFiniteObjective
  | stepCollapsed (iteration : Nat)

inductive Failure (α : Type) where
  | shapeMismatch (context : String) (expected found : Shape)
  | lengthMismatch (context : String) (expected found : Nat)
  | invalidWeights (fault : WeightFault α)
  | invalidCandidate (index groups : Nat)
  | caseOutOfRange (index cases : Nat)
  | emptySubsample
  | invalidSequence (fault : SequenceFault α)
  | invalidOptions (error : OptionsError α)
  | notConverged (iterations : Nat)
  | kktRetriesExceeded (lagrange : α) (retries : Nat)
  | numerical (fault : SolverFault)

namespace Failure

variable {α : Type}

/-- Only running out of iterations may be mended by solving again with other settings. -/
def isConvergenceFailure : Failure α → Bool
  | notConverged _ => true
  | _ => false

def expectShape (expected found : Shape) (context : String) : Except (Failure α) Unit :=
  if expected = found then .ok () else .error (.shapeMismatch context expected found)

def expectLength (expected found : Nat) (context : String) : Except (Failure α) Unit :=
  if expected = found then .ok () else .error (.lengthMismatch context expected found)

end Failure

open Decimal (plain)

def OptionsError.message : OptionsError Float → String
  | alpha value => "alpha must be in (0, 1], got " ++ plain value
  | l1Share value => "l1_alpha must be in [0, 1], got " ++ plain value
  | gridRatio value => "lagrange_proportion must be in (0, 1), got " ++ plain value
  | gridSize value => s!"n_lagrange must be at least 1, got {value}"
  | slope value => "slope_estimate must be finite and at least -1, got " ++ plain value
  | kktTolerance value => "kkt_tolerance must be in (0, 1), got " ++ plain value
  | tolerance value => "tolerance must be positive, got " ++ plain value
  | maxIterations value => s!"max_iterations must be at least 1, got {value}"
  | initialStep value => "initial_step must be positive, got " ++ plain value

def WeightFault.message : WeightFault Float → String
  | penaltyWeight name value => s!"{name} must be finite and non-negative, got " ++ plain value
  | lagrange value => "lagrange must be finite and non-negative, got " ++ plain value
  | caseWeights => "case weights must be finite and non-negative"
  | multinomialCount value row col =>
      "multinomial counts must be finite and non-negative, got " ++ plain value ++
        s!" at ({row}, {col})"
  | poissonCounts => "Poisson counts must be finite and non-negative"
  | .successes index count total =>
      s!"case {index}: need 0 <= successes <= trials, got " ++ plain count ++ " of " ++ plain total
  | elasticNet => "elastic_net_param must be finite and non-negative"

def SequenceFault.message : SequenceFault Float → String
  | empty => "sequence is empty"
  | value lagrange => "values must be finite and positive, got " ++ plain lagrange
  | increase first second =>
      "values must be non-increasing, got " ++ plain first ++ " followed by " ++ plain second
  | noDefault lagrangeMax =>
      "cannot build a default sequence from lagrange_max = " ++ plain lagrangeMax
  | target lagrange => "target lagrange must be finite and positive, got " ++ plain lagrange

def SolverFault.message : SolverFault → String
  | nonFiniteObjective => "non-finite smooth objective at extrapolated point"
  | stepCollapsed iteration => s!"step size collapsed below 1e-20 at iteration {iteration}"

def Failure.message : Failure Float → String
  | shapeMismatch context expected found =>
      s!"shape mismatch in {context}: expected " ++ expected.text ++ ", found " ++ found.text
  | lengthMismatch context expected found =>
      s!"length mismatch in {context}: expected {expected}, found {found}"
  | invalidWeights fault => "invalid weights: " ++ fault.message
  | invalidCandidate index groups =>
      s!"candidate group {index} is out of range or duplicated (model has {groups} groups)"
  | caseOutOfRange index cases =>
      s!"case index {index} out of bounds for loss with {cases} cases"
  | emptySubsample => "subsample selects no cases"
  | invalidSequence fault => "invalid Lagrange sequence: " ++ fault.message
  | invalidOptions error => "invalid options: " ++ error.message
  | notConverged iterations => s!"convergence failed after {iterations} iterations"
  | kktRetriesExceeded lagrange retries =>
      "KKT conditions still violated at lagrange " ++ plain lagrange ++
        s!" after {retries} retries"
  | numerical fault => "numerical error: " ++ fault.message

end GroupLasso
