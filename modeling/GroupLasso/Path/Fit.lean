import GroupLasso.Path.Build
import GroupLasso.Path.Grid
import GroupLasso.Path.Result

/-!
Running a path over a decreasing sequence of Lagrange values. Each value is screened, solved over the
candidates and checked over all groups; groups that fail the checks join the candidates and the value
is solved again.
-/

namespace GroupLasso

open Scalar

/-- A restricted solution put among all groups, and the groups at which it fails the checks. -/
structure Trial (α : Type) where
  sub : Subsolution α
  solution : Mat α
  gradient : Mat α
  violators : List Nat

def Trial.newcomers {α : Type} (trial : Trial α) : List Nat :=
  trial.violators.filter fun group => !trial.sub.candidates.contains group

namespace Path

variable {α : Type} [Scalar α]

def minTolerance : α := 1e-14

def maxBudget : Nat := 18446744073709551615

def activeGroups (solution : Mat α) : List Nat :=
  (List.range solution.rows).filter fun group => 0 < solution.rowNorm group

/-- Solves over the candidates and checks all groups. -/
def trial (path : Path α) (lagrange : α) (options : SolveOptions α) :
    Except (Failure α) (Trial α) := do
  let candidates := path.candidates
  let sub ← path.solveSubproblem candidates lagrange options
  let solution := (Mat.zero path.shape.rows path.shape.cols).scatterRows candidates sub.solution
  let gradient := (path.fullGradient sub.predictor).add (path.ridgeGradient solution lagrange)
  let violators := path.violators gradient solution (path.options.alpha * lagrange)
  return ⟨sub, solution, gradient, violators⟩

def commit (path : Path α) (trial : Trial α) : Path α :=
  { path with
    solution := trial.solution
    gradient := trial.gradient
    predictor := trial.sub.predictor
    step := trial.sub.step }

def certifiedStep (path : Path α) (lagrange : α) (round : Nat) (trial : Trial α) :
    PathStep α where
  lagrange
  solution := trial.solution
  active := activeGroups trial.solution
  candidates := path.candidates.length
  rounds := round
  step := trial.sub.step
  status := .converged

/-- Prepares the next round after a trial that failed the checks: new violators become candidates;
without any, the tolerance is tightened. -/
def respond (path : Path α) (lagrange : α) (options : SolveOptions α) (trial : Trial α) :
    Path α × SolveOptions α :=
  let newcomers := trial.newcomers
  if newcomers.isEmpty then
    let tolerance := larger (options.tolerance * 0.1) minTolerance
    (path.record .tightening (some lagrange) (.tightening trial.violators.length tolerance),
      { options with tolerance })
  else
    ((path.markEverActive newcomers).record .expansion (some lagrange)
      (.expansion newcomers.length), options)

/-- Rounds at one Lagrange value, until a trial passes the checks or no retries are left. -/
def rounds (lagrange : α) : Nat → Nat → SolveOptions α → Path α →
    Except (Failure α) (PathStep α) × Path α
  | retries, round, options, path =>
      match path.trial lagrange options with
      | .error failure => (.error failure, path)
      | .ok trial =>
          if trial.violators.isEmpty then
            (.ok (path.certifiedStep lagrange round trial), path.commit trial)
          else
            match retries with
            | 0 => (.error (.kktRetriesExceeded lagrange path.options.maxKktRetries), path)
            | retries + 1 =>
                let response := path.respond lagrange options trial
                rounds lagrange retries (round + 1) response.2 response.1

def screen (path : Path α) (current next : α) : Path α :=
  let alpha := path.options.alpha
  path.markEverActive (path.strongSet (alpha * current) (alpha * next) path.gradient).indices

def attempt (path : Path α) (current next : α) (options : SolveOptions α) :
    Except (Failure α) (PathStep α) × Path α :=
  rounds next path.options.maxKktRetries 1 options (path.screen current next)

def relax (options : SolveOptions α) : SolveOptions α :=
  { options with
    tolerance := options.tolerance * 10
    maxIterations := min (options.maxIterations * 2) maxBudget }

def skippedStep (path : Path α) (lagrange : α) : PathStep α where
  lagrange
  solution := path.solution
  active := activeGroups path.solution
  candidates := 0
  rounds := 0
  step := path.step
  status := .skipped

/-- Attempts at one Lagrange value, under the policy for a solver that does not converge. -/
def attempts (current next : α) : Nat → SolveOptions α → Path α →
    Except (Failure α) (PathStep α) × Path α
  | relaxations, options, path =>
      match path.attempt current next options with
      | (.ok step, path) => (.ok step, path)
      | (.error failure, path) =>
          if !failure.isConvergenceFailure then (.error failure, path)
          else
            match path.options.nonConvergence, relaxations with
            | .abort, _ => (.error failure, path)
            | .skip, _ =>
                let path := path.record .skip (some next) .skip
                (.ok (path.skippedStep next), path)
            | .relax, 0 => (.error failure, path)
            | .relax, relaxations + 1 =>
                let relaxed := relax options
                attempts current next relaxations relaxed
                  (path.record .relaxation (some next)
                    (.relaxation relaxed.tolerance relaxed.maxIterations))

def fitValue (path : Path α) (current next : α) : Except (Failure α) (PathStep α) × Path α :=
  attempts current next path.options.maxRelaxations path.options.solve path

/-- The values of a sequence in order; a value that is skipped does not become the current one. -/
def fitValues : α → List α → Path α → Except (Failure α) (List (PathStep α)) × Path α
  | _, [], path => (.ok [], path)
  | current, next :: rest, path =>
      match path.fitValue current next with
      | (.error failure, path) => (.error failure, path)
      | (.ok step, path) =>
          let current := if step.status = .converged then next else current
          match fitValues current rest path with
          | (.error failure, path) => (.error failure, path)
          | (.ok steps, path) => (.ok (step :: steps), path)

def sequence (path : Path α) (given : Option (List α)) : Except (Failure α) (List α) := do
  let values ←
    match given with
    | some values => pure values
    | none =>
        let lagrangeMax := path.lagrangeMax
        if IsFinitePos lagrangeMax then
          pure (Grid.geometric lagrangeMax path.options.gridRatio path.options.gridSize)
        else throw (.invalidSequence (.noDefault lagrangeMax))
  Grid.validate values
  return values

/-- Solves along a sequence of Lagrange values. The path that is returned is the state that was
reached, also when the run failed. -/
def fit (path : Path α) (given : Option (List α)) :
    Except (Failure α) (PathResult α) × Path α :=
  match path.sequence given with
  | .error failure => (.error failure, path)
  | .ok values =>
      match fitValues path.lagrangeMax values path with
      | (.error failure, path) => (.error failure, path)
      | (.ok steps, reached) =>
          (.ok ⟨path.lagrangeMax, steps, reached.log.entries⟩, reached)

end Path

end GroupLasso
