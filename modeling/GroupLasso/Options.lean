import GroupLasso.Scalar

/-!
Settings of a regularization path and of the convex solver inside it, with the conditions under
which they are accepted.
-/

namespace GroupLasso

open Scalar

inductive NonConvergence where
  | abort
  | relax
  | skip
  deriving DecidableEq, Repr

structure SolveOptions (α : Type) where
  tolerance : α
  maxIterations : Nat
  /-- Without a value the solver starts from the last step that it used. -/
  initialStep : Option α

structure PathOptions (α : Type) where
  /-- Share of the sparse-group penalty; the rest is a ridge term. -/
  alpha : α
  /-- Mixes the penalty weights: the `l1` weights take this share and the `l2` weights the rest. -/
  l1Share : Option α
  gridSize : Nat
  /-- The last value of the default grid as a fraction of the first. -/
  gridRatio : α
  /-- Slope of the screening rule; a larger one discards fewer groups. -/
  slope : α
  kktTolerance : α
  maxKktRetries : Nat
  tolerance : α
  maxIterations : Nat
  /-- Solver tolerance for the model without penalized groups. -/
  nullTolerance : α
  initialStep : Option α
  nonConvergence : NonConvergence
  maxRelaxations : Nat

inductive OptionsError (α : Type) where
  | alpha (value : α)
  | l1Share (value : α)
  | gridRatio (value : α)
  | gridSize (value : Nat)
  | slope (value : α)
  | kktTolerance (value : α)
  | tolerance (value : α)
  | maxIterations (value : Nat)
  | initialStep (value : α)

variable {α : Type} [Scalar α]

namespace SolveOptions

def default : SolveOptions α := ⟨1e-7, 2000, none⟩

end SolveOptions

namespace PathOptions

def default : PathOptions α where
  alpha := 1
  l1Share := none
  gridSize := 100
  gridRatio := 0.05
  slope := 1
  kktTolerance := 1e-2
  maxKktRetries := 50
  tolerance := 1e-7
  maxIterations := 2000
  nullTolerance := 1e-8
  initialStep := none
  nonConvergence := .relax
  maxRelaxations := 2

def elasticNet (alpha : α) : PathOptions α := { default with alpha }

def solve (options : PathOptions α) : SolveOptions α :=
  ⟨options.tolerance, options.maxIterations, options.initialStep⟩

def nullSolve (options : PathOptions α) : SolveOptions α :=
  { options.solve with tolerance := options.nullTolerance }

/-- Refuses the first setting, in this order, that is out of its range. -/
def validate (options : PathOptions α) : Except (OptionsError α) Unit := do
  unless 0 < options.alpha ∧ options.alpha ≤ 1 do
    throw (.alpha options.alpha)
  if let some share := options.l1Share then
    unless 0 ≤ share ∧ share ≤ 1 do
      throw (.l1Share share)
  unless 0 < options.gridRatio ∧ options.gridRatio < 1 do
    throw (.gridRatio options.gridRatio)
  unless 1 ≤ options.gridSize do
    throw (.gridSize options.gridSize)
  unless isFinite options.slope ∧ -1 ≤ options.slope do
    throw (.slope options.slope)
  unless 0 < options.kktTolerance ∧ options.kktTolerance < 1 do
    throw (.kktTolerance options.kktTolerance)
  unless 0 < options.tolerance do
    throw (.tolerance options.tolerance)
  unless 0 < options.nullTolerance do
    throw (.tolerance options.nullTolerance)
  unless 1 ≤ options.maxIterations do
    throw (.maxIterations options.maxIterations)
  if let some step := options.initialStep then
    unless 0 < step do
      throw (.initialStep step)

end PathOptions

end GroupLasso
