import GroupLasso.Design
import GroupLasso.Loss.Basic

/-!
Smooth functions of the coefficients: a loss of the linear predictor of a design, with or without a
ridge term, and a ridge term by itself.
-/

namespace GroupLasso

structure Smooth (α : Type) where
  shape : Shape
  value : Mat α → α
  gradient : Mat α → Mat α

/-- The quadratic `½ Σ dᵢⱼ βᵢⱼ²`. -/
structure Ridge (α : Type) where
  diag : Mat α

structure Composed (α : Type) where
  loss : Loss α
  design : Design α
  ridge : Option (Ridge α)

variable {α : Type} [Scalar α]

namespace Ridge

def isZero (ridge : Ridge α) : Bool := ridge.diag.all fun entry => Scalar.IsZero entry

def gradient (ridge : Ridge α) (coef : Mat α) : Mat α :=
  Mat.ofFn ridge.diag.rows ridge.diag.cols fun row col =>
    ridge.diag.get row col * coef.get row col

def value (ridge : Ridge α) (coef : Mat α) : α := 0.5 * (ridge.gradient coef).inner coef

def smooth (ridge : Ridge α) : Smooth α := ⟨ridge.diag.shape, ridge.value, ridge.gradient⟩

def gradient? (ridge : Ridge α) (coef : Mat α) : Option (Mat α) :=
  if coef.Covers ridge.diag.rows ridge.diag.cols then some (ridge.gradient coef) else none

def value? (ridge : Ridge α) (coef : Mat α) : Option α := do
  return 0.5 * (← (← ridge.gradient? coef).inner? coef)

end Ridge

namespace Composed

/-- The loss without a ridge term; the design must produce predictors of the loss. -/
def ofLoss (loss : Loss α) (design : Design α) : Except (Failure α) (Composed α) := do
  Failure.expectShape loss.shape design.outputShape "design output vs saturated loss"
  return ⟨loss, design, none⟩

def shape (function : Composed α) : Shape := function.design.inputShape

def withRidge (function : Composed α) (ridge : Ridge α) : Except (Failure α) (Composed α) := do
  Failure.expectShape function.shape ridge.diag.shape "elastic-net term vs restricted loss"
  return { function with ridge := some ridge }

def value (function : Composed α) (coef : Mat α) : α :=
  let loss := function.loss.value (function.design.dot coef)
  match function.ridge with
  | some ridge => loss + ridge.value coef
  | none => loss

def gradient (function : Composed α) (coef : Mat α) : Mat α :=
  let gradient := function.design.adjoint (function.loss.gradient (function.design.dot coef))
  match function.ridge with
  | some ridge => gradient.add (ridge.gradient coef)
  | none => gradient

def smooth (function : Composed α) : Smooth α :=
  ⟨function.shape, function.value, function.gradient⟩

def value? (function : Composed α) (coef : Mat α) : Option α := do
  let loss ← function.loss.value? (← function.design.dot? coef)
  match function.ridge with
  | some ridge => return loss + (← ridge.value? coef)
  | none => return loss

def gradient? (function : Composed α) (coef : Mat α) : Option (Mat α) := do
  let gradient ← function.design.adjoint?
    (← function.loss.gradient? (← function.design.dot? coef))
  match function.ridge with
  | some ridge => return gradient.add (← ridge.gradient? coef)
  | none => return gradient

end Composed

end GroupLasso
