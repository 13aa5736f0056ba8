/-!
Arithmetic over which every algorithm of the library is written. A scalar type has the field
operations, a decidable order and the elementary functions; no law is asked for, so that binary
floating point, where a value may be unordered even to itself, is a scalar type as well as the reals.
-/

namespace GroupLasso

class Scalar (α : Type) extends
    Add α, Sub α, Mul α, Div α, Neg α, Zero α, One α, OfScientific α, LT α, LE α where
  decideLT : DecidableLT α
  decideLE : DecidableLE α
  ofNat : Nat → α
  abs : α → α
  sqrt : α → α
  log : α → α
  exp : α → α
  /-- `exp x - 1`, accurate for small `x`. -/
  expm1 : α → α
  isFinite : α → Bool
  /-- The least natural number that is not below the argument. -/
  ceil : α → Nat

attribute [reducible, instance] Scalar.decideLT Scalar.decideLE

instance (priority := 50) instOfNatScalar {α : Type} [Scalar α] (n : Nat) : OfNat α (n + 2) :=
  ⟨Scalar.ofNat (n + 2)⟩

namespace Scalar

variable {α : Type} [Scalar α]

/-- Both signs of zero are zero, and a value unordered to zero is not. -/
abbrev IsZero (value : α) : Prop := value ≤ 0 ∧ 0 ≤ value

abbrev IsUnordered (value : α) : Prop := ¬ value ≤ value

/-- The larger of two values; an unordered value gives way to the other one. -/
@[inline] def larger (left right : α) : α :=
  if right ≤ left ∨ IsUnordered right then left else right

/-- The smaller of two values; an unordered value gives way to the other one. -/
@[inline] def smaller (left right : α) : α :=
  if left ≤ right ∨ IsUnordered right then left else right

/-- Moves a value into `[lower, upper]`; an unordered value stays as it is. -/
@[inline] def clamp (lower upper value : α) : α :=
  if value < lower then lower else if upper < value then upper else value

@[inline] def softThreshold (value amount : α) : α :=
  if amount < value then value - amount
  else if value < -amount then value + amount
  else 0

@[inline] def sign (value : α) : α :=
  if 0 < value then 1 else if value < 0 then -1 else 0

abbrev IsFiniteNonneg (value : α) : Prop := isFinite value = true ∧ 0 ≤ value

abbrev IsFinitePos (value : α) : Prop := isFinite value = true ∧ 0 < value

/-- Sum of `term 0, …, term (count - 1)`, from the first on. -/
@[inline] def sumTo (count : Nat) (term : Nat → α) : α :=
  Nat.fold count (fun index _ total => total + term index) 0

def sum (values : List α) : α := values.foldl (· + ·) 0

def norm (vector : List α) : α := sqrt (sum (vector.map fun entry => entry * entry))

end Scalar

end GroupLasso
