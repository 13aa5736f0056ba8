import GroupLasso.Failure

/-!
Sequences of Lagrange values: the default grid, and the sequences that a path accepts.
-/

namespace GroupLasso.Grid

open Scalar

variable {α : Type} [Scalar α]

/-- `size` values from `lagrangeMax` down to `ratio` times it, with a constant ratio. -/
def geometric (lagrangeMax ratio : α) (size : Nat) : List α :=
  if size = 1 then [lagrangeMax]
  else
    (List.range size).map fun index =>
      lagrangeMax * exp (log ratio * ofNat index / ofNat (size - 1))

/-- The first value that is larger than the one before it, after that one. -/
def increase? : List α → Option (α × α)
  | first :: second :: rest =>
      if first < second then some (first, second) else increase? (second :: rest)
  | _ => none

/-- Accepts a non-empty sequence of finite, positive values that never increases. -/
def validate (sequence : List α) : Except (Failure α) Unit :=
  if sequence.isEmpty then .error (.invalidSequence .empty)
  else
    match sequence.find? fun lagrange => ¬ IsFinitePos lagrange with
    | some lagrange => .error (.invalidSequence (.value lagrange))
    | none =>
        match increase? sequence with
        | some (first, second) => .error (.invalidSequence (.increase first second))
        | none => .ok ()

end GroupLasso.Grid
