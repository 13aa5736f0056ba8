import GroupLasso.Failure

/-!
Weights of the cases of a loss, and their restriction to a list of cases.
-/

namespace GroupLasso.CaseWeights

open Scalar

variable {α : Type} [Scalar α]

def unit (cases : Nat) : Array α := Array.replicate cases 1

def validate (weights : Array α) (cases : Nat) : Except (Failure α) Unit := do
  Failure.expectLength cases weights.size "case weights"
  unless weights.all fun weight => IsFiniteNonneg weight do
    throw (.invalidWeights .caseWeights)

def repeated (weights : Array α) (indices : List Nat) (case : Nat) : α :=
  indices.foldl (fun total index => if index = case then total + weights.getD case 0 else total) 0

/-- Weights of a subsample: cases that are not listed have weight zero, and one that is listed more
than once counts every time. -/
def select (weights : Array α) (indices : List Nat) : Except (Failure α) (Array α) :=
  if indices.isEmpty then .error .emptySubsample
  else
    match indices.find? (weights.size ≤ ·) with
    | some index => .error (.caseOutOfRange index weights.size)
    | none => .ok (Array.ofFn (n := weights.size) fun case => repeated weights indices case)

end GroupLasso.CaseWeights
