import GroupLasso.Gauge
import GroupLasso.IndexSet

/-!
The sequential screening rule: from the gradient at one Lagrange value it predicts which groups can
be nonzero at the next. It may miss groups, which the optimality checks find afterwards.
-/

namespace GroupLasso

structure StrongSet where
  mask : Mask

namespace StrongSet

def indices (selected : StrongSet) : List Nat := selected.mask.toIndices

def size (selected : StrongSet) : Nat := selected.indices.length

def contains (selected : StrongSet) (group : Nat) : Bool := selected.mask.contains group

end StrongSet

namespace Screening

variable {α : Type} [Scalar α]

def defaultSlope : α := 1

def threshold (current next slope : α) : α := (slope + 1) * next - slope * current

/-- Selects the groups whose gradient is outside the dual ball at the threshold. -/
def strongSet (l1 l2 : Array α) (current next : α) (gradient : Mat α) (slope : α) : StrongSet :=
  let radius := threshold current next slope
  ⟨(List.range gradient.rows).map fun group =>
    !Gauge.inside (gradient.row group) radius (l1.getD group 0) (l2.getD group 0)⟩

/-- The rule, or no answer when weights are missing or a gauge has no ordered bounds. -/
def strongSet? (l1 l2 : Array α) (current next : α) (gradient : Mat α) (slope : α) :
    Option StrongSet :=
  if ∀ group < gradient.rows, group < l1.size ∧ group < l2.size ∧
      Gauge.IsOrdered (gradient.row group) (l1.getD group 0) (l2.getD group 0) then
    some (strongSet l1 l2 current next gradient slope)
  else none

end Screening

end GroupLasso
