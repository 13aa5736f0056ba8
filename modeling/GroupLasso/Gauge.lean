import GroupLasso.Mat.Rows

/-!
The dual gauge of the sparse-group norm `l1 ‖·‖₁ + l2 ‖·‖₂`: the least `t ≥ 0` for which a vector lies
in `t` times the sum of the `l1` cube and the `l2` ball, which is the least `t` with
`‖soft (v, t · l1)‖₂ ≤ t · l2`. A group whose gradient has a gauge of at most the Lagrange value can
stay at zero; screening and the optimality checks both rest on it.
-/

namespace GroupLasso

open Scalar

inductive Radius (α : Type) where
  | finite (value : α)
  /-- No multiple is large enough, because both weights are zero. -/
  | unbounded

namespace Radius

variable {α : Type} [Scalar α]

/-- Only an infinite threshold is as large as an unbounded radius. -/
def AtMost (radius : Radius α) (threshold : α) : Prop :=
  match radius with
  | finite value => value ≤ threshold
  | unbounded => 0 < threshold ∧ isFinite threshold = false

instance (radius : Radius α) (threshold : α) : Decidable (radius.AtMost threshold) :=
  match radius with
  | finite value => inferInstanceAs (Decidable (value ≤ threshold))
  | unbounded => inferInstanceAs (Decidable (_ ∧ _))

/-- The value of a finite radius, and zero otherwise. -/
def toScalar : Radius α → α
  | finite value => value
  | unbounded => 0

def isZero : Radius α → Bool
  | finite value => IsZero value
  | unbounded => false

/-- Half the width of the multiple of the cube with side weight `l1`, for a radius that is finite and
not zero. -/
def cap? (radius : Radius α) (l1 : α) : Option α :=
  match radius with
  | finite value => if ¬ IsZero value ∧ isFinite value then some (value * l1) else none
  | unbounded => none

end Radius

namespace Gauge

variable {α : Type} [Scalar α]

/-- Unordered values come first, then values in descending order. -/
def ordersBefore (left right : α) : Bool :=
  IsUnordered left ∨ (¬ IsUnordered right ∧ right ≤ left)

def magnitudes (vector : List α) : List α := (vector.map Scalar.abs).mergeSort ordersBefore

/-- The root of the defining equation between two breakpoints. With the `k` largest magnitudes above
the threshold it is the root of `Σ_{j ≤ k} (aⱼ - t · l1)² = (t · l2)²`, written as `s2` over a sum so
that nothing cancels. -/
structure Crossing (α : Type) where
  /-- The next breakpoint, below which one more magnitude counts. -/
  lower : α
  root : α
  /-- The breakpoint of the last magnitude that counts. -/
  upper : α

/-- What the search for the crossing knows of the magnitudes that it has passed: their number, their
sum and the sum of their squares. -/
structure Passed (α : Type) where
  count : Nat
  sum : α
  squares : α

def Passed.add (passed : Passed α) (magnitude : α) : Passed α :=
  ⟨passed.count + 1, passed.sum + magnitude, passed.squares + magnitude * magnitude⟩

/-- The first pair of neighbouring breakpoints, from above, between which the equation has its
root. -/
def crossing? (l1 l2 : α) (passed : Passed α) : List α → Option (Crossing α)
  | [] => none
  | magnitude :: rest =>
      let passed := passed.add magnitude
      let next := rest.headD 0
      let lower := next / l1
      let count : α := ofNat passed.count
      let residual := passed.squares - 2 * next * passed.sum + count * next * next
      if (lower * l2) * (lower * l2) ≤ residual then
        let discriminant :=
          larger
            (l2 * l2 * passed.squares -
              l1 * l1 * (count * passed.squares - passed.sum * passed.sum)) 0
        some ⟨lower, passed.squares / (l1 * passed.sum + sqrt discriminant), magnitude / l1⟩
      else crossing? l1 l2 passed rest

def crossing (vector : List α) (l1 l2 : α) : Option (Crossing α) :=
  crossing? l1 l2 ⟨0, 0, 0⟩ (magnitudes vector)

/-- The gauge by regime of the weights. The empty and the zero vector have gauge zero. -/
def gauge (vector : List α) (l1 l2 : α) : Radius α :=
  let largest := (magnitudes vector).headD 0
  if IsZero largest then .finite 0
  else if IsZero l1 ∧ IsZero l2 then .unbounded
  else if IsZero l1 then .finite (norm vector / l2)
  else if IsZero l2 then .finite (largest / l1)
  else
    match crossing vector l1 l2 with
    | some found => .finite (clamp found.lower found.upper found.root)
    | none => .finite (norm vector / l2)

/-- The gauge is searched between ordered breakpoints, which negative or unordered weights can
prevent. -/
def IsOrdered (vector : List α) (l1 l2 : α) : Prop :=
  IsZero ((magnitudes vector).headD 0) ∨ IsZero l1 ∨ IsZero l2 ∨
    ∀ found ∈ crossing vector l1 l2, found.lower ≤ found.upper

instance (vector : List α) (l1 l2 : α) : Decidable (IsOrdered vector l1 l2) :=
  inferInstanceAs (Decidable (_ ∨ _ ∨ _ ∨ _))

/-- A vector as the sum of a part in the cube and a part in the ball of its gauge. -/
structure Split (α : Type) where
  radius : Radius α
  l1Part : List α
  l2Part : List α

/-- Clips the vector to the cube of its gauge and leaves the rest to the ball. The parts of a vector
of gauge zero are zero, and an infinite gauge leaves all to the ball. -/
def split (vector : List α) (l1 l2 : α) : Split α :=
  let radius := gauge vector l1 l2
  match radius.cap? l1 with
  | some cap =>
      let l1Part := vector.map (clamp (-cap) cap)
      ⟨radius, l1Part, vector.zipWith (· - ·) l1Part⟩
  | none =>
      let zeros := vector.map fun _ => (0 : α)
      ⟨radius, zeros, if radius.isZero then zeros else vector⟩

def SplitIsOrdered (vector : List α) (l1 l2 : α) : Prop :=
  IsOrdered vector l1 l2 ∧ ∀ cap ∈ (gauge vector l1 l2).cap? l1, -cap ≤ cap

instance (vector : List α) (l1 l2 : α) : Decidable (SplitIsOrdered vector l1 l2) :=
  inferInstanceAs (Decidable (_ ∧ _))

def inside (vector : List α) (threshold l1 l2 : α) : Bool :=
  (gauge vector l1 l2).AtMost threshold

end Gauge

end GroupLasso
