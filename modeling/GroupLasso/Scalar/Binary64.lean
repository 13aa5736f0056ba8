import GroupLasso.Scalar

/-!
Double-precision binary floating point as a scalar type.
-/

namespace GroupLasso

/-- Arguments below this magnitude are their own `exp x - 1`: the next term of the series is less than
half of the last bit. -/
def Binary64.expm1Linear : Float := 5e-17

/-- `exp x - 1`. Below magnitude one, where the difference would cancel, it is
`2 · exp (x / 2) · sinh (x / 2)`; the least values cannot be halved exactly and need not be. -/
def Binary64.expm1 (x : Float) : Float :=
  if Float.abs x < Binary64.expm1Linear then x
  else if Float.abs x < 1.0 then 2.0 * Float.exp (x / 2.0) * Float.sinh (x / 2.0)
  else Float.exp x - 1.0

instance instScalarFloat : Scalar Float where
  zero := 0.0
  one := 1.0
  decideLT := inferInstance
  decideLE := inferInstance
  ofNat := Float.ofNat
  abs := Float.abs
  sqrt := Float.sqrt
  log := Float.log
  exp := Float.exp
  expm1 := Binary64.expm1
  isFinite := Float.isFinite
  ceil x := x.ceil.toUInt64.toNat

end GroupLasso
