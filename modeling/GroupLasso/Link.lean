import GroupLasso.Scalar

/-!
Link functions between means and linear predictors.
-/

namespace GroupLasso

open Scalar

inductive Link where
  | log
  | cloglog
  deriving DecidableEq, Repr

namespace Link

variable {α : Type} [Scalar α]

/-- The linear predictor of a mean. Means outside the range of the link are moved to its edge. -/
def predictor (link : Link) (mean : α) : α :=
  match link with
  | log => Scalar.log (larger mean 1e-300)
  | cloglog => Scalar.log (-Scalar.log (1 - clamp 1e-10 (1 - 1e-10) mean))

/-- The mean of a linear predictor. Complementary log-log means stay strictly between 0 and 1. -/
def mean (link : Link) (predictor : α) : α :=
  match link with
  | log => exp predictor
  | cloglog =>
      let probability :=
        if 10 < predictor then 1 - 1e-14
        else if predictor < -30 then 1e-14
        else -expm1 (-exp predictor)
      clamp 1e-14 (1 - 1e-14) probability

end Link

end GroupLasso
