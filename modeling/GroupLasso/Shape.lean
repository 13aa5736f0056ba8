/-!
Two-dimensional shapes of coefficients, predictors and responses.
-/

namespace GroupLasso

/-- Coefficients have one row per group and one column per response; linear predictors have one row
per case and one column per response. -/
structure Shape where
  rows : Nat
  cols : Nat
  deriving DecidableEq, Repr, Inhabited

namespace Shape

def size (shape : Shape) : Nat := shape.rows * shape.cols

def isEmpty (shape : Shape) : Bool := shape.size == 0

def text (shape : Shape) : String :=
  "(" ++ toString shape.rows ++ ", " ++ toString shape.cols ++ ")"

end Shape

end GroupLasso
