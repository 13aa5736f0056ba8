import GroupLasso.Mat.Basic

/-!
Rows and columns of a matrix: reading a row, gathering listed rows or columns, and writing rows back
to the positions they were gathered from.
-/

namespace GroupLasso.Mat

variable {α : Type} [Scalar α]

def row (matrix : Mat α) (index : Nat) : List α :=
  (List.range matrix.cols).map fun col => matrix.get index col

def firstColumn (matrix : Mat α) : List α :=
  (List.range matrix.rows).map fun row => matrix.get row 0

def selectRows (matrix : Mat α) (indices : List Nat) : Mat α :=
  ofFn indices.length matrix.cols fun row col => matrix.get (indices.getD row 0) col

def selectColumns (matrix : Mat α) (indices : List Nat) : Mat α :=
  ofFn matrix.rows indices.length fun row col => matrix.get row (indices.getD col 0)

def setRow (matrix : Mat α) (index width : Nat) (entry : Nat → α) : Mat α :=
  ofFn matrix.rows matrix.cols fun row col =>
    if row = index ∧ col < width then entry col else matrix.get row col

/-- Writes the rows of `source`, in order, to the listed rows of `target`. -/
def scatterRows (target : Mat α) (indices : List Nat) (source : Mat α) : Mat α :=
  indices.zipIdx.foldl
    (fun matrix (index, position) => matrix.setRow index source.cols (source.get position)) target

/-! The same operations, with no answer when they would read or write outside a matrix. -/

def row? (matrix : Mat α) (index : Nat) : Option (List α) :=
  if matrix.cols = 0 ∨ index < matrix.rows then some (matrix.row index) else none

def selectRows? (matrix : Mat α) (indices : List Nat) : Option (Mat α) :=
  if matrix.cols = 0 ∨ ∀ index ∈ indices, index < matrix.rows then some (matrix.selectRows indices)
  else none

def selectColumns? (matrix : Mat α) (indices : List Nat) : Option (Mat α) :=
  if matrix.rows = 0 ∨ ∀ index ∈ indices, index < matrix.cols then
    some (matrix.selectColumns indices)
  else none

def scatterRows? (target : Mat α) (indices : List Nat) (source : Mat α) : Option (Mat α) :=
  if source.cols = 0 ∨ indices = [] ∨ (source.cols ≤ target.cols ∧
      indices.length ≤ source.rows ∧ ∀ index ∈ indices, index < target.rows) then
    some (target.scatterRows indices source)
  else none

end GroupLasso.Mat
