import GroupLasso.Mat.Rows

/-!
Sums, products, inner products and norms of matrices.
-/

namespace GroupLasso.Mat

open Scalar

variable {α : Type} [Scalar α]

def add (left right : Mat α) : Mat α :=
  ofFn left.rows left.cols fun row col => left.get row col + right.get row col

def addScaled (left : Mat α) (scale : α) (right : Mat α) : Mat α :=
  ofFn left.rows left.cols fun row col => left.get row col + scale * right.get row col

/-- Entrywise product, of the extent of the second factor. -/
def scaleEntries (scales matrix : Mat α) : Mat α :=
  ofFn matrix.rows matrix.cols fun row col => scales.get row col * matrix.get row col

def mul (left right : Mat α) : Mat α :=
  ofFn left.rows right.cols fun row col =>
    sumTo left.cols fun inner => left.get row inner * right.get inner col

def transposeMul (left right : Mat α) : Mat α :=
  ofFn left.cols right.cols fun row col =>
    sumTo left.rows fun inner => left.get inner row * right.get inner col

def inner (left right : Mat α) : α :=
  sumTo left.cols fun col => sumTo left.rows fun row => left.get row col * right.get row col

def rowNorm (matrix : Mat α) (index : Nat) : α :=
  sqrt (sumTo matrix.cols fun col => matrix.get index col * matrix.get index col)

def rowNorms (matrix : Mat α) : List α := (List.range matrix.rows).map matrix.rowNorm

/-- Sum of the squares of the entries, each multiplied by `scale` before it is squared. -/
def sumSquares (matrix : Mat α) (scale : α) : α :=
  sumTo matrix.cols fun col => sumTo matrix.rows fun row =>
    let entry := scale * matrix.get row col
    entry * entry

/-- Entries from this magnitude on are scaled down before they are squared. -/
def largeScale : α := ofNat (1 <<< 511)

/-- Square root of the sum of the squared entries. Large matrices are scaled down and small ones
scaled up before squaring, so that a square neither overflows nor vanishes. -/
def frobenius (matrix : Mat α) : α :=
  let scaledDown := matrix.sumSquares (1 / largeScale)
  let plain := matrix.sumSquares 1
  if 1 ≤ scaledDown then sqrt scaledDown * largeScale
  else if 1 ≤ plain then sqrt plain
  else sqrt (matrix.sumSquares largeScale) * (1 / largeScale)

def inner? (left right : Mat α) : Option α :=
  if left.cols = 0 ∨ (left.rows = right.rows ∧ left.cols ≤ right.cols) then
    some (left.inner right)
  else none

def addScaled? (left : Mat α) (scale : α) (right : Mat α) : Option (Mat α) :=
  if left.shape = right.shape then some (left.addScaled scale right) else none

def rowNorm? (matrix : Mat α) (index : Nat) : Option α :=
  if matrix.cols = 0 ∨ index < matrix.rows then some (matrix.rowNorm index) else none

end GroupLasso.Mat
