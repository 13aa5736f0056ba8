import GroupLasso.Scalar
import GroupLasso.Shape

/-!
Matrices with checked extent. Reading an entry is total and gives zero outside the matrix; `Covers`
says that no read inside a block is such a read.
-/

namespace GroupLasso

/-- A matrix as its entries in row order. -/
structure Mat (α : Type) where
  rows : Nat
  cols : Nat
  entries : Array α
  size_entries : entries.size = rows * cols

namespace Mat

variable {α : Type}

def shape (matrix : Mat α) : Shape := ⟨matrix.rows, matrix.cols⟩

@[inline] def ofFn (rows cols : Nat) (entry : Nat → Nat → α) : Mat α where
  rows := rows
  cols := cols
  entries := Array.ofFn (n := rows * cols) fun index => entry (index / cols) (index % cols)
  size_entries := Array.size_ofFn

/-- Every position of the leading block of `rows` by `cols` lies inside the matrix. -/
def Covers (matrix : Mat α) (rows cols : Nat) : Prop :=
  rows = 0 ∨ cols = 0 ∨ (rows ≤ matrix.rows ∧ cols ≤ matrix.cols)

instance (matrix : Mat α) (rows cols : Nat) : Decidable (matrix.Covers rows cols) :=
  inferInstanceAs (Decidable (_ ∨ _ ∨ _))

section
variable [Scalar α]

/-- The entry in a row and column, zero outside the matrix. -/
@[inline] def get (matrix : Mat α) (row col : Nat) : α :=
  if col < matrix.cols then matrix.entries.getD (row * matrix.cols + col) 0 else 0

def zero (rows cols : Nat) : Mat α := ofFn rows cols fun _ _ => 0

def ofColumn (entries : Array α) : Mat α :=
  ofFn entries.size 1 fun row _ => entries.getD row 0

def all (matrix : Mat α) (condition : α → Bool) : Bool :=
  (List.range matrix.cols).all fun col =>
    (List.range matrix.rows).all fun row => condition (matrix.get row col)

def allFinite (matrix : Mat α) : Bool := matrix.all Scalar.isFinite

end

/-! Equality of matrices is equality of extent and of entries. -/

@[simp] theorem rows_ofFn (rows cols : Nat) (entry : Nat → Nat → α) :
    (ofFn rows cols entry).rows = rows := rfl

@[simp] theorem cols_ofFn (rows cols : Nat) (entry : Nat → Nat → α) :
    (ofFn rows cols entry).cols = cols := rfl

theorem index_lt {rows cols row col : Nat} (rowBound : row < rows) (colBound : col < cols) :
    row * cols + col < rows * cols :=
  Nat.lt_of_lt_of_le (Nat.add_lt_add_left colBound _)
    (Nat.succ_mul row cols ▸ Nat.mul_le_mul_right cols rowBound)

theorem get_ofFn [Scalar α] {rows cols row col : Nat} (entry : Nat → Nat → α)
    (rowBound : row < rows) (colBound : col < cols) :
    (ofFn rows cols entry).get row col = entry row col := by
  have bound := index_lt rowBound colBound
  have quotient : (row * cols + col) / cols = row := by
    rw [Nat.mul_comm, Nat.mul_add_div (by omega), Nat.div_eq_of_lt colBound, Nat.add_zero]
  have remainder : (row * cols + col) % cols = col := by
    rw [Nat.mul_comm, Nat.mul_add_mod, Nat.mod_eq_of_lt colBound]
  simp [get, ofFn, colBound, Array.getD, bound, quotient, remainder]

theorem get_eq_zero [Scalar α] {matrix : Mat α} {row col : Nat}
    (outside : matrix.rows ≤ row ∨ matrix.cols ≤ col) : matrix.get row col = 0 := by
  unfold get
  split
  · rename_i colBound
    have rowOutside : matrix.rows ≤ row := by omega
    have : matrix.entries.size ≤ row * matrix.cols + col := by
      rw [matrix.size_entries]
      exact Nat.le_trans (Nat.mul_le_mul_right _ rowOutside) (Nat.le_add_right _ _)
    simp [Array.getD, Nat.not_lt.2 this]
  · rfl

theorem ext_get [Scalar α] {left right : Mat α} (rows : left.rows = right.rows)
    (cols : left.cols = right.cols)
    (entries : ∀ row < left.rows, ∀ col < left.cols, left.get row col = right.get row col) :
    left = right := by
  obtain ⟨leftRows, leftCols, leftEntries, leftSize⟩ := left
  obtain ⟨rightRows, rightCols, rightEntries, rightSize⟩ := right
  simp only at rows cols entries
  subst rows cols
  have same : leftEntries = rightEntries := by
    apply Array.ext (leftSize.trans rightSize.symm)
    intro index leftBound rightBound
    have bound : index < leftRows * leftCols := leftSize ▸ leftBound
    have positive : 0 < leftCols := Nat.pos_of_ne_zero fun none => by simp [none] at bound
    have rowBound : index / leftCols < leftRows := Nat.div_lt_of_lt_mul (Nat.mul_comm _ _ ▸ bound)
    have colBound : index % leftCols < leftCols := Nat.mod_lt _ positive
    have position : index / leftCols * leftCols + index % leftCols = index := by
      rw [Nat.mul_comm]; exact Nat.div_add_mod index leftCols
    have entry := entries _ rowBound _ colBound
    simpa [get, colBound, position, Array.getD, leftBound, rightBound] using entry
  subst same
  rfl

end Mat

end GroupLasso
