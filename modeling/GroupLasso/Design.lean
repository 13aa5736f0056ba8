import GroupLasso.Failure
import GroupLasso.Mat.Algebra

/-!
Linear maps from coefficients to linear predictors. A row of coefficients is a group, so that a map
can be restricted to some of its groups by selecting columns.
-/

namespace GroupLasso

inductive Design (α : Type) where
  /-- One matrix shared by all responses. -/
  | dense (matrix : Mat α) (responses : Nat)
  /-- A matrix of its own for each response; all have the extent of the first. -/
  | block (first : Mat α) (rest : List (Mat α))

namespace Design

variable {α : Type} [Scalar α]

def withIntercept (matrix : Mat α) (responses : Nat) : Design α :=
  dense
    (Mat.ofFn matrix.rows (matrix.cols + 1) fun row col =>
      if col = 0 then 1 else matrix.get row (col - 1))
    responses

/-- Accepts at least one block, all of one extent. -/
def ofBlocks (blocks : List (Mat α)) : Except (Failure α) (Design α) :=
  match blocks with
  | [] => .error (.lengthMismatch "block design needs at least one block" 1 0)
  | first :: rest => do
      for block in rest do
        Failure.expectShape first.shape block.shape "block design blocks"
      return block first rest

def responses : Design α → Nat
  | dense _ responses => responses
  | block _ rest => rest.length + 1

def blockAt (first : Mat α) (rest : List (Mat α)) (response : Nat) : Mat α :=
  (first :: rest).getD response first

def matrix (design : Design α) (response : Nat) : Mat α :=
  match design with
  | dense matrix _ => matrix
  | block first rest => blockAt first rest response

def inputShape (design : Design α) : Shape := ⟨(design.matrix 0).cols, design.responses⟩

def outputShape (design : Design α) : Shape := ⟨(design.matrix 0).rows, design.responses⟩

def dot (design : Design α) (coef : Mat α) : Mat α :=
  match design with
  | dense matrix _ => matrix.mul coef
  | block first rest =>
      Mat.ofFn first.rows (rest.length + 1) fun row response =>
        let matrix := blockAt first rest response
        Scalar.sumTo matrix.cols fun col => matrix.get row col * coef.get col response

/-- The adjoint map, from linear predictors to coefficients. -/
def adjoint (design : Design α) (output : Mat α) : Mat α :=
  match design with
  | dense matrix _ => matrix.transposeMul output
  | block first rest =>
      Mat.ofFn first.cols (rest.length + 1) fun col response =>
        let matrix := blockAt first rest response
        Scalar.sumTo matrix.rows fun row => matrix.get row col * output.get row response

def restrict (design : Design α) (groups : List Nat) : Design α :=
  match design with
  | dense matrix responses => dense (matrix.selectColumns groups) responses
  | block first rest =>
      block (first.selectColumns groups) (rest.map (·.selectColumns groups))

/-! The same maps, with no answer when the argument does not fit. -/

/-- A shared matrix takes any number of columns; blocks take one each and ignore further ones. -/
def dot? (design : Design α) (coef : Mat α) : Option (Mat α) :=
  let fits : Bool :=
    match design with
    | dense matrix _ => matrix.cols = coef.rows
    | block first rest => rest.length < coef.cols ∧ first.cols = coef.rows
  if fits then some (design.dot coef) else none

def adjoint? (design : Design α) (output : Mat α) : Option (Mat α) :=
  let fits : Bool :=
    match design with
    | dense matrix _ => matrix.rows = output.rows
    | block first rest => rest.length < output.cols ∧ first.rows = output.rows
  if fits then some (design.adjoint output) else none

def restrict? (design : Design α) (groups : List Nat) : Option (Design α) :=
  let first := design.matrix 0
  if first.rows = 0 ∨ ∀ group ∈ groups, group < first.cols then some (design.restrict groups)
  else none

end Design

end GroupLasso
