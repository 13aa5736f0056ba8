import GroupLasso.Mat.Algebra
import GroupLasso.Proofs.Real

/-!
The entries of gathered, scattered and combined matrices. Scattering rows to distinct positions and
reading them back loses nothing, and a sum over all positions of something that vanishes at the
others is a sum over the listed ones.
-/

namespace GroupLasso.Mat

open Scalar

section
variable {α : Type}

theorem rows_eq {matrix : Mat α} {shape : Shape} (equal : matrix.shape = shape) :
    matrix.rows = shape.rows := congrArg Shape.rows equal

theorem cols_eq {matrix : Mat α} {shape : Shape} (equal : matrix.shape = shape) :
    matrix.cols = shape.cols := congrArg Shape.cols equal

theorem getD_lt {indices : List Nat} {count position : Nat} (inRange : ∀ index ∈ indices, index < count)
    (bound : position < indices.length) : indices.getD position 0 < count := by
  rw [List.getD_eq_getElem _ _ bound]
  exact inRange _ (List.getElem_mem bound)

theorem getD_composed {first second : List Nat} {position : Nat} (bound : position < second.length) :
    (second.map fun position => first.getD position 0).getD position 0 =
      first.getD (second.getD position 0) 0 := by
  simp [bound]

variable [Scalar α]

@[simp] theorem rows_zero (rows cols : Nat) : (zero rows cols : Mat α).rows = rows := rfl

@[simp] theorem cols_zero (rows cols : Nat) : (zero rows cols : Mat α).cols = cols := rfl

@[simp] theorem rows_selectRows (matrix : Mat α) (indices : List Nat) :
    (matrix.selectRows indices).rows = indices.length := rfl

@[simp] theorem cols_selectRows (matrix : Mat α) (indices : List Nat) :
    (matrix.selectRows indices).cols = matrix.cols := rfl

@[simp] theorem rows_selectColumns (matrix : Mat α) (indices : List Nat) :
    (matrix.selectColumns indices).rows = matrix.rows := rfl

@[simp] theorem cols_selectColumns (matrix : Mat α) (indices : List Nat) :
    (matrix.selectColumns indices).cols = indices.length := rfl

@[simp] theorem rows_setRow (matrix : Mat α) (index width : Nat) (entry : Nat → α) :
    (matrix.setRow index width entry).rows = matrix.rows := rfl

@[simp] theorem cols_setRow (matrix : Mat α) (index width : Nat) (entry : Nat → α) :
    (matrix.setRow index width entry).cols = matrix.cols := rfl

@[simp] theorem get_zero (rows cols row col : Nat) : (zero rows cols : Mat α).get row col = 0 := by
  by_cases inside : row < rows ∧ col < cols
  · exact get_ofFn _ inside.1 inside.2
  · exact get_eq_zero (by simp only [rows_zero, cols_zero]; omega)

theorem get_selectRows (matrix : Mat α) {indices : List Nat} {position col : Nat}
    (bound : position < indices.length) :
    (matrix.selectRows indices).get position col = matrix.get (indices.getD position 0) col := by
  by_cases colBound : col < matrix.cols
  · exact get_ofFn _ bound colBound
  · have outside := not_lt.1 colBound
    have gathered : (matrix.selectRows indices).get position col = 0 := get_eq_zero (.inr outside)
    have source : matrix.get (indices.getD position 0) col = 0 := get_eq_zero (.inr outside)
    rw [gathered, source]

theorem get_selectColumns (matrix : Mat α) {indices : List Nat} {row position : Nat}
    (bound : position < indices.length) :
    (matrix.selectColumns indices).get row position = matrix.get row (indices.getD position 0) := by
  by_cases rowBound : row < matrix.rows
  · exact get_ofFn _ rowBound bound
  · have outside := not_lt.1 rowBound
    have gathered : (matrix.selectColumns indices).get row position = 0 := get_eq_zero (.inl outside)
    have source : matrix.get row (indices.getD position 0) = 0 := get_eq_zero (.inl outside)
    rw [gathered, source]

theorem selectColumns_selectColumns (matrix : Mat α) {first second : List Nat}
    (inRange : ∀ position ∈ second, position < first.length) :
    (matrix.selectColumns first).selectColumns second =
      matrix.selectColumns (second.map fun position => first.getD position 0) := by
  refine ext_get rfl (List.length_map _).symm ?_
  intro row _ position (bound : position < second.length)
  have mapped : position < (second.map fun position => first.getD position 0).length := by
    rwa [List.length_map]
  rw [get_selectColumns _ bound, get_selectColumns _ (getD_lt inRange bound),
    get_selectColumns _ mapped, getD_composed bound]

theorem get_setRow (matrix : Mat α) (index width : Nat) (entry : Nat → α) {row col : Nat}
    (rowBound : row < matrix.rows) (colBound : col < matrix.cols) :
    (matrix.setRow index width entry).get row col =
      if row = index ∧ col < width then entry col else matrix.get row col :=
  get_ofFn _ rowBound colBound

def scatterFrom (source target : Mat α) (indices : List Nat) (start : Nat) : Mat α :=
  (indices.zipIdx start).foldl
    (fun matrix (index, position) => matrix.setRow index source.cols (source.get position)) target

theorem scatterFrom_cons (source target : Mat α) (index : Nat) (rest : List Nat) (start : Nat) :
    scatterFrom source target (index :: rest) start =
      scatterFrom source (target.setRow index source.cols (source.get start)) rest (start + 1) := rfl

theorem shape_scatterFrom (source target : Mat α) (indices : List Nat) (start : Nat) :
    (scatterFrom source target indices start).shape = target.shape := by
  induction indices generalizing target start with
  | nil => rfl
  | cons index rest ih => rw [scatterFrom_cons, ih]; rfl

theorem get_scatterFrom (source target : Mat α) {indices : List Nat} (start : Nat)
    (distinct : indices.Nodup) {row col : Nat} (rowBound : row < target.rows)
    (colBound : col < target.cols) :
    (scatterFrom source target indices start).get row col =
      if row ∈ indices ∧ col < source.cols then source.get (start + indices.idxOf row) col
      else target.get row col := by
  induction indices generalizing target start with
  | nil => simp [scatterFrom]
  | cons index rest ih =>
      obtain ⟨new, distinct⟩ := List.nodup_cons.1 distinct
      rw [scatterFrom_cons, ih (target.setRow index source.cols (source.get start)) (start + 1)
        distinct rowBound colBound, get_setRow _ _ _ _ rowBound colBound]
      by_cases first : row = index
      · subst first
        simp [new]
      · rw [List.idxOf_cons_ne _ (Ne.symm first)]
        simp [first, Nat.add_comm, Nat.add_left_comm]

@[simp] theorem rows_scatterRows (target : Mat α) (indices : List Nat) (source : Mat α) :
    (target.scatterRows indices source).rows = target.rows :=
  rows_eq (shape_scatterFrom source target indices 0)

@[simp] theorem cols_scatterRows (target : Mat α) (indices : List Nat) (source : Mat α) :
    (target.scatterRows indices source).cols = target.cols :=
  cols_eq (shape_scatterFrom source target indices 0)

theorem get_scatterRows_listed (target source : Mat α) {indices : List Nat}
    (distinct : indices.Nodup) {position col : Nat} (bound : position < indices.length)
    (rowBound : indices.getD position 0 < target.rows) (colBound : col < target.cols)
    (width : col < source.cols) :
    (target.scatterRows indices source).get (indices.getD position 0) col =
      source.get position col := by
  rw [scatterRows, ← scatterFrom, get_scatterFrom _ _ _ distinct rowBound colBound]
  rw [List.getD_eq_getElem _ _ bound, distinct.idxOf_getElem _ bound, Nat.zero_add]
  exact if_pos ⟨List.getElem_mem bound, width⟩

theorem get_scatterRows_unlisted (target source : Mat α) {indices : List Nat}
    (distinct : indices.Nodup) {row : Nat} (col : Nat) (unlisted : row ∉ indices) :
    (target.scatterRows indices source).get row col = target.get row col := by
  by_cases inside : row < target.rows ∧ col < target.cols
  · rw [scatterRows, ← scatterFrom, get_scatterFrom _ _ _ distinct inside.1 inside.2]
    simp [unlisted]
  · rw [get_eq_zero (by simp only [rows_scatterRows, cols_scatterRows]; omega),
      get_eq_zero (by omega)]

theorem get_embedded (coef : Mat α) {rows cols : Nat} {indices : List Nat}
    (distinct : indices.Nodup) (inRange : ∀ index ∈ indices, index < rows)
    (width : coef.cols = cols) {position : Nat} (bound : position < indices.length) (col : Nat) :
    ((zero rows cols).scatterRows indices coef).get (indices.getD position 0) col =
      coef.get position col := by
  subst width
  by_cases colBound : col < coef.cols
  · exact get_scatterRows_listed (zero rows coef.cols) coef distinct bound (getD_lt inRange bound)
      colBound colBound
  · rw [get_eq_zero (.inr (not_lt.1 colBound))]
    exact get_eq_zero (.inr (by rw [cols_scatterRows]; exact not_lt.1 colBound))

theorem get_embedded_unlisted (coef : Mat α) {rows cols : Nat} {indices : List Nat}
    (distinct : indices.Nodup) {row : Nat} (unlisted : row ∉ indices) (col : Nat) :
    ((zero rows cols).scatterRows indices coef).get row col = 0 := by
  rw [get_scatterRows_unlisted _ _ distinct col unlisted, get_zero]

theorem getD_idxOf {indices : List Nat} {index : Nat} (listed : index ∈ indices) :
    indices.getD (indices.idxOf index) 0 = index := by
  rw [List.getD_eq_getElem _ _ (List.idxOf_lt_length_of_mem listed), List.getElem_idxOf]

theorem scatterRows_selectRows {matrix : Mat α} {rows cols : Nat} {indices : List Nat}
    (distinct : indices.Nodup) (inRange : ∀ index ∈ indices, index < rows)
    (shape : matrix.shape = ⟨rows, cols⟩)
    (support : ∀ index ∉ indices, ∀ col, matrix.get index col = 0) :
    (zero rows cols).scatterRows indices (matrix.selectRows indices) = matrix := by
  have width : (matrix.selectRows indices).cols = cols := (cols_eq shape : matrix.cols = cols)
  refine ext_get (by simp [rows_eq shape]) (by simp [cols_eq shape]) ?_
  intro index _ col _
  by_cases listed : index ∈ indices
  · have position : indices.idxOf index < indices.length := List.idxOf_lt_length_of_mem listed
    have found := getD_idxOf listed
    have embedded := get_embedded (matrix.selectRows indices) distinct inRange width position col
    rw [found, get_selectRows _ position, found] at embedded
    exact embedded
  · rw [get_embedded_unlisted _ distinct listed, support index listed]

theorem selectRows_scatterRows {target source : Mat α} {indices : List Nat} (distinct : indices.Nodup)
    (inRange : ∀ index ∈ indices, index < target.rows)
    (shape : source.shape = ⟨indices.length, target.cols⟩) :
    (target.scatterRows indices source).selectRows indices = source := by
  have width : source.cols = target.cols := cols_eq shape
  refine ext_get (rows_eq shape).symm ((cols_scatterRows _ _ _).trans width.symm) ?_
  intro position (bound : position < indices.length) col colBound
  rw [cols_selectRows, cols_scatterRows] at colBound
  rw [get_selectRows _ bound]
  exact get_scatterRows_listed target source distinct bound (getD_lt inRange bound) colBound
    (width ▸ colBound)

theorem selectRows?_eq (matrix : Mat α) {indices : List Nat}
    (inRange : ∀ index ∈ indices, index < matrix.rows) :
    matrix.selectRows? indices = some (matrix.selectRows indices) := if_pos (.inr inRange)

theorem scatterRows?_eq {target source : Mat α} {indices : List Nat}
    (inRange : ∀ index ∈ indices, index < target.rows)
    (shape : source.shape = ⟨indices.length, target.cols⟩) :
    target.scatterRows? indices source = some (target.scatterRows indices source) :=
  if_pos (.inr (.inr ⟨(cols_eq shape).le, (rows_eq shape).ge, inRange⟩))

theorem inner?_eq {left right : Mat α} (shape : left.shape = right.shape) :
    left.inner? right = some (left.inner right) :=
  if_pos (.inr ⟨rows_eq shape, (cols_eq shape).le⟩)

theorem row_ofFn {rows cols index : Nat} (entry : Nat → Nat → α) (bound : index < rows) :
    (ofFn rows cols entry).row index = (List.range cols).map (entry index) := by
  apply List.map_congr_left
  intro col member
  exact get_ofFn entry bound (List.mem_range.1 member)

theorem eq_iff_rows {left right : Mat α} (rows : left.rows = right.rows)
    (cols : left.cols = right.cols) :
    left = right ↔ ∀ index < left.rows, left.row index = right.row index := by
  constructor
  · rintro rfl index _
    rfl
  · intro equal
    apply ext_get rows cols
    intro index bound col colBound
    have entries := equal index bound
    rw [row, row, ← cols, List.map_inj_left] at entries
    exact entries col (List.mem_range.2 colBound)

end

theorem get_addScaled {left right : Mat ℝ} (shape : left.shape = right.shape) (scale : ℝ)
    (row col : Nat) :
    (left.addScaled scale right).get row col = left.get row col + scale * right.get row col := by
  by_cases inside : row < left.rows ∧ col < left.cols
  · exact get_ofFn _ inside.1 inside.2
  · have outside : left.rows ≤ row ∨ left.cols ≤ col := by omega
    have other : right.rows ≤ row ∨ right.cols ≤ col := by
      have rows : left.rows = right.rows := rows_eq shape
      have cols : left.cols = right.cols := cols_eq shape
      omega
    rw [get_eq_zero outside, get_eq_zero other, mul_zero, add_zero]
    exact get_eq_zero outside

theorem addScaled_zero {base other : Mat ℝ} (shape : base.shape = other.shape) :
    base.addScaled 0 other = base := by
  refine ext_get rfl rfl fun row _ col _ => ?_
  rw [get_addScaled shape, zero_mul, add_zero]

theorem addScaled_difference {base other : Mat ℝ} (shape : base.shape = other.shape) :
    base.addScaled 1 (other.addScaled (-1) base) = other := by
  have difference : base.shape = (other.addScaled (-1) base).shape := shape
  refine ext_get (rows_eq shape) (cols_eq shape) fun row _ col _ => ?_
  rw [get_addScaled difference, get_addScaled shape.symm]
  ring

theorem inner_real (left right : Mat ℝ) : left.inner right =
    ∑ row ∈ Finset.range left.rows, ∑ col ∈ Finset.range left.cols,
      left.get row col * right.get row col := by
  simp only [inner, sumTo_real]
  exact Finset.sum_comm

theorem inner_comm {left right : Mat ℝ} (shape : left.shape = right.shape) :
    left.inner right = right.inner left := by
  have rows : left.rows = right.rows := rows_eq shape
  have cols : left.cols = right.cols := cols_eq shape
  simp only [inner_real, rows, cols, mul_comm]

theorem rowNorm_eq_norm_row (matrix : Mat ℝ) (index : Nat) :
    matrix.rowNorm index = norm (matrix.row index) := by
  rw [rowNorm, row, norm_real, sumTo_real, sqrt_real, List.map_map]
  rfl

theorem rowNorm_eq_zero {matrix : Mat ℝ} {index : Nat} :
    matrix.rowNorm index = 0 ↔ ∀ col < matrix.cols, matrix.get index col = 0 := by
  simp [rowNorm_eq_norm_row, norm_eq_zero_real, row]

theorem rowNorm_pos_iff {matrix : Mat ℝ} {index : Nat} :
    0 < matrix.rowNorm index ↔ matrix.rowNorm index ≠ 0 := by
  rw [rowNorm_eq_norm_row]
  exact ⟨ne_of_gt, norm_pos_real⟩

theorem sum_positions (indices : List Nat) (term : Nat → ℝ) :
    ∑ position ∈ Finset.range indices.length, term (indices.getD position 0) =
      (indices.map term).sum := by
  have gathered : indices.map term =
      (List.range indices.length).map fun position => term (indices.getD position 0) := by
    apply List.ext_getElem (by simp)
    intro position bound _
    rw [List.length_map] at bound
    rw [List.getElem_map, List.getElem_map, List.getElem_range, List.getD_eq_getElem _ _ bound]
  rw [gathered]
  rfl

theorem sum_listed {count : Nat} {indices : List Nat} {term : Nat → ℝ} (distinct : indices.Nodup)
    (unlisted : ∀ index, index ∉ indices → term index = 0)
    (beyond : ∀ index, count ≤ index → term index = 0) :
    ∑ index ∈ Finset.range count, term index =
      ∑ position ∈ Finset.range indices.length, term (indices.getD position 0) := by
  calc ∑ index ∈ Finset.range count, term index
      = ∑ index ∈ indices.toFinset, term index := by
        apply Finset.sum_congr_of_eq_on_inter
        · intro index _ absent
          exact unlisted index fun member => absent (List.mem_toFinset.2 member)
        · intro index _ outside
          exact beyond index (not_lt.1 fun bound => outside (Finset.mem_range.2 bound))
        · intro index _ _
          rfl
    _ = (indices.map term).sum := List.sum_toFinset term distinct
    _ = ∑ position ∈ Finset.range indices.length, term (indices.getD position 0) :=
        (sum_positions indices term).symm

theorem sum_order {count : Nat} {order : List Nat} (permutes : order.Perm (List.range count))
    (term : Nat → ℝ) : ∑ position ∈ Finset.range order.length, term (order.getD position 0) =
      ∑ index ∈ Finset.range count, term index := by
  rw [sum_positions, (permutes.map term).sum_eq]
  rfl

theorem sum_extent {first second : Nat} {term : Nat → ℝ}
    (beyond : ∀ index, first ≤ index ∨ second ≤ index → term index = 0) :
    ∑ index ∈ Finset.range first, term index = ∑ index ∈ Finset.range second, term index := by
  apply Finset.sum_congr_of_eq_on_inter
  · intro index _ outside
    exact beyond index (.inr (not_lt.1 fun bound => outside (Finset.mem_range.2 bound)))
  · intro index _ outside
    exact beyond index (.inl (not_lt.1 fun bound => outside (Finset.mem_range.2 bound)))
  · intro index _ _
    rfl

end GroupLasso.Mat
