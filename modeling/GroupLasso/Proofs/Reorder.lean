import GroupLasso.Proofs.Duality
import GroupLasso.Proofs.Exact
import GroupLasso.Proofs.Solver

/-!
Problems whose groups are listed in another order. Norms, inner products and values are sums over the
groups, and the proximal map works on one group at a time, so that the solver takes the same decisions
and the same steps, and its iterates have the same rows in the other order.
-/

namespace GroupLasso

open Scalar

namespace Mat

variable {order : List Nat} {left right matrix : Mat ℝ}

theorem mem_order {count : Nat} (permutes : order.Perm (List.range count)) :
    ∀ index ∈ order, index < count :=
  fun _ member => List.mem_range.1 (permutes.mem_iff.1 member)

theorem length_order {count : Nat} (permutes : order.Perm (List.range count)) :
    order.length = count := permutes.length_eq.trans List.length_range

theorem forall_order {count : Nat} (permutes : order.Perm (List.range count))
    {property : Nat → Prop} :
    (∀ position < order.length, property (order.getD position 0)) ↔
      ∀ index < count, property index := by
  constructor
  · intro holds index bound
    have listed : index ∈ order := permutes.mem_iff.2 (List.mem_range.2 bound)
    exact getD_idxOf listed ▸ holds _ (List.idxOf_lt_length_of_mem listed)
  · intro holds position bound
    exact holds _ (getD_lt (mem_order permutes) bound)

theorem selectRows_ofFn {rows cols : Nat} {entry other : Nat → Nat → ℝ}
    (inRange : ∀ index ∈ order, index < rows)
    (agree : ∀ position < order.length, ∀ col < cols,
      other position col = entry (order.getD position 0) col) :
    (ofFn rows cols entry).selectRows order = ofFn order.length cols other := by
  refine ext_get rfl rfl ?_
  intro position (bound : position < order.length) col (colBound : col < cols)
  rw [get_selectRows _ bound, get_ofFn _ (getD_lt inRange bound) colBound, get_ofFn _ bound colBound,
    agree position bound col colBound]

theorem selectRows_zero (rows cols : Nat) :
    (zero rows cols : Mat ℝ).selectRows order = zero order.length cols := by
  refine ext_get rfl rfl ?_
  intro position (bound : position < order.length) col _
  rw [get_selectRows _ bound, get_zero, get_zero]

theorem selectRows_selectRows (matrix : Mat ℝ) {second : List Nat}
    (inRange : ∀ position ∈ second, position < order.length) :
    (matrix.selectRows order).selectRows second =
      matrix.selectRows (second.map fun position => order.getD position 0) := by
  refine ext_get (List.length_map _).symm rfl ?_
  intro position (bound : position < second.length) col _
  have mapped : position < (second.map fun position => order.getD position 0).length := by
    rwa [List.length_map]
  rw [get_selectRows _ bound, get_selectRows _ (getD_lt inRange bound), get_selectRows _ mapped,
    getD_composed bound]

theorem selectRows_addScaled (shape : left.shape = right.shape) (scale : ℝ) :
    (left.addScaled scale right).selectRows order =
      (left.selectRows order).addScaled scale (right.selectRows order) := by
  have selected : (left.selectRows order).shape = (right.selectRows order).shape :=
    congrArg (Shape.mk order.length) (cols_eq shape)
  refine ext_get rfl rfl ?_
  intro position (bound : position < order.length) col _
  rw [get_selectRows _ bound, get_addScaled shape, get_addScaled selected, get_selectRows _ bound,
    get_selectRows _ bound]

theorem inner_selectRows (permutes : order.Perm (List.range left.rows)) (right : Mat ℝ) :
    (left.selectRows order).inner (right.selectRows order) = left.inner right := by
  rw [inner_real, inner_real, ← sum_order permutes]
  refine Finset.sum_congr rfl fun position member => Finset.sum_congr rfl fun col _ => ?_
  have bound : position < order.length := Finset.mem_range.1 member
  rw [get_selectRows _ bound, get_selectRows _ bound]

theorem frobenius_eq_inner (matrix : Mat ℝ) : matrix.frobenius = √(matrix.inner matrix) := by
  rw [frobenius_real, inner_real, Finset.sum_comm]
  simp only [sq]

theorem frobenius_selectRows (permutes : order.Perm (List.range matrix.rows)) :
    (matrix.selectRows order).frobenius = matrix.frobenius := by
  rw [frobenius_eq_inner, frobenius_eq_inner, inner_selectRows permutes]

theorem rowNorm_selectRows (matrix : Mat ℝ) {position : Nat} (bound : position < order.length) :
    (matrix.selectRows order).rowNorm position = matrix.rowNorm (order.getD position 0) := by
  rw [rowNorm_eq_norm_row, rowNorm_eq_norm_row, row_selectRows matrix bound]

end Mat

namespace Penalty

variable {penalty : Penalty ℝ} {order : List Nat} {coef : Mat ℝ}

theorem over_over {second : List Nat} (inRange : ∀ position ∈ second, position < order.length) :
    (penalty.over order).over second =
      penalty.over (second.map fun position => order.getD position 0) := by
  have l1 : second.map (penalty.over order).l1At =
      (second.map fun position => order.getD position 0).map penalty.l1At := by
    rw [List.map_map]
    exact List.map_congr_left fun position member => l1At_over (inRange position member)
  have l2 : second.map (penalty.over order).l2At =
      (second.map fun position => order.getD position 0).map penalty.l2At := by
    rw [List.map_map]
    exact List.map_congr_left fun position member => l2At_over (inRange position member)
  rw [Penalty.over, l1, l2]
  simp only [Penalty.over, List.length_map]

theorem value_reordered (permutes : order.Perm (List.range penalty.groups)) (coef : Mat ℝ) :
    (penalty.over order).value (coef.selectRows order) = penalty.value coef := by
  rw [value_real, value_real, ← Mat.sum_order permutes]
  refine Finset.sum_congr rfl fun position member => ?_
  have bound : position < order.length := Finset.mem_range.1 member
  simp only [l1At_over bound, l2At_over bound, Mat.get_selectRows _ bound]
  rfl

def thresholded {α : Type} [Scalar α] (penalty : Penalty α) (coef : Mat α) (step : α) : Mat α :=
  Mat.ofFn penalty.shape.rows penalty.shape.cols fun group col =>
    softThreshold (coef.get group col) (step * penalty.lagrange * penalty.l1At group)

theorem get_proximal {group col : Nat} (bound : group < penalty.shape.rows)
    (colBound : col < penalty.shape.cols) (coef : Mat ℝ) (step : ℝ) :
    (penalty.proximal coef step).get group col = (penalty.thresholded coef step).get group col *
      shrinkage ((penalty.thresholded coef step).rowNorm group)
        (step * penalty.lagrange * penalty.l2At group) := by
  refine (Mat.get_ofFn _ bound colBound).trans ?_
  simp [thresholded, bound]

theorem proximal_reordered (inRange : ∀ group ∈ order, group < penalty.groups) (coef : Mat ℝ)
    (step : ℝ) : (penalty.over order).proximal (coef.selectRows order) step =
      (penalty.proximal coef step).selectRows order := by
  have thresholded : (penalty.over order).thresholded (coef.selectRows order) step =
      (penalty.thresholded coef step).selectRows order := by
    refine (Mat.selectRows_ofFn inRange fun position bound col _ => ?_).symm
    rw [Mat.get_selectRows _ bound, l1At_over bound]
    rfl
  refine Mat.ext_get rfl rfl ?_
  intro position (bound : position < order.length) col (colBound : col < penalty.shape.cols)
  have inside : order.getD position 0 < penalty.shape.rows := Mat.getD_lt inRange bound
  have extent : position < (penalty.over order).shape.rows := bound
  rw [Mat.get_selectRows _ bound, get_proximal inside colBound, get_proximal extent colBound,
    thresholded, Mat.get_selectRows _ bound, Mat.rowNorm_selectRows _ bound, l2At_over bound]
  rfl

end Penalty

/-! The solver. -/

namespace Problem

section
variable {α : Type} [Scalar α]

def Iterate.reorder (order : List Nat) (iterate : Iterate α) : Iterate α :=
  { iterate with
    kept := iterate.kept.selectRows order
    extrapolated := iterate.extrapolated.selectRows order }

def Pass.reorder (order : List Nat) : Pass α → Pass α
  | .converged solution step => .converged (solution.selectRows order) step
  | .failed fault => .failed fault
  | .next iterate => .next (iterate.reorder order)

def Run.reorder (order : List Nat) (run : Run α) : Run α :=
  ⟨run.result.map (·.selectRows order), run.coefs.selectRows order, run.step⟩

structure Iterate.Shaped (problem : Problem α) (iterate : Iterate α) : Prop where
  kept : iterate.kept.shape = problem.penalty.shape
  extrapolated : iterate.extrapolated.shape = problem.penalty.shape

end

section
variable {problem : Problem ℝ} {iterate next : Iterate ℝ}

theorem advance_shaped (shaped : iterate.Shaped problem) {found : Mat ℝ}
    (foundShape : found.shape = problem.penalty.shape) (step : ℝ) :
    (problem.advance iterate found step).Shaped problem := by
  have kept : (problem.advance iterate found step).kept.shape = problem.penalty.shape := by
    unfold advance
    simp only
    split_ifs
    · exact foundShape
    · exact shaped.kept
  exact ⟨kept, kept⟩

theorem pass_shaped (shaped : iterate.Shaped problem) {tolerance : ℝ} {iteration : Nat}
    (passed : problem.pass tolerance iteration iterate = .next next) : next.Shaped problem := by
  simp only [pass] at passed
  split_ifs at passed
  split at passed
  · cases passed
  · rename_i found step searched
    split_ifs at passed
    cases passed
    exact advance_shaped shaped (search_shape searched) step

end

/-- The other problem is this one with its groups listed in another order. -/
structure Reordered (order : List Nat) (problem other : Problem ℝ) : Prop where
  permutes : order.Perm (List.range problem.penalty.groups)
  gradientShape : ∀ coef : Mat ℝ, coef.shape = problem.penalty.shape →
    (problem.smooth.gradient coef).shape = problem.penalty.shape
  value : ∀ coef : Mat ℝ, coef.shape = problem.penalty.shape →
    other.smooth.value (coef.selectRows order) = problem.smooth.value coef
  gradient : ∀ coef : Mat ℝ, coef.shape = problem.penalty.shape →
    other.smooth.gradient (coef.selectRows order) = (problem.smooth.gradient coef).selectRows order
  penalty : other.penalty = problem.penalty.over order
  coefsShape : problem.coefs.shape = problem.penalty.shape
  coefs : other.coefs = problem.coefs.selectRows order
  step : other.step = problem.step

namespace Reordered

variable {order : List Nat} {problem other : Problem ℝ} (reordered : Reordered order problem other)
  {point gradient coef found : Mat ℝ} {iterate : Iterate ℝ} {options : SolveOptions ℝ}

include reordered

theorem permutesRows (shape : coef.shape = problem.penalty.shape) :
    order.Perm (List.range coef.rows) := by
  rw [Mat.rows_eq shape]
  exact reordered.permutes

theorem objective (shape : coef.shape = problem.penalty.shape) :
    other.objective (coef.selectRows order) = problem.objective coef := by
  rw [Problem.objective, Problem.objective, reordered.value coef shape, reordered.penalty,
    Penalty.value_reordered reordered.permutes]

theorem candidate (same : point.shape = gradient.shape) (step : ℝ) :
    other.candidate (point.selectRows order) (gradient.selectRows order) step =
      (problem.candidate point gradient step).selectRows order := by
  rw [Problem.candidate, Problem.candidate, reordered.penalty, ← Mat.selectRows_addScaled same,
    Penalty.proximal_reordered (Mat.mem_order reordered.permutes)]

theorem accepts (pointShape : point.shape = problem.penalty.shape)
    (gradientShape : gradient.shape = problem.penalty.shape)
    (foundShape : found.shape = problem.penalty.shape) (value step : ℝ) :
    other.accepts (point.selectRows order) value (gradient.selectRows order)
      (found.selectRows order) step = problem.accepts point value gradient found step := by
  have same : found.shape = point.shape := foundShape.trans pointShape.symm
  have differenceShape : (found.addScaled (-1) point).shape = problem.penalty.shape := foundShape
  have limit : bound value (gradient.selectRows order)
      ((found.selectRows order).addScaled (-1) (point.selectRows order)) step =
        bound value gradient (found.addScaled (-1) point) step := by
    rw [← Mat.selectRows_addScaled same, bound, bound,
      Mat.inner_selectRows (reordered.permutesRows gradientShape),
      Mat.inner_selectRows (reordered.permutesRows differenceShape)]
  simp only [Problem.accepts, limit, reordered.value found foundShape]

theorem search (pointShape : point.shape = problem.penalty.shape)
    (gradientShape : gradient.shape = problem.penalty.shape) (value : ℝ) (halvings : Nat) (step : ℝ) :
    other.search (point.selectRows order) value (gradient.selectRows order) halvings step =
      (problem.search point value gradient halvings step).map fun (found, step) =>
        (found.selectRows order, step) := by
  have same : point.shape = gradient.shape := pointShape.trans gradientShape.symm
  have accepted : ∀ step, other.accepts (point.selectRows order) value (gradient.selectRows order)
      ((problem.candidate point gradient step).selectRows order) step =
        problem.accepts point value gradient (problem.candidate point gradient step) step :=
    fun step => reordered.accepts pointShape gradientShape rfl value step
  induction halvings generalizing step with
  | zero =>
      simp only [Problem.search, reordered.candidate same, accepted]
      split_ifs <;> rfl
  | succ halvings ih =>
      simp only [Problem.search, reordered.candidate same, accepted, ih]
      split_ifs <;> rfl

theorem advance (shaped : iterate.Shaped problem) (foundShape : found.shape = problem.penalty.shape)
    (step : ℝ) : other.advance (iterate.reorder order) (found.selectRows order) step =
      (problem.advance iterate found step).reorder order := by
  have inRange : ∀ kept : Mat ℝ, kept.shape = problem.penalty.shape → ∀ index ∈ order,
      index < kept.rows := fun kept shape => Mat.mem_order (reordered.permutesRows shape)
  have onward : ∀ (kept : Mat ℝ) (toFound onward : ℝ), kept.shape = problem.penalty.shape →
      (Mat.ofFn kept.rows kept.cols fun row col => kept.get row col +
        toFound * (found.get row col - kept.get row col) +
          onward * (kept.get row col - iterate.kept.get row col)).selectRows order =
      Mat.ofFn order.length kept.cols fun position col => (kept.selectRows order).get position col +
        toFound * ((found.selectRows order).get position col - (kept.selectRows order).get position col) +
          onward * ((kept.selectRows order).get position col -
            (iterate.kept.selectRows order).get position col) := by
    intro kept toFound onward shape
    refine Mat.selectRows_ofFn (inRange kept shape) fun position bound col _ => ?_
    simp only [Mat.get_selectRows _ bound]
  simp only [Problem.advance, Iterate.reorder, reordered.objective foundShape]
  by_cases improves : problem.objective found ≤ iterate.keptObjective
  · simp only [improves, decide_true, if_true, onward found _ _ foundShape]
    rfl
  · simp only [improves, decide_false, Bool.false_eq_true, if_false, onward iterate.kept _ _ shaped.kept]
    rfl

theorem pass (shaped : iterate.Shaped problem) (tolerance : ℝ) (iteration : Nat) :
    other.pass tolerance iteration (iterate.reorder order) =
      (problem.pass tolerance iteration iterate).reorder order := by
  have gradientShape := reordered.gradientShape _ shaped.extrapolated
  have searched := reordered.search shaped.extrapolated gradientShape
    (problem.smooth.value iterate.extrapolated) (halvingsBelow iterate.step) iterate.step
  have finite : ∀ value : ℝ, isFinite value = true := fun _ => rfl
  unfold Problem.pass
  simp only [Iterate.reorder, reordered.value _ shaped.extrapolated,
    reordered.gradient _ shaped.extrapolated, finite, Mat.allFinite_real, and_self, not_true,
    if_false, searched]
  cases found : problem.search iterate.extrapolated (problem.smooth.value iterate.extrapolated)
      (problem.smooth.gradient iterate.extrapolated) (halvingsBelow iterate.step) iterate.step with
  | none => rfl
  | some accepted =>
      have foundShape := search_shape found
      have same : accepted.1.shape = iterate.extrapolated.shape :=
        foundShape.trans shaped.extrapolated.symm
      have moved : ((accepted.1.selectRows order).addScaled (-1)
          (iterate.extrapolated.selectRows order)).frobenius =
            (accepted.1.addScaled (-1) iterate.extrapolated).frobenius := by
        rw [← Mat.selectRows_addScaled same]
        exact Mat.frobenius_selectRows (reordered.permutesRows foundShape)
      have advanced := reordered.advance shaped foundShape accepted.2
      simp only [Iterate.reorder] at advanced
      simp only [Option.map_some, moved, advanced,
        Mat.frobenius_selectRows (reordered.permutesRows foundShape)]
      split_ifs <;> rfl

theorem run (shaped : iterate.Shaped problem) (budget : Nat) (step : ℝ) :
    other.run options budget (iterate.reorder order) step =
      (problem.run options budget iterate step).reorder order := by
  induction budget generalizing iterate step with
  | zero => rfl
  | succ budget ih =>
      simp only [Problem.run, reordered.pass shaped]
      cases passed : problem.pass options.tolerance (options.maxIterations - (budget + 1)) iterate with
      | converged solution step => rfl
      | failed fault =>
          simp only [Pass.reorder, reordered.coefs]
          rfl
      | next iterate => exact ih (pass_shaped shaped passed) _

theorem solve (options : SolveOptions ℝ) :
    (other.solve options).1 = (problem.solve options).1.map (·.selectRows order) ∧
      (other.solve options).2.step = (problem.solve options).2.step := by
  have startingStep : other.startingStep options = problem.startingStep options := by
    simp only [Problem.startingStep, reordered.step]
  have start : other.start options = (problem.start options).reorder order := by
    simp only [Problem.start, Iterate.reorder, reordered.coefs, startingStep,
      reordered.objective reordered.coefsShape]
  have shaped : (problem.start options).Shaped problem := ⟨reordered.coefsShape, reordered.coefsShape⟩
  have finished : other.run options options.maxIterations (other.start options) other.step =
      (problem.run options options.maxIterations (problem.start options) problem.step).reorder
        order := by
    rw [start, reordered.step]
    exact reordered.run shaped _ _
  simp only [Problem.solve, finished]
  exact ⟨rfl, rfl⟩

end Reordered

end Problem

end GroupLasso
