import GroupLasso.Proofs.Reorder

/-!
Paths whose groups have other labels. The new labels are given by the list of the old ones in the order
of the new. Masks and ascending lists of groups are carried over, and screening, the checks and the
restricted problems of the relabelled path are those of the path, relabelled.
-/

namespace GroupLasso

open Scalar

def Mask.relabel (order : List Nat) (mask : Mask) : Mask := order.map mask.contains

def relabelled (order groups : List Nat) : List Nat :=
  (List.range order.length).filter fun label => groups.contains (order.getD label 0)

section
variable {order groups : List Nat} {mask other : Mask} {count label : Nat}

theorem mem_relabelled : label ∈ relabelled order groups ↔
    label < order.length ∧ order.getD label 0 ∈ groups := by
  rw [relabelled, List.mem_filter, List.mem_range, List.contains_iff_mem]

theorem relabelled_nodup (order groups : List Nat) : (relabelled order groups).Nodup :=
  List.nodup_range.filter _

theorem map_relabelled (permutes : order.Perm (List.range count)) (distinct : groups.Nodup)
    (inRange : ∀ group ∈ groups, group < count) :
    ((relabelled order groups).map fun label => order.getD label 0).Perm groups := by
  have orderDistinct : order.Nodup := permutes.nodup_iff.2 List.nodup_range
  have images : ((relabelled order groups).map fun label => order.getD label 0).Nodup := by
    refine (relabelled_nodup order groups).map_on fun first firstMember second secondMember equal => ?_
    have firstBound := (mem_relabelled.1 firstMember).1
    have secondBound := (mem_relabelled.1 secondMember).1
    rw [List.getD_eq_getElem _ _ firstBound, List.getD_eq_getElem _ _ secondBound] at equal
    exact (orderDistinct.getElem_inj_iff).1 equal
  refine (List.perm_ext_iff_of_nodup images distinct).2 fun group => ?_
  rw [List.mem_map]
  constructor
  · rintro ⟨label, member, rfl⟩
    exact (mem_relabelled.1 member).2
  · intro member
    have listed : group ∈ order := permutes.mem_iff.2 (List.mem_range.2 (inRange group member))
    have found := Mat.getD_idxOf listed
    refine ⟨order.idxOf group, mem_relabelled.2 ⟨List.idxOf_lt_length_of_mem listed, ?_⟩, found⟩
    rwa [found]

theorem length_relabelled (permutes : order.Perm (List.range count)) (distinct : groups.Nodup)
    (inRange : ∀ group ∈ groups, group < count) :
    (relabelled order groups).length = groups.length := by
  rw [← (map_relabelled permutes distinct inRange).length_eq, List.length_map]

theorem relabelled_filter (order groups : List Nat) (condition : Nat → Bool) :
    relabelled order (groups.filter condition) =
      (relabelled order groups).filter fun label => condition (order.getD label 0) := by
  rw [relabelled, relabelled, List.filter_filter]
  refine List.filter_congr fun label _ => ?_
  rw [Bool.eq_iff_iff, Bool.and_eq_true, List.contains_iff_mem, List.contains_iff_mem,
    List.mem_filter, and_comm]

theorem relabelled_range (permutes : order.Perm (List.range count)) (condition : Nat → Bool) :
    relabelled order ((List.range count).filter condition) =
      (List.range order.length).filter fun label => condition (order.getD label 0) := by
  have all : relabelled order (List.range count) = List.range order.length := by
    refine List.filter_eq_self.2 fun label member => ?_
    rw [List.contains_iff_mem, List.mem_range]
    exact Mat.getD_lt (Mat.mem_order permutes) (List.mem_range.1 member)
  rw [relabelled_filter, all]

namespace Mask

theorem ext_contains (lengths : mask.length = other.length)
    (members : ∀ index < mask.length, mask.contains index = other.contains index) : mask = other := by
  refine List.ext_getElem lengths fun index bound otherBound => ?_
  simpa [contains, bound, otherBound] using members index bound

@[simp] theorem length_relabel (order : List Nat) (mask : Mask) :
    (mask.relabel order).length = order.length := List.length_map _

theorem contains_relabel (bound : label < order.length) :
    (mask.relabel order).contains label = mask.contains (order.getD label 0) := by
  simp [relabel, contains, bound]

theorem toIndices_relabel (order : List Nat) (mask : Mask) :
    (mask.relabel order).toIndices = relabelled order mask.toIndices := by
  rw [toIndices, relabelled, length_relabel]
  refine List.filter_congr fun label member => ?_
  rw [Bool.eq_iff_iff, contains_relabel (List.mem_range.1 member), List.contains_iff_mem,
    mem_toIndices]

theorem contains_map (member : Nat → Bool) {index : Nat} (bound : index < count) :
    contains ((List.range count).map member) index = member index := by
  simp [contains, bound]

theorem relabel_map (permutes : order.Perm (List.range count)) (member : Nat → Bool) :
    Mask.relabel order ((List.range count).map member) =
      (List.range order.length).map fun label => member (order.getD label 0) := by
  refine ext_contains (by simp) fun label bound => ?_
  rw [length_relabel] at bound
  rw [contains_relabel bound, contains_map _ bound,
    contains_map _ (Mat.getD_lt (Mat.mem_order permutes) bound)]

theorem relabel_empty (order : List Nat) (count : Nat) :
    (empty count).relabel order = empty order.length := by
  refine ext_contains (by simp) fun label bound => ?_
  rw [length_relabel] at bound
  rw [contains_relabel bound, contains_empty, contains_empty]

theorem relabel_insertAll (permutes : order.Perm (List.range mask.length)) (groups : List Nat) :
    (mask.insertAll groups).relabel order =
      (mask.relabel order).insertAll (relabelled order groups) := by
  refine ext_contains (by simp [length_insertAll]) fun label bound => ?_
  rw [length_relabel] at bound
  have inside : order.getD label 0 < mask.length := Mat.getD_lt (Mat.mem_order permutes) bound
  rw [Bool.eq_iff_iff, contains_relabel bound, contains_insertAll, contains_insertAll,
    contains_relabel bound, mem_relabelled, length_relabel]
  simp only [inside, bound, and_true, true_and]

theorem relabel_ofIndices (permutes : order.Perm (List.range count)) (groups : List Nat) :
    (ofIndices groups count).relabel order = ofIndices (relabelled order groups) order.length := by
  have positions : order.Perm (List.range (empty count).length) := by rwa [length_empty]
  rw [ofIndices, relabel_insertAll positions, relabel_empty, ofIndices]

theorem relabel_union (lengths : mask.length = other.length) (order : List Nat) :
    (mask.union other).relabel order = (mask.relabel order).union (other.relabel order) := by
  have both : (mask.relabel order).length = (other.relabel order).length := by simp
  refine ext_contains (by simp [union]) fun label bound => ?_
  rw [length_relabel] at bound
  rw [Bool.eq_iff_iff, contains_relabel bound, contains_union lengths, contains_union both,
    contains_relabel bound, contains_relabel bound]

end Mask

end

def placement (order candidates : List Nat) : List Nat :=
  (relabelled order candidates).map fun label => candidates.idxOf (order.getD label 0)

section
variable {order candidates : List Nat} {count : Nat}

theorem placement_permutes (permutes : order.Perm (List.range count)) (distinct : candidates.Nodup)
    (inRange : ∀ group ∈ candidates, group < count) :
    (placement order candidates).Perm (List.range candidates.length) := by
  have positions : candidates.map candidates.idxOf = List.range candidates.length := by
    refine List.ext_getElem (by simp) fun position bound _ => ?_
    rw [List.length_map] at bound
    rw [List.getElem_map, List.getElem_range, distinct.idxOf_getElem _ bound]
  have moved := (map_relabelled permutes distinct inRange).map candidates.idxOf
  rwa [List.map_map, positions] at moved

theorem map_placement (order candidates : List Nat) :
    ((placement order candidates).map fun position => candidates.getD position 0) =
      (relabelled order candidates).map fun label => order.getD label 0 := by
  rw [placement, List.map_map]
  refine List.map_congr_left fun label member => ?_
  exact Mat.getD_idxOf (mem_relabelled.1 member).2

theorem Mat.selectRows_embedded (order : List Nat) {cols : Nat} (distinct : candidates.Nodup)
    (inRange : ∀ group ∈ candidates, group < count) {coef : Mat ℝ}
    (shape : coef.shape = ⟨candidates.length, cols⟩) :
    ((Mat.zero count cols).scatterRows candidates coef).selectRows order =
      (Mat.zero order.length cols).scatterRows (relabelled order candidates)
        (coef.selectRows (placement order candidates)) := by
  have width : coef.cols = cols := cols_eq shape
  refine ext_get (by simp) (by simp) fun label bound col _ => ?_
  rw [rows_selectRows] at bound
  rw [get_selectRows _ bound]
  by_cases listed : order.getD label 0 ∈ candidates
  · have position : candidates.idxOf (order.getD label 0) < candidates.length :=
      List.idxOf_lt_length_of_mem listed
    have member : label ∈ relabelled order candidates := mem_relabelled.2 ⟨bound, listed⟩
    have place : (relabelled order candidates).idxOf label < (relabelled order candidates).length :=
      List.idxOf_lt_length_of_mem member
    have placeBound : (relabelled order candidates).idxOf label <
        (placement order candidates).length := by rwa [placement, List.length_map]
    have placed : (placement order candidates).getD ((relabelled order candidates).idxOf label) 0 =
        candidates.idxOf (order.getD label 0) := by
      rw [List.getD_eq_getElem _ _ placeBound]
      simp only [placement, List.getElem_map, List.getElem_idxOf]
    have before := get_embedded coef distinct inRange width position col
    have after := get_embedded (coef.selectRows (placement order candidates))
      (relabelled_nodup order candidates) (fun label member => (mem_relabelled.1 member).1) width place
      col
    rw [getD_idxOf listed] at before
    rw [getD_idxOf member, get_selectRows _ placeBound, placed] at after
    rw [before, after]
  · have unlisted : label ∉ relabelled order candidates :=
      fun member => listed (mem_relabelled.1 member).2
    rw [get_embedded_unlisted coef distinct listed,
      get_embedded_unlisted _ (relabelled_nodup order candidates) unlisted]

end

/-! The model. -/

namespace Penalty

variable {penalty : Penalty ℝ} {order : List Nat} {label : Nat}

theorem isUnpenalized_over (bound : label < order.length) :
    (penalty.over order).isUnpenalized label = penalty.isUnpenalized (order.getD label 0) := by
  simp only [isUnpenalized, l1At_over bound, l2At_over bound]

theorem unpenalized_over (permutes : order.Perm (List.range penalty.groups)) :
    (penalty.over order).unpenalized = relabelled order penalty.unpenalized := by
  rw [unpenalized, unpenalized, relabelled_range permutes]
  exact List.filter_congr fun label member => isUnpenalized_over (List.mem_range.1 member)

theorem penalizedMask_over (permutes : order.Perm (List.range penalty.groups)) :
    (penalty.over order).penalizedMask = penalty.penalizedMask.relabel order := by
  rw [penalizedMask, penalizedMask, Mask.relabel_map permutes]
  refine List.map_congr_left fun label member => ?_
  rw [isUnpenalized_over (List.mem_range.1 member)]

theorem dualNorm_over (permutes : order.Perm (List.range penalty.groups)) (gradient : Mat ℝ) :
    (penalty.over order).dualNorm (gradient.selectRows order) = penalty.dualNorm gradient := by
  have gauge : ∀ label < order.length, (penalty.over order).gauge (gradient.selectRows order) label =
      penalty.gauge gradient (order.getD label 0) := by
    intro label bound
    rw [Penalty.gauge, Penalty.gauge, Mat.row_selectRows _ bound, l1At_over bound, l2At_over bound]
  refine eq_of_forall_ge_iff fun bound => ?_
  rw [dualNorm_le_iff, dualNorm_le_iff]
  refine and_congr_right fun _ => ?_
  rw [← Mat.forall_order permutes]
  refine forall₂_congr fun label inside => ?_
  rw [gauge label inside, isUnpenalized_over inside]

end Penalty

namespace Optimality

variable {order : List Nat} {solution : Mat ℝ}

theorem activeCutoff_selectRows (permutes : order.Perm (List.range solution.rows)) (tolerance : ℝ) :
    activeCutoff (solution.selectRows order) tolerance = activeCutoff solution tolerance := by
  have total : Scalar.sum (solution.selectRows order).rowNorms = Scalar.sum solution.rowNorms := by
    have along : (solution.selectRows order).rowNorms =
        (List.range order.length).map fun label => solution.rowNorm (order.getD label 0) :=
      List.map_congr_left fun label member =>
        Mat.rowNorm_selectRows solution (List.mem_range.1 member)
    rw [along, sum_real, sum_real]
    exact Mat.sum_order permutes solution.rowNorm
  rw [activeCutoff, activeCutoff, total]

end Optimality

namespace Path

/-- The path with other labels for its groups: the group that had the label at a position of the list is
the one with that position as its label. -/
def relabel {α : Type} [Scalar α] (order : List Nat) (path : Path α) : Path α :=
  { path with
    design := path.design.restrict order
    penalty := path.penalty.over order
    ridgeParameter := path.ridgeParameter.selectRows order
    solution := path.solution.selectRows order
    gradient := path.gradient.selectRows order
    everActive := path.everActive.map (·.relabel order) }

/-- A list that gives every group of a path a new label, where the fields of the path have the extents of
its model. -/
structure Relabels (order : List Nat) (path : Path ℝ) : Prop where
  permutes : order.Perm (List.range path.groups)
  wellFormed : path.WellFormed
  marked : path.everActiveMask.length = path.groups
  solution : path.solution.shape = path.shape
  gradient : path.gradient.shape = path.shape

section
variable {path : Path ℝ} {order : List Nat} {solution gradient : Mat ℝ} {lagrange : ℝ}

theorem relabel_wellFormed (wellFormed : path.WellFormed) (order : List Nat) :
    (path.relabel order).WellFormed := by
  have inputs : path.penalty.shape.cols = path.design.responses :=
    congrArg Shape.cols wellFormed.inputs
  have parameter : path.ridgeParameter.cols = path.penalty.shape.cols := Mat.cols_eq wellFormed.ridge
  refine ⟨wellFormed.outputs.trans (Design.outputShape_restrict path.design).symm, ?_,
    Penalty.valid_over wellFormed.weights, congrArg (Shape.mk order.length) parameter,
    wellFormed.alpha_pos, wellFormed.alpha_le⟩
  exact (congrArg (Shape.mk order.length) inputs).trans (Design.inputShape_restrict path.design).symm

theorem weights_relabel (path : Path ℝ) {label : Nat} (bound : label < order.length) :
    (path.relabel order).penalty.l1.getD label 0 = path.penalty.l1.getD (order.getD label 0) 0 ∧
      (path.relabel order).penalty.l2.getD label 0 = path.penalty.l2.getD (order.getD label 0) 0 :=
  ⟨Penalty.l1At_over bound, Penalty.l2At_over bound⟩

theorem everActiveMask_relabel (path : Path ℝ) (order : List Nat) :
    (path.relabel order).everActiveMask = path.everActiveMask.relabel order := by
  unfold everActiveMask relabel
  cases path.everActive with
  | none => exact (Mask.relabel_empty order path.groups).symm
  | some mask => rfl

section
variable (permutes : order.Perm (List.range path.groups))
include permutes

theorem permutes_rows {matrix : Mat ℝ} (shape : matrix.shape = path.shape) :
    order.Perm (List.range matrix.rows) := by
  rw [Mat.rows_eq shape]
  exact permutes

theorem candidates_relabel (marked : path.everActiveMask.length = path.groups) :
    (path.relabel order).candidates = relabelled order path.candidates := by
  have unpenalized : (path.relabel order).penalty.unpenalized =
      relabelled order path.penalty.unpenalized := Penalty.unpenalized_over permutes
  have groups : (path.relabel order).groups = order.length := rfl
  rw [candidates, candidates, everActiveMask_relabel path order, unpenalized, groups,
    ← Mask.relabel_ofIndices permutes, ← Mask.relabel_union (by rw [marked, Mask.length_ofIndices]),
    Mask.toIndices_relabel]

theorem dot_relabel (shape : solution.shape = path.shape) :
    (path.relabel order).design.dot (solution.selectRows order) = path.design.dot solution := by
  have inRange := Mat.mem_order permutes
  have width : (solution.selectRows order).cols = path.shape.cols :=
    (Mat.cols_eq shape : solution.cols = _)
  have distinct : order.Nodup := permutes.nodup_iff.2 List.nodup_range
  have whole : (Mat.zero path.shape.rows path.shape.cols).scatterRows order
      (solution.selectRows order) = solution := by
    refine Mat.scatterRows_selectRows distinct inRange shape fun group unlisted col => ?_
    have beyond : ¬ group < path.groups := fun bound =>
      unlisted (permutes.mem_iff.2 (List.mem_range.2 bound))
    refine Mat.get_eq_zero (.inl ?_)
    rw [Mat.rows_eq shape]
    exact not_lt.1 beyond
  have restricted := Design.dot_restrict path.design distinct inRange width
  exact restricted.trans (congrArg path.design.dot whole)

theorem ridgeDiag_relabel (wellFormed : path.WellFormed) :
    (path.relabel order).ridgeDiag lagrange = (path.ridgeDiag lagrange).selectRows order := by
  have inRange : ∀ index ∈ order, index < path.ridgeParameter.rows := by
    rw [Mat.rows_eq wellFormed.ridge]
    exact Mat.mem_order permutes
  have mask : (path.relabel order).penalty.penalizedMask =
      path.penalty.penalizedMask.relabel order := Penalty.penalizedMask_over permutes
  unfold ridgeDiag Restriction.ridgeDiag
  rw [mask]
  refine (Mat.selectRows_ofFn inRange fun label bound col _ => ?_).symm
  rw [Mask.contains_relabel bound]
  change (path.ridgeParameter.selectRows order).get label col * _ * _ = _
  rw [Mat.get_selectRows _ bound]
  rfl

theorem fullGradient_relabel (wellFormed : path.WellFormed) (predictor : Mat ℝ) :
    (path.relabel order).fullGradient predictor = (path.fullGradient predictor).selectRows order := by
  refine Design.adjoint_restrict path.design _ ?_
  rw [← wellFormed.inputs]
  exact Mat.mem_order permutes

theorem ridgeGradient_relabel (wellFormed : path.WellFormed) (shape : solution.shape = path.shape) :
    (path.relabel order).ridgeGradient (solution.selectRows order) lagrange =
      (path.ridgeGradient solution lagrange).selectRows order := by
  have inRange := Mat.mem_order (permutes_rows permutes shape)
  have alpha : (path.relabel order).options.alpha = path.options.alpha := rfl
  rw [ridgeGradient, ridgeGradient, alpha]
  split_ifs
  · exact (Mat.selectRows_zero _ _).symm
  · refine (Mat.selectRows_ofFn inRange fun label bound col _ => ?_).symm
    rw [ridgeDiag_relabel permutes wellFormed, Mat.get_selectRows _ bound, Mat.get_selectRows _ bound]

theorem gradient_relabel (wellFormed : path.WellFormed) (shape : solution.shape = path.shape)
    (predictor : Mat ℝ) (lagrange : ℝ) : ((path.relabel order).fullGradient predictor).add
      ((path.relabel order).ridgeGradient (solution.selectRows order) lagrange) =
        ((path.fullGradient predictor).add (path.ridgeGradient solution lagrange)).selectRows order := by
  have inRange := Mat.mem_order (permutes_rows permutes (shape_fullGradient wellFormed predictor))
  rw [fullGradient_relabel permutes wellFormed, ridgeGradient_relabel permutes wellFormed shape,
    Mat.selectRows_add _ _ inRange]

theorem lagrangeMax_relabel : (path.relabel order).lagrangeMax = path.lagrangeMax :=
  congrArg (· / path.options.alpha) (Penalty.dualNorm_over permutes path.gradient)

theorem strongSet_relabel (shape : path.gradient.shape = path.shape) (current next : ℝ) :
    ((path.relabel order).strongSet current next (path.relabel order).gradient).indices =
      relabelled order (path.strongSet current next path.gradient).indices := by
  have rows : path.gradient.rows = path.groups := Mat.rows_eq shape
  rw [StrongSet.indices, StrongSet.indices, ← Mask.toIndices_relabel]
  congr 1
  simp only [strongSet, Screening.strongSet, rows]
  rw [Mask.relabel_map permutes]
  refine List.map_congr_left fun label member => ?_
  have bound : label < order.length := List.mem_range.1 member
  obtain ⟨l1, l2⟩ := weights_relabel path bound
  have row : (path.relabel order).gradient.row label = path.gradient.row (order.getD label 0) :=
    Mat.row_selectRows _ bound
  rw [l1, l2, row]
  rfl

theorem markEverActive_relabel (marked : path.everActiveMask.length = path.groups)
    (groups : List Nat) : (path.relabel order).markEverActive (relabelled order groups) =
      (path.markEverActive groups).relabel order := by
  have positions : order.Perm (List.range path.everActiveMask.length) := by rwa [marked]
  unfold markEverActive
  rw [everActiveMask_relabel path order, ← Mask.relabel_insertAll positions]
  rfl

theorem violators_relabel (solutionShape : solution.shape = path.shape) (lagrange : ℝ) :
    (path.relabel order).violators (gradient.selectRows order) (solution.selectRows order) lagrange =
      relabelled order (path.violators gradient solution lagrange) := by
  have rows : solution.rows = path.groups := Mat.rows_eq solutionShape
  have cutoff := Optimality.activeCutoff_selectRows (permutes_rows permutes solutionShape)
    path.options.kktTolerance
  rw [violators, violators, ← Mask.toIndices_relabel]
  congr 1
  simp only [check, Optimality.check, List.map_map, rows]
  rw [Mask.relabel_map permutes]
  refine List.map_congr_left fun label member => ?_
  have bound : label < order.length := List.mem_range.1 member
  obtain ⟨l1, l2⟩ := weights_relabel path bound
  have tolerance : (path.relabel order).options.kktTolerance = path.options.kktTolerance := rfl
  simp only [Function.comp_apply, l1, l2, tolerance, cutoff, Mat.row_selectRows _ bound,
    Mat.rowNorm_selectRows _ bound]

theorem activeGroups_relabel (shape : solution.shape = path.shape) :
    activeGroups (solution.selectRows order) = relabelled order (activeGroups solution) := by
  rw [activeGroups, activeGroups, relabelled_range (permutes_rows permutes shape)]
  refine List.filter_congr fun label member => ?_
  rw [Mat.rowNorm_selectRows _ (List.mem_range.1 member)]

end

theorem screen_relabel (relabels : Relabels order path) (current next : ℝ) :
    (path.relabel order).screen current next = (path.screen current next).relabel order := by
  have marked := markEverActive_relabel relabels.permutes relabels.marked
  unfold screen
  rw [← marked, ← strongSet_relabel relabels.permutes relabels.gradient]
  rfl

end

end Path

end GroupLasso
