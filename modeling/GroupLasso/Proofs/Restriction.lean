import GroupLasso.Restriction
import GroupLasso.Proofs.IndexSet
import GroupLasso.Proofs.Penalty

/-!
Restricting a problem to some groups and embedding the coefficients among all of them come to the
same: the linear predictor, the ridge term and the penalty have the same values, and the gradient is
the full one at the listed groups, whatever the order in which they are listed.
-/

namespace GroupLasso

open Scalar

section
variable {groups : List Nat} {coef : Mat ℝ} {rows cols : Nat}

theorem Design.blockAt_map {first : Mat ℝ} {rest : List (Mat ℝ)} (select : Mat ℝ → Mat ℝ)
    (response : Nat) :
    Design.blockAt (select first) (rest.map select) response =
      select (Design.blockAt first rest response) := by
  unfold Design.blockAt
  rw [← List.map_cons, List.getD_map]

theorem Mat.sum_selectColumns (matrix : Mat ℝ) (distinct : groups.Nodup)
    (inRange : ∀ group ∈ groups, group < rows) (width : coef.cols = cols) (row col : Nat) :
    ∑ position ∈ Finset.range groups.length,
        (matrix.selectColumns groups).get row position * coef.get position col =
      ∑ group ∈ Finset.range matrix.cols, matrix.get row group *
        ((Mat.zero rows cols).scatterRows groups coef).get group col := by
  symm
  rw [Mat.sum_listed distinct]
  · apply Finset.sum_congr rfl
    intro position member
    have bound := Finset.mem_range.1 member
    rw [Mat.get_selectColumns _ bound, Mat.get_embedded coef distinct inRange width bound]
  · intro group unlisted
    rw [Mat.get_embedded_unlisted coef distinct unlisted, mul_zero]
  · intro group beyond
    rw [Mat.get_eq_zero (.inr beyond), zero_mul]

theorem Design.dot_restrict (design : Design ℝ) (distinct : groups.Nodup)
    (inRange : ∀ group ∈ groups, group < rows) (width : coef.cols = cols) :
    (design.restrict groups).dot coef =
      design.dot ((Mat.zero rows cols).scatterRows groups coef) := by
  cases design with
  | dense matrix responses =>
      have cols_eq : coef.cols = ((Mat.zero rows cols).scatterRows groups coef).cols := by
        rw [width, Mat.cols_scatterRows, Mat.cols_zero]
      simp only [Design.restrict, Design.dot, Mat.mul, sumTo_real, ← cols_eq]
      congr 1
      funext row col
      exact Mat.sum_selectColumns matrix distinct inRange width row col
  | block first rest =>
      simp only [Design.restrict, Design.dot, sumTo_real, List.length_map,
        Design.blockAt_map (fun block : Mat ℝ => block.selectColumns groups)]
      congr 1
      funext row col
      exact Mat.sum_selectColumns _ distinct inRange width row col

theorem Design.outputShape_restrict (design : Design ℝ) :
    (design.restrict groups).outputShape = design.outputShape := by
  cases design with
  | dense matrix responses => rfl
  | block first rest =>
      simp only [Design.restrict, Design.outputShape, Design.matrix, Design.responses,
        List.length_map, Design.blockAt_map (fun block : Mat ℝ => block.selectColumns groups)]
      rfl

theorem Design.inputShape_restrict (design : Design ℝ) :
    (design.restrict groups).inputShape = ⟨groups.length, design.responses⟩ := by
  cases design with
  | dense matrix responses => rfl
  | block first rest =>
      simp only [Design.restrict, Design.inputShape, Design.matrix, Design.responses,
        List.length_map, Design.blockAt_map (fun block : Mat ℝ => block.selectColumns groups)]
      rfl

theorem Design.rows_adjoint (design : Design ℝ) (output : Mat ℝ) :
    (design.adjoint output).rows = design.inputShape.rows := by
  cases design <;> rfl

theorem Design.adjoint_restrict (design : Design ℝ) (output : Mat ℝ)
    (inRange : ∀ group ∈ groups, group < design.inputShape.rows) :
    (design.restrict groups).adjoint output = (design.adjoint output).selectRows groups := by
  have listed : ∀ position < groups.length, groups.getD position 0 < design.inputShape.rows :=
    fun _ => Mat.getD_lt inRange
  cases design with
  | dense matrix responses =>
      refine Mat.ext_get rfl rfl ?_
      intro position (bound : position < groups.length) col (colBound : col < output.cols)
      have inside : groups.getD position 0 < matrix.cols := listed position bound
      rw [Mat.get_selectRows _ bound]
      simp only [Design.restrict, Design.adjoint, Mat.transposeMul, sumTo_real,
        Mat.cols_selectColumns, Mat.rows_selectColumns]
      rw [Mat.get_ofFn _ bound colBound, Mat.get_ofFn _ inside colBound]
      apply Finset.sum_congr rfl
      intro row _
      rw [Mat.get_selectColumns _ bound]
  | block first rest =>
      have cols : (rest.map fun block => block.selectColumns groups).length + 1 =
          rest.length + 1 := by rw [List.length_map]
      refine Mat.ext_get rfl cols ?_
      intro position (bound : position < groups.length) col colBound
      have colBound : col < rest.length + 1 := cols ▸ colBound
      have inside : groups.getD position 0 < first.cols := listed position bound
      rw [Mat.get_selectRows _ bound]
      simp only [Design.restrict, Design.adjoint, sumTo_real, List.length_map,
        Design.blockAt_map (fun block : Mat ℝ => block.selectColumns groups),
        Mat.cols_selectColumns, Mat.rows_selectColumns]
      rw [Mat.get_ofFn _ bound colBound, Mat.get_ofFn _ inside colBound]
      apply Finset.sum_congr rfl
      intro row _
      rw [Mat.get_selectColumns _ bound]

def Penalty.over {α : Type} [Scalar α] (penalty : Penalty α) (groups : List Nat) : Penalty α :=
  ⟨⟨groups.length, penalty.shape.cols⟩, (groups.map penalty.l1At).toArray,
    (groups.map penalty.l2At).toArray, penalty.lagrange⟩

theorem Penalty.valid_over {penalty : Penalty ℝ} (valid : penalty.Valid) :
    (penalty.over groups).Valid := by
  refine ⟨by simp [Penalty.over, Penalty.groups], by simp [Penalty.over, Penalty.groups],
    Penalty.getD_nonneg_iff.2 ?_, Penalty.getD_nonneg_iff.2 ?_, valid.lagrange_nonneg⟩
  · simpa [Penalty.over] using fun group _ => valid.l1_nonneg group
  · simpa [Penalty.over] using fun group _ => valid.l2_nonneg group

theorem Penalty.restrict_eq {penalty : Penalty ℝ} (valid : penalty.Valid)
    (inRange : ∀ group ∈ groups, group < penalty.groups) :
    penalty.restrict groups = .ok (penalty.over groups) := by
  have none : groups.find? (penalty.groups ≤ ·) = none := by
    simpa using inRange
  rw [Penalty.restrict, none]
  exact Penalty.ofWeights_eq_ok.2 ⟨rfl, Penalty.valid_over valid⟩

theorem Penalty.value_over {penalty : Penalty ℝ} (distinct : groups.Nodup)
    (inRange : ∀ group ∈ groups, group < penalty.groups) (width : coef.cols = penalty.shape.cols) :
    (penalty.over groups).value coef = penalty.value
      ((Mat.zero penalty.shape.rows penalty.shape.cols).scatterRows groups coef) := by
  have weightAt : ∀ weights : Nat → ℝ, ∀ position < groups.length,
      (groups.map weights).toArray.getD position 0 = weights (groups.getD position 0) := by
    intro weights position bound
    simp [Array.getD, bound]
  have inside : ∀ group ∈ groups, group < penalty.shape.rows := inRange
  unfold Penalty.value
  simp only [sumTo_real]
  congr 1
  symm
  rw [Mat.sum_listed distinct]
  · apply Finset.sum_congr rfl
    intro position member
    have bound := Finset.mem_range.1 member
    have l1 : (penalty.over groups).l1At position = penalty.l1At (groups.getD position 0) :=
      weightAt penalty.l1At position bound
    have l2 : (penalty.over groups).l2At position = penalty.l2At (groups.getD position 0) :=
      weightAt penalty.l2At position bound
    simp only [l1, l2, Mat.get_embedded coef distinct inside width bound]
    rfl
  · intro group unlisted
    simp [Mat.get_embedded_unlisted coef distinct unlisted]
  · intro group beyond
    have unlisted : group ∉ groups := fun member => (inRange group member).not_ge beyond
    simp [Mat.get_embedded_unlisted coef distinct unlisted]

theorem Ridge.get_gradient (ridge : Ridge ℝ) (row col : Nat) :
    (ridge.gradient coef).get row col = ridge.diag.get row col * coef.get row col := by
  by_cases inside : row < ridge.diag.rows ∧ col < ridge.diag.cols
  · exact Mat.get_ofFn _ inside.1 inside.2
  · have outside : ridge.diag.rows ≤ row ∨ ridge.diag.cols ≤ col := by omega
    rw [Mat.get_eq_zero outside, zero_mul]
    exact Mat.get_eq_zero outside

theorem Ridge.value_eq (ridge : Ridge ℝ) :
    ridge.value coef = 1 / 2 * ∑ row ∈ Finset.range ridge.diag.rows,
      ∑ col ∈ Finset.range ridge.diag.cols, ridge.diag.get row col * coef.get row col ^ 2 := by
  have half : (0.5 : ℝ) = 1 / 2 := by norm_num
  unfold Ridge.value Mat.inner
  simp only [sumTo_real, half, Ridge.get_gradient]
  rw [Finset.sum_comm]
  congr 1
  apply Finset.sum_congr rfl
  intro row _
  apply Finset.sum_congr rfl
  intro col _
  ring

theorem Mat.get_scaleEntries (scales matrix : Mat ℝ) (row col : Nat) :
    (scales.scaleEntries matrix).get row col = scales.get row col * matrix.get row col := by
  by_cases inside : row < matrix.rows ∧ col < matrix.cols
  · exact Mat.get_ofFn _ inside.1 inside.2
  · have outside : matrix.rows ≤ row ∨ matrix.cols ≤ col := by omega
    rw [Mat.get_eq_zero outside, mul_zero]
    exact Mat.get_eq_zero outside

theorem Ridge.value_selectRows {diag : Mat ℝ} (distinct : groups.Nodup)
    (inRange : ∀ group ∈ groups, group < rows) (width : coef.cols = cols)
    (shape : diag.shape = ⟨rows, cols⟩) : (⟨diag.selectRows groups⟩ : Ridge ℝ).value coef =
      1 / 2 * ∑ group ∈ Finset.range rows, ∑ col ∈ Finset.range cols, diag.get group col *
        ((Mat.zero rows cols).scatterRows groups coef).get group col ^ 2 := by
  have diagRows : diag.rows = rows := Mat.rows_eq shape
  have diagCols : diag.cols = cols := Mat.cols_eq shape
  rw [Ridge.value_eq]
  congr 1
  symm
  rw [Mat.sum_listed distinct]
  · apply Finset.sum_congr rfl
    intro position member
    have bound := Finset.mem_range.1 member
    simp only [Mat.cols_selectRows, diagCols, Mat.get_selectRows _ bound,
      Mat.get_embedded coef distinct inRange width bound]
  · intro group unlisted
    simp [Mat.get_embedded_unlisted coef distinct unlisted]
  · intro group beyond
    simp [Mat.get_eq_zero (.inl (diagRows ▸ beyond : diag.rows ≤ group))]

theorem Mat.selectRows_add (left right : Mat ℝ) (inRange : ∀ group ∈ groups, group < left.rows) :
    (left.add right).selectRows groups = (left.selectRows groups).add (right.selectRows groups) := by
  refine Mat.ext_get rfl rfl ?_
  intro position (bound : position < groups.length) col (colBound : col < left.cols)
  have inside : groups.getD position 0 < left.rows := Mat.getD_lt inRange bound
  have entry : ((left.selectRows groups).add (right.selectRows groups)).get position col =
      (left.selectRows groups).get position col + (right.selectRows groups).get position col :=
    Mat.get_ofFn _ bound colBound
  rw [Mat.get_selectRows _ bound, entry, Mat.get_selectRows _ bound, Mat.get_selectRows _ bound]
  exact Mat.get_ofFn _ inside colBound

theorem Mat.add_zero_entries (left : Mat ℝ) : left.add (Mat.zero rows cols) = left := by
  refine Mat.ext_get rfl rfl ?_
  intro row rowBound col colBound
  have entry : (left.add (Mat.zero rows cols)).get row col =
      left.get row col + (Mat.zero rows cols).get row col := Mat.get_ofFn _ rowBound colBound
  rw [entry, Mat.get_zero, add_zero]

theorem Ridge.gradient_selectRows {diag : Mat ℝ} (distinct : groups.Nodup)
    (inRange : ∀ group ∈ groups, group < rows) (width : coef.cols = cols)
    (shape : diag.shape = ⟨rows, cols⟩) : (⟨diag.selectRows groups⟩ : Ridge ℝ).gradient coef =
      (diag.scaleEntries ((Mat.zero rows cols).scatterRows groups coef)).selectRows groups := by
  have diagCols : diag.cols = cols := Mat.cols_eq shape
  have width' : ((⟨diag.selectRows groups⟩ : Ridge ℝ).gradient coef).cols =
      (diag.scaleEntries ((Mat.zero rows cols).scatterRows groups coef)).cols :=
    diagCols.trans (Mat.cols_scatterRows (Mat.zero rows cols) groups coef).symm
  refine Mat.ext_get rfl width' ?_
  intro position (bound : position < groups.length) col _
  rw [Ridge.get_gradient, Mat.get_selectRows _ bound, Mat.get_selectRows _ bound,
    Mat.get_scaleEntries, Mat.get_embedded coef distinct inRange width bound]

/-! Building the restricted problem. -/

variable {α : Type}

theorem Restriction.addCandidate_eq_ok {count group : Nat} {mask result : Mask} :
    (addCandidate count mask group : Except (Failure α) Mask) = .ok result ↔
      group < count ∧ mask.contains group = false ∧ result = mask.insert group := by
  unfold addCandidate
  split
  next refused =>
    simp only [reduceCtorEq, false_iff]
    rintro ⟨bound, new, -⟩
    simp [new] at refused
    omega
  next accepted =>
    simp only [not_or, Nat.not_le, Bool.not_eq_true] at accepted
    simp [accepted, eq_comm]

theorem Restriction.addCandidate_eq_error {count group : Nat} {mask : Mask} {failure : Failure α} :
    addCandidate count mask group = .error failure ↔
      (count ≤ group ∨ mask.contains group = true) ∧ failure = .invalidCandidate group count := by
  unfold addCandidate
  split
  next refused =>
    simp only [refused, true_and, Except.error.injEq]
    exact eq_comm
  next accepted => simp only [accepted, false_and, reduceCtorEq]

theorem Restriction.addCandidates_eq_ok {count : Nat} {mask result : Mask}
    (length : mask.length = count) :
    (groups.foldlM (addCandidate count) mask : Except (Failure α) Mask) = .ok result ↔
      groups.Nodup ∧ (∀ group ∈ groups, group < count ∧ mask.contains group = false) ∧
        result = mask.insertAll groups := by
  induction groups generalizing mask with
  | nil =>
      rw [List.foldlM_nil]
      constructor
      · rintro ⟨⟩
        exact ⟨List.nodup_nil, List.forall_mem_nil _, rfl⟩
      · rintro ⟨-, -, rfl⟩
        rfl
  | cons group rest ih =>
      have inserted : (mask.insert group).length = count := by
        rw [Mask.insert, List.length_set, length]
      rw [List.foldlM_cons, Failure.bind_eq_ok]
      constructor
      · rintro ⟨next, added, run⟩
        obtain ⟨bound, new, rfl⟩ := addCandidate_eq_ok.1 added
        obtain ⟨distinct, accepted, rfl⟩ := (ih inserted).1 run
        have inside : group < mask.length := length ▸ bound
        simp only [Mask.contains_insert_eq_false inside] at accepted
        have absent : group ∉ rest := fun listed => (accepted group listed).2.2 rfl
        refine ⟨List.nodup_cons.2 ⟨absent, distinct⟩,
          List.forall_mem_cons.2 ⟨⟨bound, new⟩, fun other listed => ?_⟩, rfl⟩
        exact ⟨(accepted other listed).1, (accepted other listed).2.1⟩
      · rintro ⟨distinct, accepted, rfl⟩
        obtain ⟨absent, distinct⟩ := List.nodup_cons.1 distinct
        obtain ⟨⟨bound, new⟩, accepted⟩ := List.forall_mem_cons.1 accepted
        have inside : group < mask.length := length ▸ bound
        refine ⟨mask.insert group, addCandidate_eq_ok.2 ⟨bound, new, rfl⟩,
          (ih inserted).2 ⟨distinct, fun other listed => ?_, rfl⟩⟩
        rw [Mask.contains_insert_eq_false inside]
        refine ⟨(accepted other listed).1, (accepted other listed).2, ?_⟩
        rintro rfl
        exact absent listed

theorem Restriction.candidateMask_eq_ok {count : Nat} {mask : Mask} :
    (candidateMask groups count : Except (Failure α) Mask) = .ok mask ↔
      groups.Nodup ∧ (∀ group ∈ groups, group < count) ∧ mask = Mask.ofIndices groups count := by
  rw [candidateMask, addCandidates_eq_ok (Mask.length_empty count)]
  simp only [Mask.contains_empty, and_true]
  rfl

theorem Restriction.problem_eq_ok {design : Design ℝ} {loss : Loss ℝ} {l1 l2 : Array ℝ}
    {lagrange : ℝ} (outputs : loss.shape = design.outputShape)
    (valid : (⟨design.inputShape, l1, l2, lagrange⟩ : Penalty ℝ).Valid) (distinct : groups.Nodup)
    (inRange : ∀ group ∈ groups, group < design.inputShape.rows) :
    ∃ mask, Restriction.problem design loss lagrange l1 l2 groups =
      .ok ⟨⟨loss, design.restrict groups, none⟩,
        (⟨design.inputShape, l1, l2, lagrange⟩ : Penalty ℝ).over groups, mask⟩ := by
  have listed : (Restriction.candidateMask groups design.inputShape.rows : Except (Failure ℝ) Mask) =
      .ok (Mask.ofIndices groups design.inputShape.rows) :=
    Restriction.candidateMask_eq_ok.2 ⟨distinct, inRange, rfl⟩
  have accepted := Penalty.ofWeights_eq_ok.2 ⟨rfl, valid⟩
  have fits : (Composed.ofLoss loss (design.restrict groups) : Except (Failure ℝ) (Composed ℝ)) =
      .ok ⟨loss, design.restrict groups, none⟩ := by
    unfold Composed.ofLoss
    rw [Failure.bind_eq_ok]
    exact ⟨(), Failure.expectShape_eq_ok.2 (outputs.trans (Design.outputShape_restrict design).symm),
      rfl⟩
  refine ⟨Mask.ofIndices groups design.inputShape.rows, ?_⟩
  unfold Restriction.problem
  simp only [Failure.bind_eq_ok]
  exact ⟨_, listed, _, accepted, _, Penalty.restrict_eq valid inRange, _, fits, rfl⟩

end

end GroupLasso
