import GroupLasso.Proofs.RowChecks

/-!
What the optimality checks establish. A solution that a proximal gradient step leaves where it is
passes them at every tolerance. The converse needs one condition more: on a nonzero group with a
single positive weight the checks bound the gauge of the gradient from below only, so that a gradient
that is too long passes as well.
-/

namespace GroupLasso

open Scalar

namespace Optimality

/-- Every group is reported as satisfied. -/
def Certified {α : Type} [Scalar α] (gradient solution : Mat α) (l1 l2 : Array α)
    (lagrange tolerance : α) : Prop :=
  check? gradient solution l1 l2 lagrange tolerance =
    some (List.replicate solution.rows .satisfied)

theorem certified_iff {gradient solution : Mat ℝ} {l1 l2 : Array ℝ} {lagrange tolerance : ℝ} :
    Certified gradient solution l1 l2 lagrange tolerance ↔
      (∀ group < solution.rows, CanCheck gradient l1 l2 group) ∧
        ∀ status ∈ check gradient solution l1 l2 lagrange tolerance, status = .satisfied := by
  have length : (check gradient solution l1 l2 lagrange tolerance).length = solution.rows := by
    simp [check]
  unfold Certified check?
  split_ifs with can
  · rw [Option.some_inj, List.eq_replicate_iff]
    exact ⟨fun satisfied => ⟨can, satisfied.2⟩, fun satisfied => ⟨length, satisfied.2⟩⟩
  · exact ⟨nofun, fun satisfied => absurd satisfied.1 can⟩

section
variable {penalty : Penalty ℝ} {gradient solution : Mat ℝ} {tolerance : ℝ} {group : Nat}

def groupStatus {α : Type} [Scalar α] (penalty : Penalty α) (gradient solution : Mat α)
    (tolerance : α) (group : Nat) : Optimality :=
  checkGroup (gradient.row group) (solution.row group) (solution.rowNorm group)
    (penalty.l1At group) (penalty.l2At group) penalty.lagrange tolerance
    (activeCutoff solution tolerance < solution.rowNorm group)

theorem canCheck (valid : penalty.Valid) (rows : gradient.rows = penalty.groups)
    (bound : group < penalty.groups) : CanCheck gradient penalty.l1 penalty.l2 group := by
  refine ⟨valid.l1_size ▸ bound, valid.l2_size ▸ bound, .inr (rows ▸ bound), ?_⟩
  simp only [isZero_real]
  by_cases unpenalized : penalty.l1.getD group 0 = 0 ∧ penalty.l2.getD group 0 = 0
  · exact .inl unpenalized
  · exact .inr (Gauge.splitIsOrdered _ (valid.l1_nonneg group) (valid.l2_nonneg group) unpenalized)

theorem certified_iff_groups (valid : penalty.Valid)
    (gradientShape : gradient.shape = penalty.shape) (solutionShape : solution.shape = penalty.shape) :
    Certified gradient solution penalty.l1 penalty.l2 penalty.lagrange tolerance ↔
      ∀ group < penalty.groups, groupStatus penalty gradient solution tolerance group = .satisfied := by
  have rows : solution.rows = penalty.groups := Mat.rows_eq solutionShape
  rw [certified_iff, rows]
  constructor
  · rintro ⟨-, satisfied⟩ group bound
    apply satisfied
    exact List.mem_map.2 ⟨group, List.mem_range.2 (rows ▸ bound), rfl⟩
  · intro satisfied
    refine ⟨fun group bound => canCheck valid (Mat.rows_eq gradientShape) bound,
      fun status member => ?_⟩
    obtain ⟨group, listed, rfl⟩ := List.mem_map.1 member
    exact satisfied group (rows ▸ List.mem_range.1 listed)

theorem activeCutoff_pos (tolerance_pos : 0 < tolerance) : 0 < activeCutoff solution tolerance := by
  rw [activeCutoff, larger_real]
  exact mul_pos tolerance_pos (lt_max_of_lt_right one_pos)

theorem active_of_small (nonzero : solution.rowNorm group ≠ 0) :
    ∃ bound, 0 < bound ∧ bound ≤ 1 ∧ ∀ tolerance < bound,
      activeCutoff solution tolerance < solution.rowNorm group := by
  have length_pos : 0 < solution.rowNorm group := Mat.rowNorm_pos_iff.2 nonzero
  have total_pos : 0 < max (Scalar.sum solution.rowNorms) 1 := lt_max_of_lt_right one_pos
  refine ⟨min 1 (solution.rowNorm group / max (Scalar.sum solution.rowNorms) 1),
    lt_min one_pos (div_pos length_pos total_pos), min_le_left _ _, ?_⟩
  intro tolerance small
  rw [activeCutoff, larger_real, ← lt_div_iff₀ total_pos]
  exact small.trans_le (min_le_right _ _)

theorem row_negated (cols : gradient.cols = solution.cols) :
    (gradient.row group).map (- ·) =
      (List.range solution.cols).map fun col => -gradient.get group col := by
  rw [Mat.row, List.map_map, cols]
  rfl

theorem stationary_of_unpenalized (l1_zero : penalty.l1At group = 0)
    (l2_zero : penalty.l2At group = 0) (cols : gradient.cols = solution.cols) :
    penalty.Stationary gradient solution group ↔ norm (gradient.row group) = 0 := by
  have entries : norm (gradient.row group) = 0 ↔
      ∀ col < solution.cols, gradient.get group col = 0 := by
    rw [← Mat.rowNorm_eq_norm_row, Mat.rowNorm_eq_zero, cols]
  rw [entries]
  constructor
  · intro stationary col colBound
    by_cases zero : solution.rowNorm group = 0
    · have inside := stationary.inBall zero
      rw [l1_zero, l2_zero, mul_zero, row_negated cols] at inside
      have within := Gauge.softNorm_eq_zero.1 (le_antisymm inside (Gauge.softNorm_nonneg _ _)) _
        (List.mem_map_of_mem (List.mem_range.2 colBound))
      exact neg_eq_zero.1 (abs_nonpos_iff.1 within)
    · by_cases absent : solution.get group col = 0
      · have within := stationary.inCube zero col colBound absent
        rw [l1_zero, mul_zero] at within
        exact abs_nonpos_iff.1 within
      · have edge := stationary.onEdge col colBound absent
        rw [l1_zero, l2_zero] at edge
        linarith
  · intro zero
    refine ⟨fun _ => ?_, fun _ col colBound _ => ?_, fun col colBound _ => ?_⟩
    · rw [l1_zero, l2_zero, mul_zero, Gauge.softNorm_eq_zero.2 _]
      rw [row_negated cols]
      simp only [List.mem_map, List.mem_range]
      rintro _ ⟨col, colBound, rfl⟩
      rw [zero col colBound, neg_zero, abs_zero]
    · rw [zero col colBound, l1_zero, mul_zero, abs_zero]
    · rw [zero col colBound, l1_zero, l2_zero]
      ring

theorem stationary_of_nonzero (nonzero : solution.rowNorm group ≠ 0) :
    penalty.Stationary gradient solution group ↔
      StationaryRow solution.cols (fun col => -gradient.get group col) (solution.get group)
        (penalty.l1At group) (penalty.l2At group) penalty.lagrange := by
  have length : solution.rowNorm group =
      norm ((List.range solution.cols).map (solution.get group)) := Mat.rowNorm_eq_norm_row _ _
  constructor
  · intro stationary
    refine ⟨fun col colBound absent => ?_, fun col colBound present => ?_⟩
    · rw [abs_neg]
      exact stationary.inCube nonzero col colBound absent
    · rw [← length]
      exact stationary.onEdge col colBound present
  · intro stationary
    refine ⟨fun zero => absurd zero nonzero, fun _ col colBound absent => ?_,
      fun col colBound present => ?_⟩
    · rw [← abs_neg]
      exact stationary.inCube col colBound absent
    · rw [length]
      exact stationary.onEdge col colBound present

theorem groupStatus_unpenalized (l1_zero : penalty.l1At group = 0)
    (l2_zero : penalty.l2At group = 0) :
    groupStatus penalty gradient solution tolerance group = .satisfied ↔
      norm (gradient.row group) ≤ tolerance * max (solution.rowNorm group) 1 := by
  have unpenalized : IsZero (penalty.l1At group) ∧ IsZero (penalty.l2At group) := by
    rw [l1_zero, l2_zero]
    exact ⟨⟨le_rfl, le_rfl⟩, ⟨le_rfl, le_rfl⟩⟩
  rw [groupStatus, checkGroup, if_pos unpenalized]
  exact checkUnpenalized_satisfied

theorem groupStatus_active (penalized : ¬ (penalty.l1At group = 0 ∧ penalty.l2At group = 0))
    (cols : gradient.cols = solution.cols)
    (active : activeCutoff solution tolerance < solution.rowNorm group) :
    groupStatus penalty gradient solution tolerance group =
      checkActive
        (Gauge.split ((List.range solution.cols).map fun col => -gradient.get group col)
          (penalty.l1At group) (penalty.l2At group))
        ((List.range solution.cols).map (solution.get group))
        (norm ((List.range solution.cols).map (solution.get group)))
        (penalty.l1At group) (penalty.l2At group) penalty.lagrange tolerance := by
  simp only [groupStatus, checkGroup, isZero_real, if_neg penalized, active, decide_true, if_true]
  rw [row_negated cols, Mat.rowNorm_eq_norm_row]
  rfl

theorem groupStatus_inactive (penalized : ¬ (penalty.l1At group = 0 ∧ penalty.l2At group = 0))
    (inactive : ¬ activeCutoff solution tolerance < solution.rowNorm group) :
    groupStatus penalty gradient solution tolerance group = .satisfied ↔
      (Gauge.gauge ((gradient.row group).map (- ·)) (penalty.l1At group)
        (penalty.l2At group)).toScalar < penalty.lagrange * (1 + tolerance) := by
  simp only [groupStatus, checkGroup, isZero_real, if_neg penalized, inactive, decide_false,
    Bool.false_eq_true, if_false]
  rw [checkInactive_satisfied, Gauge.split_radius]

section
variable (valid : penalty.Valid) (gradientShape : gradient.shape = penalty.shape)
  (solutionShape : solution.shape = penalty.shape) (lagrange_pos : 0 < penalty.lagrange)

include valid gradientShape solutionShape lagrange_pos

theorem gauge_of_stationary (penalized : ¬ (penalty.l1At group = 0 ∧ penalty.l2At group = 0))
    (stationary : penalty.Stationary gradient solution group) :
    ∃ radius, Gauge.gauge ((gradient.row group).map (- ·)) (penalty.l1At group)
      (penalty.l2At group) = .finite radius ∧ radius ≤ penalty.lagrange := by
  have cols := (Mat.cols_eq gradientShape).trans (Mat.cols_eq solutionShape).symm
  obtain ⟨radius, found, isGauge⟩ := Gauge.gauge_isGauge ((gradient.row group).map (- ·))
    (valid.l1_nonneg group) (valid.l2_nonneg group) penalized
  refine ⟨radius, found, ?_⟩
  by_cases zero : solution.rowNorm group = 0
  · rw [isGauge.le_iff (valid.l1_nonneg group) (valid.l2_nonneg group) lagrange_pos.le]
    exact stationary.inBall zero
  · have balanced := (stationary_of_nonzero zero).1 stationary
    rw [Mat.rowNorm_eq_norm_row] at zero
    rw [row_negated cols] at isGauge
    exact (isGauge.unique (balanced.isGauge (valid.l1_nonneg group) (valid.l2_nonneg group)
      penalized lagrange_pos zero)).le

theorem groupStatus_of_stationary (tolerance_pos : 0 < tolerance)
    (stationary : penalty.Stationary gradient solution group) :
    groupStatus penalty gradient solution tolerance group = .satisfied := by
  have cols := (Mat.cols_eq gradientShape).trans (Mat.cols_eq solutionShape).symm
  by_cases unpenalized : penalty.l1At group = 0 ∧ penalty.l2At group = 0
  · rw [groupStatus_unpenalized unpenalized.1 unpenalized.2,
      (stationary_of_unpenalized unpenalized.1 unpenalized.2 cols).1 stationary]
    positivity
  by_cases active : activeCutoff solution tolerance < solution.rowNorm group
  · have nonzero : solution.rowNorm group ≠ 0 := ((activeCutoff_pos tolerance_pos).trans active).ne'
    rw [groupStatus_active unpenalized cols active]
    have row := (stationary_of_nonzero nonzero).1 stationary
    rw [Mat.rowNorm_eq_norm_row] at nonzero
    exact (row.balanced (valid.l1_nonneg group) (valid.l2_nonneg group) unpenalized lagrange_pos
      nonzero).satisfied (valid.l1_nonneg group) (valid.l2_nonneg group) unpenalized lagrange_pos
        tolerance_pos nonzero
  · obtain ⟨radius, found, bounded⟩ := gauge_of_stationary valid gradientShape solutionShape
      lagrange_pos unpenalized stationary
    rw [groupStatus_inactive unpenalized active, found]
    have beyond : penalty.lagrange < penalty.lagrange * (1 + tolerance) := by nlinarith
    exact bounded.trans_lt beyond

/-- A group that passes at every tolerance is stationary, unless its row is nonzero, only one of its
weights is positive and the gauge exceeds the Lagrange value. -/
theorem stationary_of_groupStatus
    (satisfied : ∀ tolerance, 0 < tolerance → tolerance < 1 →
      groupStatus penalty gradient solution tolerance group = .satisfied)
    (bounded : solution.rowNorm group ≠ 0 →
      (penalty.l1At group = 0 ∧ 0 < penalty.l2At group ∨
        0 < penalty.l1At group ∧ penalty.l2At group = 0) →
      (Gauge.gauge ((gradient.row group).map (- ·)) (penalty.l1At group)
        (penalty.l2At group)).AtMost penalty.lagrange) :
    penalty.Stationary gradient solution group := by
  have cols := (Mat.cols_eq gradientShape).trans (Mat.cols_eq solutionShape).symm
  have l1_nonneg := valid.l1_nonneg group
  have l2_nonneg := valid.l2_nonneg group
  by_cases unpenalized : penalty.l1At group = 0 ∧ penalty.l2At group = 0
  · rw [stationary_of_unpenalized unpenalized.1 unpenalized.2 cols]
    apply le_antisymm _ (norm_nonneg_real _)
    apply le_of_small (lt_max_of_lt_right one_pos : 0 < max (solution.rowNorm group) 1) one_pos
    intro tolerance positive small
    rw [zero_add]
    exact (groupStatus_unpenalized unpenalized.1 unpenalized.2).1 (satisfied tolerance positive small)
  by_cases zero : solution.rowNorm group = 0
  · obtain ⟨radius, found, isGauge⟩ := Gauge.gauge_isGauge ((gradient.row group).map (- ·))
      l1_nonneg l2_nonneg unpenalized
    have radius_le : radius ≤ penalty.lagrange := by
      apply le_of_small lagrange_pos one_pos
      intro tolerance positive small
      have inactive : ¬ activeCutoff solution tolerance < solution.rowNorm group := by
        rw [zero]
        exact (activeCutoff_pos positive).not_gt
      have short := (groupStatus_inactive unpenalized inactive).1 (satisfied tolerance positive small)
      rw [found] at short
      have : radius < penalty.lagrange * (1 + tolerance) := short
      linarith
    refine ⟨fun _ => (isGauge.le_iff l1_nonneg l2_nonneg lagrange_pos.le).1 radius_le,
      fun nonzero => absurd zero nonzero, fun col colBound present => ?_⟩
    exact absurd (Mat.rowNorm_eq_zero.1 zero col colBound) present
  · obtain ⟨bound, bound_pos, bound_le, active⟩ := active_of_small zero
    have nonzero : norm ((List.range solution.cols).map (solution.get group)) ≠ 0 := by
      rwa [Mat.rowNorm_eq_norm_row] at zero
    obtain ⟨radius, found, balanced⟩ := balanced_of_satisfied l1_nonneg l2_nonneg unpenalized
      lagrange_pos bound_pos nonzero fun tolerance positive small =>
        groupStatus_active unpenalized cols (active tolerance small) ▸
          satisfied tolerance positive (small.trans_le bound_le)
    have radius_eq : radius = penalty.lagrange := by
      rcases l1_nonneg.eq_or_lt with noCube | l1_pos
      · have l2_pos := lt_of_le_of_ne l2_nonneg fun noBall => unpenalized ⟨noCube.symm, noBall.symm⟩
        have upper := bounded zero (.inl ⟨noCube.symm, l2_pos⟩)
        rw [row_negated cols, found] at upper
        exact le_antisymm upper balanced.lagrange_le
      rcases l2_nonneg.eq_or_lt with noBall | l2_pos
      · have upper := bounded zero (.inr ⟨l1_pos, noBall.symm⟩)
        rw [row_negated cols, found] at upper
        exact le_antisymm upper balanced.lagrange_le
      · exact balanced.radius_eq l1_pos l2_pos lagrange_pos nonzero
    rw [stationary_of_nonzero zero]
    exact (radius_eq ▸ balanced).stationary l1_nonneg l2_nonneg lagrange_pos

end

end

/-! The full check. -/

section
variable {shape : Shape} {l1 l2 : Array ℝ} {lagrange : ℝ} {penalty : Penalty ℝ}
  {gradient solution : Mat ℝ}

/-- A solution that one proximal gradient step of some length leaves where it is passes the checks in
every group and at every tolerance. -/
theorem fixedPoint_certified {step tolerance : ℝ}
    (accepted : Penalty.ofWeights shape l1 l2 lagrange = .ok penalty) (lagrange_pos : 0 < lagrange)
    (gradientShape : gradient.shape = shape) (solutionShape : solution.shape = shape)
    (step_pos : 0 < step)
    (fixed : solution = penalty.proximal (solution.addScaled (-step) gradient) step)
    (tolerance_pos : 0 < tolerance) : Certified gradient solution l1 l2 lagrange tolerance := by
  obtain ⟨rfl, valid⟩ := Penalty.ofWeights_eq_ok.1 accepted
  have stationary := (Penalty.fixedPoint_iff valid solutionShape gradientShape step_pos).1 fixed
  rw [certified_iff_groups valid gradientShape solutionShape]
  intro group bound
  exact groupStatus_of_stationary valid gradientShape solutionShape lagrange_pos tolerance_pos
    (stationary group bound)

theorem fixedPoint_certified_two_groups :
    let gradient : Mat ℝ := .ofFn 2 2 fun row col => if row = 0 ∧ col = 0 then -3 else 1
    let solution : Mat ℝ := .ofFn 2 2 fun row col => if row = 0 ∧ col = 0 then 3 else 0
    let penalty : Penalty ℝ := ⟨⟨2, 2⟩, #[1, 1], #[2, 0], 1⟩
    Penalty.ofWeights ⟨2, 2⟩ #[1, 1] #[2, 0] 1 = .ok penalty ∧
      gradient.shape = ⟨2, 2⟩ ∧ solution.shape = ⟨2, 2⟩ ∧
      solution = penalty.proximal (solution.addScaled (-2) gradient) 2 ∧
      Certified gradient solution #[1, 1] #[2, 0] 1 (1 / 100) := by
  intro gradient solution penalty
  have valid : penalty.Valid := Penalty.valid_iff.2 (by simp [penalty, Penalty.groups])
  have accepted : Penalty.ofWeights ⟨2, 2⟩ #[1, 1] #[2, 0] 1 = .ok penalty :=
    Penalty.ofWeights_eq_ok.2 ⟨rfl, valid⟩
  have gradientAt : ∀ row < 2, ∀ col < 2,
      gradient.get row col = if row = 0 ∧ col = 0 then -3 else 1 :=
    fun _ rowBound _ colBound => Mat.get_ofFn _ rowBound colBound
  have solutionAt : ∀ row < 2, ∀ col < 2,
      solution.get row col = if row = 0 ∧ col = 0 then 3 else 0 :=
    fun _ rowBound _ colBound => Mat.get_ofFn _ rowBound colBound
  have length : solution.rowNorm 0 = 3 := by
    rw [Mat.rowNorm, sumTo_real, sqrt_real, Real.sqrt_eq_iff_mul_self_eq_of_pos (by norm_num)]
    simp [show solution.cols = 2 from rfl, Finset.sum_range_succ, solutionAt]
  have empty : solution.rowNorm 1 = 0 :=
    Mat.rowNorm_eq_zero.2 fun col colBound => by simp [solutionAt 1 one_lt_two col colBound]
  have fixed : solution = penalty.proximal (solution.addScaled (-2) gradient) 2 := by
    rw [Penalty.fixedPoint_iff valid rfl rfl two_pos]
    intro group (bound : group < 2)
    interval_cases group
    · refine ⟨fun zero => ?_, fun _ col (colBound : col < 2) absent => ?_,
        fun col (colBound : col < 2) present => ?_⟩
      · norm_num [length] at zero
      · rw [gradientAt 0 two_pos col colBound]
        interval_cases col
        · norm_num [solutionAt] at absent
        · norm_num [penalty, Penalty.l1At]
      · rw [length, gradientAt 0 two_pos col colBound, solutionAt 0 two_pos col colBound]
        interval_cases col
        · norm_num [penalty, Penalty.l1At, Penalty.l2At, sign]
        · norm_num [solutionAt] at present
    · refine ⟨fun _ => ?_, fun nonzero => absurd empty nonzero, fun col colBound present => ?_⟩
      · have within : Gauge.softNorm ((gradient.row 1).map (- ·)) 1 = 0 := by
          rw [Gauge.softNorm_eq_zero]
          simp only [Mat.row, List.map_map, List.mem_map, List.mem_range]
          rintro _ ⟨col, colBound, rfl⟩
          simp [gradientAt 1 one_lt_two col colBound]
        simp [penalty, Penalty.l1At, Penalty.l2At, within]
      · exact absurd (Mat.rowNorm_eq_zero.1 empty col colBound) present
  exact ⟨accepted, rfl, rfl, fixed,
    fixedPoint_certified accepted one_pos rfl rfl two_pos fixed (by norm_num)⟩

/-- Exactly what the checks leave open: a solution that passes them at every tolerance stays where it
is under every proximal gradient step if and only if, on nonzero groups with a single positive
weight, the gauge of the gradient is at most the Lagrange value. -/
theorem fixedPoint_iff_certified (accepted : Penalty.ofWeights shape l1 l2 lagrange = .ok penalty)
    (lagrange_pos : 0 < lagrange) (gradientShape : gradient.shape = shape)
    (solutionShape : solution.shape = shape) :
    (∀ step, 0 < step → solution = penalty.proximal (solution.addScaled (-step) gradient) step) ↔
      (∀ tolerance, 0 < tolerance → tolerance < 1 →
        Certified gradient solution l1 l2 lagrange tolerance) ∧
      ∀ group < penalty.groups, solution.rowNorm group ≠ 0 →
        (penalty.l1At group = 0 ∧ 0 < penalty.l2At group ∨
          0 < penalty.l1At group ∧ penalty.l2At group = 0) →
        (Gauge.gauge ((gradient.row group).map (- ·)) (penalty.l1At group)
          (penalty.l2At group)).AtMost lagrange := by
  obtain ⟨rfl, valid⟩ := Penalty.ofWeights_eq_ok.1 accepted
  constructor
  · intro fixed
    have stationary := (Penalty.fixedPoint_iff valid solutionShape gradientShape one_pos).1
      (fixed 1 one_pos)
    refine ⟨fun tolerance positive _ => ?_, fun group bound _ single => ?_⟩
    · rw [certified_iff_groups valid gradientShape solutionShape]
      intro group bound
      exact groupStatus_of_stationary valid gradientShape solutionShape lagrange_pos positive
        (stationary group bound)
    · obtain ⟨radius, found, bounded⟩ := gauge_of_stationary valid gradientShape solutionShape
        lagrange_pos (by rintro ⟨noCube, noBall⟩; rcases single with single | single <;> linarith)
        (stationary group bound)
      rw [found]
      exact bounded
  · rintro ⟨certified, bounded⟩ step step_pos
    rw [Penalty.fixedPoint_iff valid solutionShape gradientShape step_pos]
    intro group bound
    apply stationary_of_groupStatus valid gradientShape solutionShape lagrange_pos _
      (bounded group bound)
    intro tolerance positive small
    exact (certified_iff_groups valid gradientShape solutionShape).1
      (certified tolerance positive small) group bound

theorem fixedPoint_iff_certified_one_group :
    let gradient : Mat ℝ := .ofFn 1 1 fun _ _ => -1
    let solution : Mat ℝ := .ofFn 1 1 fun _ _ => 1
    let penalty : Penalty ℝ := ⟨⟨1, 1⟩, #[0], #[1], 1⟩
    Penalty.ofWeights ⟨1, 1⟩ #[0] #[1] 1 = .ok penalty ∧
      gradient.shape = ⟨1, 1⟩ ∧ solution.shape = ⟨1, 1⟩ ∧
      ((∀ step, 0 < step → solution = penalty.proximal (solution.addScaled (-step) gradient) step) ↔
        (∀ tolerance, 0 < tolerance → tolerance < 1 →
          Certified gradient solution #[0] #[1] 1 tolerance) ∧
        ∀ group < penalty.groups, solution.rowNorm group ≠ 0 →
          (penalty.l1At group = 0 ∧ 0 < penalty.l2At group ∨
            0 < penalty.l1At group ∧ penalty.l2At group = 0) →
          (Gauge.gauge ((gradient.row group).map (- ·)) (penalty.l1At group)
            (penalty.l2At group)).AtMost 1) := by
  intro gradient solution penalty
  have valid : penalty.Valid := Penalty.valid_iff.2 (by simp [penalty, Penalty.groups])
  have accepted : Penalty.ofWeights ⟨1, 1⟩ #[0] #[1] 1 = .ok penalty :=
    Penalty.ofWeights_eq_ok.2 ⟨rfl, valid⟩
  exact ⟨accepted, rfl, rfl, fixedPoint_iff_certified accepted one_pos rfl rfl⟩

/-- A gradient five times too long for its coefficient passes at every tolerance. -/
theorem certified_not_fixed :
    let gradient : Mat ℝ := .ofFn 1 1 fun _ _ => -5
    let solution : Mat ℝ := .ofFn 1 1 fun _ _ => 1
    let penalty : Penalty ℝ := ⟨⟨1, 1⟩, #[0], #[1], 1⟩
    Penalty.ofWeights ⟨1, 1⟩ #[0] #[1] 1 = .ok penalty ∧
      gradient.shape = ⟨1, 1⟩ ∧ solution.shape = ⟨1, 1⟩ ∧
      (∀ tolerance, 0 < tolerance → tolerance < 1 →
        Certified gradient solution #[0] #[1] 1 tolerance) ∧
      solution ≠ penalty.proximal (solution.addScaled (-1) gradient) 1 := by
  intro gradient solution penalty
  have valid : penalty.Valid := Penalty.valid_iff.2 (by simp [penalty, Penalty.groups])
  have accepted : Penalty.ofWeights ⟨1, 1⟩ #[0] #[1] 1 = .ok penalty :=
    Penalty.ofWeights_eq_ok.2 ⟨rfl, valid⟩
  have gradientAt : gradient.get 0 0 = -5 := Mat.get_ofFn _ one_pos one_pos
  have solutionAt : solution.get 0 0 = 1 := Mat.get_ofFn _ one_pos one_pos
  have length : solution.rowNorm 0 = 1 := by
    simp [Mat.rowNorm, show solution.cols = 1 from rfl, solutionAt]
  refine ⟨accepted, rfl, rfl, fun tolerance positive small => ?_, fun fixed => ?_⟩
  · apply (certified_iff_groups valid rfl rfl).2
    intro group (bound : group < 1)
    interval_cases group
    have active : activeCutoff solution tolerance < solution.rowNorm 0 := by
      have norms : solution.rowNorms = [1] := by rw [← length]; rfl
      rw [activeCutoff, norms, length, sum_real, larger_real]
      simpa using small
    have coefNorm : norm ((List.range 1).map (solution.get 0)) = 1 :=
      (Mat.rowNorm_eq_norm_row solution 0).symm.trans length
    have force : (List.range 1).map (fun col => -gradient.get 0 col) = [5] := by
      simp [gradientAt]
    have balanced : Balanced 1 (fun col => -gradient.get 0 col) (solution.get 0) 0 1 1 5 := by
      refine ⟨?_, by norm_num, fun col bound _ => ?_, fun _ col bound => ?_⟩
      · rw [force]
        apply Gauge.IsGauge.of_onSphere le_rfl one_pos (by norm_num)
        rw [mul_zero, Gauge.softNorm_zero, norm_real]
        simp
      · interval_cases col
        norm_num [clamp, gradientAt]
      · interval_cases col
        rw [coefNorm, solutionAt, gradientAt]
        norm_num [softThreshold]
    have penalized : ¬ (penalty.l1At 0 = 0 ∧ penalty.l2At 0 = 0) := by
      simp [penalty, Penalty.l1At, Penalty.l2At]
    have sameWidth : gradient.cols = solution.cols := rfl
    rw [groupStatus_active penalized sameWidth active]
    exact balanced.satisfied le_rfl zero_le_one penalized one_pos positive
      (coefNorm.symm ▸ one_ne_zero)
  · have stationary := (Penalty.fixedPoint_iff valid rfl rfl one_pos).1 fixed 0 one_pos
    have edge := stationary.onEdge 0 one_pos (by rw [solutionAt]; exact one_ne_zero)
    rw [gradientAt, solutionAt, length] at edge
    norm_num [penalty, Penalty.l1At, Penalty.l2At] at edge

end

end Optimality

end GroupLasso
