import GroupLasso.Optimality
import GroupLasso.Proofs.Penalty

/-!
The optimality checks of one row. On a nonzero row with a positive weight, passing at every tolerance
is balance between the force and the coefficients, and a stationary row is one that is balanced at
the Lagrange value itself.
-/

namespace GroupLasso

open Scalar

namespace Optimality

theorem checkUnpenalized_satisfied {gradient : List ℝ} {coefNorm tolerance : ℝ} {active : Bool} :
    checkUnpenalized gradient coefNorm tolerance active = .satisfied ↔
      norm gradient ≤ tolerance * max coefNorm 1 := by
  unfold checkUnpenalized
  rw [larger_real]
  split_ifs with small <;> simp [small]

theorem checkInactive_satisfied {split : Gauge.Split ℝ} {lagrange tolerance : ℝ} :
    checkInactive split lagrange tolerance = .satisfied ↔
      split.radius.toScalar < lagrange * (1 + tolerance) := by
  unfold checkInactive
  split_ifs with large
  · simpa using large
  · simpa using large

theorem checkActive_satisfied {split : Gauge.Split ℝ} {coef : List ℝ}
    {coefNorm l1 l2 lagrange tolerance : ℝ} :
    checkActive split coef coefNorm l1 l2 lagrange tolerance = .satisfied ↔
      (0 < l2 → aligned split.l2Part coef coefNorm tolerance) ∧
        signError split.l1Part coef l1 lagrange ≤ tolerance * max coefNorm 1 ∧
          lagrange * (1 - tolerance) ≤ split.radius.toScalar := by
  unfold checkActive
  rw [larger_real]
  split_ifs with turned wrong short
  · simp [turned]
  · simp [wrong]
  · simp [short]
  · simp only [not_and, not_not, not_lt] at turned wrong short
    simp only [true_iff]
    exact ⟨turned, wrong, short⟩

theorem le_of_small {left right factor bound : ℝ} (factor_pos : 0 < factor) (bound_pos : 0 < bound)
    (small : ∀ tolerance, 0 < tolerance → tolerance < bound →
      left ≤ right + tolerance * factor) : left ≤ right := by
  apply le_of_forall_pos_le_add
  intro slack slack_pos
  have bounded := small (min (bound / 2) (slack / factor)) (by positivity)
    ((min_le_left _ _).trans_lt (by linarith))
  have : min (bound / 2) (slack / factor) * factor ≤ slack := by
    calc min (bound / 2) (slack / factor) * factor
        ≤ slack / factor * factor := mul_le_mul_of_nonneg_right (min_le_right _ _) factor_pos.le
      _ = slack := div_mul_cancel₀ _ factor_pos.ne'
  linarith

section
variable {width : Nat} {part coef : Nat → ℝ}

theorem signError_eq_zero {l1 lagrange : ℝ} :
    signError ((List.range width).map part) ((List.range width).map coef) l1 lagrange = 0 ↔
      ∀ col < width, coef col ≠ 0 → part col = l1 * sign (coef col) * lagrange := by
  unfold signError
  rw [norm_eq_zero_real, List.zip_map']
  simp only [List.filterMap_map, List.mem_filterMap, List.mem_range, Function.comp_apply,
    isZero_real, Option.ite_none_left_eq_some, Option.some.injEq, forall_exists_index, and_imp]
  constructor
  · intro vanishes col bound nonzero
    exact sub_eq_zero.1 (vanishes _ col bound nonzero rfl)
  · rintro equal _ col bound nonzero rfl
    exact sub_eq_zero.2 (equal col bound nonzero)

def directionError {α : Type} [Scalar α] (part coef : List α) (coefNorm : α) : α :=
  norm (List.zipWith (· - ·) (unitVector part (norm part)) (unitVector coef coefNorm))

theorem aligned_iff {part coef : List ℝ} {coefNorm tolerance : ℝ} (nonzero : coefNorm ≠ 0) :
    aligned part coef coefNorm tolerance ↔ directionError part coef coefNorm ≤ tolerance := by
  simp [aligned, directionError, nonzero]

theorem directionError_eq_zero {length coefNorm : ℝ}
    (partNorm : norm ((List.range width).map part) = length) (partNonzero : length ≠ 0)
    (nonzero : coefNorm ≠ 0) :
    directionError ((List.range width).map part) ((List.range width).map coef) coefNorm = 0 ↔
      ∀ col < width, part col / length = coef col / coefNorm := by
  simp only [directionError, unitVector, partNorm, isZero_real, partNonzero, nonzero, if_false]
  rw [norm_eq_zero_real, List.map_map, List.map_map, List.zipWith_map, List.zipWith_self]
  simp [sub_eq_zero]

end

/-! The checks of a nonzero group with a positive weight. -/

structure StationaryRow (width : Nat) (force coef : Nat → ℝ) (l1 l2 lagrange : ℝ) : Prop where
  inCube : ∀ col < width, coef col = 0 → |force col| ≤ lagrange * l1
  onEdge : ∀ col < width, coef col ≠ 0 → force col = lagrange * l1 * sign (coef col) +
    lagrange * l2 * (coef col / norm ((List.range width).map coef))

/-- What the checks of a nonzero row ask when they hold at every tolerance: stationarity with the
gauge of the force in place of the Lagrange value wherever the checks read the gauge. -/
structure Balanced (width : Nat) (force coef : Nat → ℝ) (l1 l2 lagrange radius : ℝ) : Prop where
  isGauge : Gauge.IsGauge ((List.range width).map force) l1 l2 radius
  lagrange_le : lagrange ≤ radius
  signs : ∀ col < width, coef col ≠ 0 →
    clamp (-(radius * l1)) (radius * l1) (force col) = l1 * sign (coef col) * lagrange
  direction : 0 < l2 → ∀ col < width, softThreshold (force col) (radius * l1) =
    radius * l2 * (coef col / norm ((List.range width).map coef))

section
variable {width : Nat} {force coef : Nat → ℝ} {l1 l2 lagrange radius : ℝ}

theorem split_force (l1_nonneg : 0 ≤ l1) (l2_nonneg : 0 ≤ l2) (penalized : ¬ (l1 = 0 ∧ l2 = 0)) :
    ∃ radius, Gauge.gauge ((List.range width).map force) l1 l2 = .finite radius ∧
      Gauge.IsGauge ((List.range width).map force) l1 l2 radius ∧
      Gauge.split ((List.range width).map force) l1 l2 = ⟨.finite radius,
        (List.range width).map fun col => clamp (-(radius * l1)) (radius * l1) (force col),
        (List.range width).map fun col => softThreshold (force col) (radius * l1)⟩ := by
  obtain ⟨radius, found, isGauge⟩ := Gauge.gauge_isGauge ((List.range width).map force)
    l1_nonneg l2_nonneg penalized
  refine ⟨radius, found, isGauge, ?_⟩
  rw [Gauge.split_eq l1_nonneg found isGauge, List.map_map, List.map_map]
  rfl

theorem norm_rest (isGauge : Gauge.IsGauge ((List.range width).map force) l1 l2 radius) :
    norm ((List.range width).map fun col => softThreshold (force col) (radius * l1)) =
      radius * l2 := by
  have onSphere := isGauge.onSphere
  rwa [Gauge.softNorm, List.map_map] at onSphere

theorem balanced_of_satisfied {bound : ℝ} (l1_nonneg : 0 ≤ l1) (l2_nonneg : 0 ≤ l2)
    (penalized : ¬ (l1 = 0 ∧ l2 = 0)) (lagrange_pos : 0 < lagrange) (bound_pos : 0 < bound)
    (nonzero : norm ((List.range width).map coef) ≠ 0)
    (satisfied : ∀ tolerance, 0 < tolerance → tolerance < bound →
      checkActive (Gauge.split ((List.range width).map force) l1 l2) ((List.range width).map coef)
        (norm ((List.range width).map coef)) l1 l2 lagrange tolerance = .satisfied) :
    ∃ radius, Gauge.gauge ((List.range width).map force) l1 l2 = .finite radius ∧
      Balanced width force coef l1 l2 lagrange radius := by
  obtain ⟨radius, found, isGauge, parts⟩ := split_force l1_nonneg l2_nonneg penalized
  rw [parts] at satisfied
  simp only [checkActive_satisfied] at satisfied
  have lagrange_le : lagrange ≤ radius := by
    apply le_of_small lagrange_pos bound_pos
    intro tolerance positive small
    have long : lagrange * (1 - tolerance) ≤ radius := (satisfied tolerance positive small).2.2
    linarith
  refine ⟨radius, found, isGauge, lagrange_le, ?_, ?_⟩
  · rw [← signError_eq_zero]
    apply le_antisymm _ (norm_nonneg_real _)
    apply le_of_small (lt_max_of_lt_right one_pos) bound_pos
    intro tolerance positive small
    rw [zero_add]
    exact (satisfied tolerance positive small).2.1
  · intro l2_pos col colBound
    have length_pos : 0 < radius * l2 := mul_pos (lagrange_pos.trans_le lagrange_le) l2_pos
    have aligned : directionError
        ((List.range width).map fun col => softThreshold (force col) (radius * l1))
        ((List.range width).map coef) (norm ((List.range width).map coef)) = 0 := by
      apply le_antisymm _ (norm_nonneg_real _)
      apply le_of_small one_pos bound_pos
      intro tolerance positive small
      rw [zero_add, mul_one]
      exact (aligned_iff nonzero).1 ((satisfied tolerance positive small).1 l2_pos)
    have same := (directionError_eq_zero (norm_rest isGauge) length_pos.ne' nonzero).1 aligned col
      colBound
    rw [← same, mul_div_cancel₀ _ length_pos.ne']

theorem Balanced.satisfied {tolerance : ℝ} (l1_nonneg : 0 ≤ l1) (l2_nonneg : 0 ≤ l2)
    (penalized : ¬ (l1 = 0 ∧ l2 = 0)) (lagrange_pos : 0 < lagrange) (tolerance_pos : 0 < tolerance)
    (nonzero : norm ((List.range width).map coef) ≠ 0)
    (balanced : Balanced width force coef l1 l2 lagrange radius) :
    checkActive (Gauge.split ((List.range width).map force) l1 l2) ((List.range width).map coef)
      (norm ((List.range width).map coef)) l1 l2 lagrange tolerance = .satisfied := by
  obtain ⟨radius', -, isGauge, parts⟩ := split_force l1_nonneg l2_nonneg penalized
  obtain rfl : radius = radius' := balanced.isGauge.unique isGauge
  rw [parts, checkActive_satisfied]
  refine ⟨?_, ?_, ?_⟩
  · intro l2_pos
    have length_pos : 0 < radius * l2 :=
      mul_pos (lagrange_pos.trans_le balanced.lagrange_le) l2_pos
    rw [aligned_iff nonzero, (directionError_eq_zero (norm_rest isGauge) length_pos.ne' nonzero).2]
    · exact tolerance_pos.le
    · intro col colBound
      rw [balanced.direction l2_pos col colBound, mul_div_cancel_left₀ _ length_pos.ne']
  · rw [signError_eq_zero.2 balanced.signs]
    positivity
  · have shrunk : lagrange * (1 - tolerance) ≤ lagrange := by nlinarith
    exact shrunk.trans balanced.lagrange_le

theorem exists_nonzero (nonzero : norm ((List.range width).map coef) ≠ 0) :
    ∃ col < width, coef col ≠ 0 := by
  by_contra none
  push Not at none
  apply nonzero
  rw [norm_eq_zero_real]
  simpa using none

theorem Balanced.rest (balanced : Balanced width force coef l1 l2 lagrange radius)
    (l2_nonneg : 0 ≤ l2) {col : Nat} (colBound : col < width) :
    softThreshold (force col) (radius * l1) =
      radius * l2 * (coef col / norm ((List.range width).map coef)) := by
  rcases l2_nonneg.eq_or_lt with noBall | l2_pos
  · have onSphere := balanced.isGauge.onSphere
    rw [← noBall, mul_zero, Gauge.softNorm_eq_zero] at onSphere
    rw [← noBall, mul_zero, zero_mul, softThreshold_eq_zero]
    exact onSphere _ (List.mem_map_of_mem (List.mem_range.2 colBound))
  · exact balanced.direction l2_pos col colBound

theorem Balanced.radius_eq (balanced : Balanced width force coef l1 l2 lagrange radius)
    (l1_pos : 0 < l1) (l2_pos : 0 < l2) (lagrange_pos : 0 < lagrange)
    (nonzero : norm ((List.range width).map coef) ≠ 0) : radius = lagrange := by
  obtain ⟨col, colBound, present⟩ := exists_nonzero nonzero
  have radius_pos : 0 < radius := lagrange_pos.trans_le balanced.lagrange_le
  have length_pos : 0 < norm ((List.range width).map coef) := norm_pos_real nonzero
  have cube_nonneg : 0 ≤ radius * l1 := (mul_pos radius_pos l1_pos).le
  have rest := balanced.rest l2_pos.le colBound
  have scaled : radius * l2 * (coef col / norm ((List.range width).map coef)) =
      radius * l2 / norm ((List.range width).map coef) * coef col := by ring
  have factor_pos : 0 < radius * l2 / norm ((List.range width).map coef) := by positivity
  rw [scaled] at rest
  have edge := (softThreshold_eq_iff cube_nonneg (mul_ne_zero factor_pos.ne' present)).1 rest
  rw [sign_mul factor_pos] at edge
  have whole := clamp_add_softThreshold (force col) cube_nonneg
  rw [rest, balanced.signs col colBound present] at whole
  have scales : l1 * sign (coef col) * (radius - lagrange) = 0 := by linear_combination -whole - edge
  have equal := (mul_eq_zero.1 scales).resolve_left (mul_ne_zero l1_pos.ne' (sign_ne_zero present))
  linarith

theorem Balanced.stationary (balanced : Balanced width force coef l1 l2 lagrange lagrange)
    (l1_nonneg : 0 ≤ l1) (l2_nonneg : 0 ≤ l2) (lagrange_pos : 0 < lagrange) :
    StationaryRow width force coef l1 l2 lagrange := by
  refine ⟨?_, ?_⟩
  · intro col colBound absent
    have rest := balanced.rest l2_nonneg colBound
    rw [absent, zero_div, mul_zero] at rest
    exact softThreshold_eq_zero.1 rest
  · intro col colBound present
    have whole := clamp_add_softThreshold (force col) (mul_nonneg lagrange_pos.le l1_nonneg)
    rw [balanced.rest l2_nonneg colBound, balanced.signs col colBound present] at whole
    linear_combination -whole

theorem StationaryRow.rest (stationary : StationaryRow width force coef l1 l2 lagrange)
    (l1_nonneg : 0 ≤ l1) (l2_nonneg : 0 ≤ l2) (lagrange_pos : 0 < lagrange)
    (nonzero : norm ((List.range width).map coef) ≠ 0) {col : Nat} (colBound : col < width) :
    softThreshold (force col) (lagrange * l1) =
      lagrange * l2 / norm ((List.range width).map coef) * coef col := by
  have cube_nonneg := mul_nonneg lagrange_pos.le l1_nonneg
  have ball_nonneg := mul_nonneg lagrange_pos.le l2_nonneg
  have length_pos : 0 < norm ((List.range width).map coef) := norm_pos_real nonzero
  by_cases absent : coef col = 0
  · rw [absent, mul_zero, softThreshold_eq_zero]
    exact stationary.inCube col colBound absent
  · have edge := stationary.onEdge col colBound absent
    rcases ball_nonneg.eq_or_lt with noBall | ball_pos
    · rw [← noBall, zero_mul, add_zero] at edge
      rw [← noBall, zero_div, zero_mul, softThreshold_eq_zero, edge, abs_mul,
        abs_of_nonneg cube_nonneg, abs_sign absent, mul_one]
    · have factor_pos := div_pos ball_pos length_pos
      rw [softThreshold_eq_iff cube_nonneg (mul_ne_zero factor_pos.ne' absent),
        sign_mul factor_pos, edge]
      ring

theorem StationaryRow.isGauge (stationary : StationaryRow width force coef l1 l2 lagrange)
    (l1_nonneg : 0 ≤ l1) (l2_nonneg : 0 ≤ l2) (penalized : ¬ (l1 = 0 ∧ l2 = 0))
    (lagrange_pos : 0 < lagrange) (nonzero : norm ((List.range width).map coef) ≠ 0) :
    Gauge.IsGauge ((List.range width).map force) l1 l2 lagrange := by
  have factor_nonneg : 0 ≤ lagrange * l2 / norm ((List.range width).map coef) :=
    div_nonneg (mul_nonneg lagrange_pos.le l2_nonneg) (norm_nonneg_real _)
  have onSphere : Gauge.softNorm ((List.range width).map force) (lagrange * l1) =
      lagrange * l2 := by
    have scaled : ((List.range width).map force).map (softThreshold · (lagrange * l1)) =
        ((List.range width).map coef).map
          (lagrange * l2 / norm ((List.range width).map coef) * ·) := by
      rw [List.map_map, List.map_map, List.map_inj_left]
      intro col member
      exact stationary.rest l1_nonneg l2_nonneg lagrange_pos nonzero (List.mem_range.1 member)
    rw [Gauge.softNorm, scaled, norm_mul_real, abs_of_nonneg factor_nonneg,
      div_mul_cancel₀ _ nonzero]
  rcases l2_nonneg.eq_or_lt with noBall | l2_pos
  -- Without a ball a nonzero entry attains the side of the cube, so that no smaller one will do.
  · refine ⟨lagrange_pos.le, onSphere, ?_⟩
    intro other _ inside
    obtain ⟨col, colBound, present⟩ := exists_nonzero nonzero
    have l1_pos : 0 < l1 := lt_of_le_of_ne l1_nonneg fun zero => penalized ⟨zero.symm, noBall.symm⟩
    have edge := stationary.onEdge col colBound present
    rw [← noBall, mul_zero, zero_mul, add_zero] at edge
    rw [← noBall, mul_zero] at inside
    have zero := le_antisymm inside (Gauge.softNorm_nonneg _ _)
    have within := Gauge.softNorm_eq_zero.1 zero (force col)
      (List.mem_map_of_mem (List.mem_range.2 colBound))
    rw [edge, abs_mul, abs_of_nonneg (mul_nonneg lagrange_pos.le l1_nonneg), abs_sign present,
      mul_one] at within
    exact le_of_mul_le_mul_right within l1_pos
  · exact .of_onSphere l1_nonneg l2_pos lagrange_pos.le onSphere

theorem StationaryRow.balanced (stationary : StationaryRow width force coef l1 l2 lagrange)
    (l1_nonneg : 0 ≤ l1) (l2_nonneg : 0 ≤ l2) (penalized : ¬ (l1 = 0 ∧ l2 = 0))
    (lagrange_pos : 0 < lagrange) (nonzero : norm ((List.range width).map coef) ≠ 0) :
    Balanced width force coef l1 l2 lagrange lagrange := by
  have rest : ∀ col < width, softThreshold (force col) (lagrange * l1) =
      lagrange * l2 / norm ((List.range width).map coef) * coef col :=
    fun _ => stationary.rest l1_nonneg l2_nonneg lagrange_pos nonzero
  refine ⟨stationary.isGauge l1_nonneg l2_nonneg penalized lagrange_pos nonzero,
    le_rfl, ?_, ?_⟩
  · intro col colBound present
    have whole := clamp_add_softThreshold (force col) (mul_nonneg lagrange_pos.le l1_nonneg)
    rw [rest col colBound] at whole
    linear_combination whole + stationary.onEdge col colBound present
  · intro _ col colBound
    rw [rest col colBound]
    ring

end

end Optimality

end GroupLasso
