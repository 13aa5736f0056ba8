import GroupLasso.Proofs.Duality

/-!
The gauge of a vector is the norm dual to the cost of a direction, and its split proves it. The clipped
part and the rest bound what any direction can gain. The rest is itself a direction of greatest gain, and
where nothing is left the entry that touches the cube is one. The dual norm of a gradient is in the same
relation to the penalty.
-/

namespace GroupLasso

open Scalar

namespace Gauge

section
variable {α : Type} [Scalar α]

def gain (vector direction : List α) : α := Scalar.sum (List.zipWith (· * ·) vector direction)

def cost (l1 l2 : α) (direction : List α) : α :=
  l1 * Scalar.sum (direction.map Scalar.abs) + l2 * norm direction

end

/-- The parts of a split show the radius to be the least that bounds the gain of every direction by its
cost. -/
structure Split.Certifies (parts : Split ℝ) (vector : List ℝ) (l1 l2 radius : ℝ) : Prop where
  radius_eq : parts.radius = .finite radius
  sizes : parts.l1Part.length = vector.length ∧ parts.l2Part.length = vector.length
  whole : List.zipWith (· + ·) parts.l1Part parts.l2Part = vector
  inCube : ∀ entry ∈ parts.l1Part, |entry| ≤ radius * l1
  onBall : norm parts.l2Part = radius * l2
  bounds : ∀ direction, direction.length = vector.length →
    |gain vector direction| ≤ radius * cost l1 l2 direction
  attained : ∃ direction, direction.length = vector.length ∧ (∃ entry ∈ direction, entry ≠ 0) ∧
    |gain vector direction| = radius * cost l1 l2 direction

theorem map_getD_range (vector : List ℝ) :
    (List.range vector.length).map (fun col => vector.getD col 0) = vector := by
  apply List.ext_getElem (by simp)
  intro col _ bound
  rw [List.getElem_map, List.getElem_range, List.getD_eq_getElem _ _ bound]

theorem gain_range (force direction : Nat → ℝ) (width : Nat) :
    gain ((List.range width).map force) ((List.range width).map direction) =
      ∑ col ∈ Finset.range width, force col * direction col := by
  rw [gain, sum_real, List.zipWith_map, List.zipWith_self]
  rfl

theorem cost_range (l1 l2 : ℝ) (direction : Nat → ℝ) (width : Nat) :
    cost l1 l2 ((List.range width).map direction) =
      l1 * ∑ col ∈ Finset.range width, |direction col| +
        l2 * √(∑ col ∈ Finset.range width, direction col * direction col) := by
  rw [cost, sum_real, norm_real, List.map_map, List.map_map]
  rfl

def Attained (width : Nat) (force : Nat → ℝ) (l1 l2 radius : ℝ) : Prop :=
  ∃ direction : Nat → ℝ, (∃ col < width, direction col ≠ 0) ∧
    ∑ col ∈ Finset.range width, force col * direction col =
      radius * (l1 * ∑ col ∈ Finset.range width, |direction col| +
        l2 * √(∑ col ∈ Finset.range width, direction col * direction col))

section
variable {width : Nat} {force : Nat → ℝ} {l1 l2 radius : ℝ}

section
variable (isGauge : IsGauge ((List.range width).map force) l1 l2 radius) (l1_nonneg : 0 ≤ l1)

include isGauge l1_nonneg in
theorem IsGauge.gain_le (direction : Nat → ℝ) :
    ∑ col ∈ Finset.range width, force col * direction col ≤
      radius * (l1 * ∑ col ∈ Finset.range width, |direction col| +
        l2 * √(∑ col ∈ Finset.range width, direction col * direction col)) := by
  have cube_nonneg : 0 ≤ radius * l1 := mul_nonneg isGauge.nonneg l1_nonneg
  have inBall := isGauge.onSphere.le
  rw [softNorm_range] at inBall
  have gain := gain_le_cost (fun col => abs_clamp_le (force col) cube_nonneg) inBall direction
  simp only [clamp_add_softThreshold _ cube_nonneg] at gain
  linarith

include isGauge l1_nonneg in
theorem IsGauge.abs_gain_le (direction : Nat → ℝ) :
    |∑ col ∈ Finset.range width, force col * direction col| ≤
      radius * (l1 * ∑ col ∈ Finset.range width, |direction col| +
        l2 * √(∑ col ∈ Finset.range width, direction col * direction col)) := by
  refine abs_le'.2 ⟨isGauge.gain_le l1_nonneg direction, ?_⟩
  have backwards := isGauge.gain_le l1_nonneg fun col => -direction col
  simpa only [mul_neg, neg_neg, neg_mul, Finset.sum_neg_distrib, abs_neg] using backwards

include isGauge l1_nonneg in
theorem IsGauge.touches (l2_nonneg : 0 ≤ l2) (penalized : ¬ (l1 = 0 ∧ l2 = 0)) (width_pos : 0 < width)
    (inCube : radius * l2 = 0) : ∃ col < width, |force col| = radius * l1 := by
  have onSphere := isGauge.onSphere
  rw [inCube, softNorm_eq_zero] at onSphere
  simp only [List.forall_mem_map, List.mem_range] at onSphere
  rcases mul_eq_zero.1 inCube with rfl | rfl
  · refine ⟨0, width_pos, le_antisymm (onSphere 0 width_pos) ?_⟩
    rw [zero_mul]
    exact abs_nonneg _
  · have l1_pos : 0 < l1 := lt_of_le_of_ne l1_nonneg fun zero => penalized ⟨zero.symm, rfl⟩
    obtain ⟨col, member, largest⟩ := Finset.exists_max_image (Finset.range width) (fun col => |force col|)
      ⟨0, Finset.mem_range.2 width_pos⟩
    have bound := Finset.mem_range.1 member
    have tight : Gauge.IsGauge ((List.range width).map force) l1 0 (|force col| / l1) := by
      apply isGauge_l1 l1_pos
      · simpa using largest
      · exact ⟨force col, List.mem_map_of_mem (List.mem_range.2 bound), rfl⟩
    rw [isGauge.unique tight, div_mul_cancel₀ _ l1_pos.ne']
    exact ⟨col, bound, rfl⟩

theorem attained_unit (inCube : radius * l2 = 0) {col : Nat} (bound : col < width)
    (touching : |force col| = radius * l1) : Attained width force l1 l2 radius := by
  let side : ℝ := if 0 ≤ force col then 1 else -1
  have unit : |side| = 1 := by by_cases nonneg : 0 ≤ force col <;> simp [side, nonneg]
  have outward : force col * side = |force col| := by
    by_cases nonneg : 0 ≤ force col
    · simp [side, nonneg, abs_of_nonneg]
    · simp [side, nonneg, abs_of_neg (not_le.1 nonneg)]
  have only : ∀ term : Nat → ℝ → ℝ, (∀ other, term other 0 = 0) →
      ∑ other ∈ Finset.range width, term other ((Pi.single col side : Nat → ℝ) other) =
        term col side := by
    intro term vanishes
    rw [Finset.sum_eq_single_of_mem col (Finset.mem_range.2 bound), Pi.single_eq_same]
    intro other _ different
    rw [Pi.single_eq_of_ne different, vanishes]
  refine ⟨Pi.single col side, ⟨col, bound, by simpa using abs_pos.1 (unit ▸ one_pos)⟩, ?_⟩
  rw [only (fun other value => force other * value) fun _ => mul_zero _,
    only (fun _ value => |value|) fun _ => abs_zero,
    only (fun _ value => value * value) fun _ => mul_zero 0, unit, outward, touching]
  linear_combination -√(side * side) * inCube

include isGauge l1_nonneg in
theorem IsGauge.attained_rest (beyond : radius * l2 ≠ 0) : Attained width force l1 l2 radius := by
  let rest := fun col => softThreshold (force col) (radius * l1)
  have length : √(∑ col ∈ Finset.range width, rest col * rest col) = radius * l2 := by
    rw [← isGauge.onSphere, softNorm_range]
    simp only [sq]
    rfl
  have gain : ∑ col ∈ Finset.range width, force col * rest col = _ :=
    gain_rest force width (mul_nonneg isGauge.nonneg l1_nonneg)
  refine ⟨rest, ?_, ?_⟩
  · by_contra vanishes
    push Not at vanishes
    rw [Finset.sum_eq_zero fun col member => by rw [vanishes col (Finset.mem_range.1 member), zero_mul],
      Real.sqrt_zero] at length
    exact beyond length.symm
  · rw [gain, isGauge.onSphere, length]
    ring

include isGauge l1_nonneg in
theorem IsGauge.attained (l2_nonneg : 0 ≤ l2) (penalized : ¬ (l1 = 0 ∧ l2 = 0)) (width_pos : 0 < width) :
    Attained width force l1 l2 radius := by
  by_cases inCube : radius * l2 = 0
  · obtain ⟨col, bound, touching⟩ := isGauge.touches l1_nonneg l2_nonneg penalized width_pos inCube
    exact attained_unit inCube bound touching
  · exact isGauge.attained_rest l1_nonneg inCube

end

theorem IsGauge.certified {vector : List ℝ} (isGauge : IsGauge vector l1 l2 radius)
    (found : gauge vector l1 l2 = .finite radius) (nonempty : vector ≠ []) (l1_nonneg : 0 ≤ l1)
    (l2_nonneg : 0 ≤ l2) (penalized : ¬ (l1 = 0 ∧ l2 = 0)) :
    (split vector l1 l2).Certifies vector l1 l2 radius := by
  have cube_nonneg : 0 ≤ radius * l1 := mul_nonneg isGauge.nonneg l1_nonneg
  have positions := isGauge
  rw [← map_getD_range vector] at positions
  rw [split_eq l1_nonneg found isGauge]
  refine ⟨rfl, by simp, ?_, ?_, isGauge.onSphere, ?_, ?_⟩
  · simp only [List.zipWith_map, List.zipWith_self, clamp_add_softThreshold _ cube_nonneg, List.map_id']
  · simp only [List.forall_mem_map]
    exact fun entry _ => abs_clamp_le entry cube_nonneg
  · intro direction length
    rw [← map_getD_range vector, ← map_getD_range direction, length, gain_range, cost_range]
    exact positions.abs_gain_le l1_nonneg _
  · obtain ⟨direction, ⟨col, bound, nonzero⟩, gains⟩ := positions.attained l1_nonneg l2_nonneg penalized
      (List.length_pos_iff.2 nonempty)
    refine ⟨(List.range vector.length).map direction, by simp,
      ⟨direction col, List.mem_map_of_mem (List.mem_range.2 bound), nonzero⟩, ?_⟩
    have cost_nonneg : 0 ≤ radius * cost l1 l2 ((List.range vector.length).map direction) := by
      rw [cost_range]
      exact (abs_nonneg _).trans (positions.abs_gain_le l1_nonneg direction)
    rw [← cost_range, ← gain_range, map_getD_range] at gains
    rw [gains, abs_of_nonneg cost_nonneg]

end

end Gauge

namespace Penalty

variable {penalty : Penalty ℝ} {gradient coef : Mat ℝ}

def VanishesUnpenalized {α : Type} [Scalar α] (penalty : Penalty α) (coef : Mat α) : Prop :=
  ∀ group < penalty.groups, penalty.isUnpenalized group = true →
    ∀ col < penalty.shape.cols, coef.get group col = 0

theorem foldl_larger_attained (measure : Nat → ℝ) (groups : List Nat) (start : ℝ) :
    groups.foldl (fun largest group => larger largest (measure group)) start = start ∨
      ∃ group ∈ groups,
        groups.foldl (fun largest group => larger largest (measure group)) start = measure group := by
  induction groups generalizing start with
  | nil => exact .inl rfl
  | cons group rest ih =>
      rw [List.foldl_cons, larger_real]
      rcases ih (max start (measure group)) with same | ⟨later, member, attained⟩
      · rw [same]
        rcases max_choice start (measure group) with first | second
        · exact .inl first
        · exact .inr ⟨group, List.mem_cons_self, second⟩
      · exact .inr ⟨later, List.mem_cons_of_mem _ member, attained⟩

theorem dualNorm_attained (valid : penalty.Valid) (gradient : Mat ℝ) {group : Nat}
    (bound : group < penalty.groups) (penalized : penalty.isUnpenalized group = false) :
    ∃ row < penalty.groups, penalty.isUnpenalized row = false ∧
      penalty.gauge gradient row = penalty.dualNorm gradient := by
  let listed := (List.range penalty.groups).filter fun group => !penalty.isUnpenalized group
  rcases foldl_larger_attained (penalty.gauge gradient) listed 0 with zero | ⟨row, member, attained⟩
  · have bounded := (dualNorm_le_iff.1 (le_refl (penalty.dualNorm gradient))).2 group bound penalized
    have isZero : penalty.dualNorm gradient = 0 := zero
    have nonneg := (gauge_isGauge valid gradient penalized).2.nonneg
    exact ⟨group, bound, penalized, le_antisymm bounded (isZero ▸ nonneg)⟩
  · simp only [listed, List.mem_filter, List.mem_range, Bool.not_eq_true'] at member
    exact ⟨row, member.1, member.2, attained.symm⟩

section
variable (valid : penalty.Valid) (unit : penalty.lagrange = 1) (fits : gradient.shape = penalty.shape)

include valid unit fits

theorem inner_le_dualNorm (vanishes : penalty.VanishesUnpenalized coef) :
    gradient.inner coef ≤ penalty.dualNorm gradient * penalty.value coef := by
  rw [Mat.inner_real, value_real, Mat.rows_eq fits, Mat.cols_eq fits, Finset.mul_sum]
  refine Finset.sum_le_sum fun group member => ?_
  have bound := Finset.mem_range.1 member
  rw [unit, one_mul, one_mul]
  cases penalized : penalty.isUnpenalized group with
  | true =>
      have zero : ∀ col ∈ Finset.range penalty.shape.cols, coef.get group col = 0 :=
        fun col member => vanishes group bound penalized col (Finset.mem_range.1 member)
      have free : penalty.l1At group = 0 ∧ penalty.l2At group = 0 := by
        simpa [isUnpenalized] using penalized
      rw [Finset.sum_eq_zero fun col member => by rw [zero col member, mul_zero], free.1, free.2,
        zero_mul, zero_mul, add_zero, mul_zero]
  | false =>
      have isGauge := (gauge_isGauge valid gradient penalized).2
      rw [Mat.row, Mat.cols_eq fits] at isGauge
      have smaller := (dualNorm_le_iff.1 (le_refl (penalty.dualNorm gradient))).2 group bound penalized
      have cost_nonneg := valid.l1_nonneg group
      have ball_nonneg := valid.l2_nonneg group
      exact (isGauge.gain_le (valid.l1_nonneg group) (coef.get group)).trans
        (mul_le_mul_of_nonneg_right smaller (by positivity))

theorem inner_eq_dualNorm {group : Nat} (bound : group < penalty.groups)
    (penalized : penalty.isUnpenalized group = false) (cols_pos : 0 < penalty.shape.cols) :
    ∃ coef : Mat ℝ, coef.shape = penalty.shape ∧ penalty.VanishesUnpenalized coef ∧
      (∃ group < penalty.groups, ∃ col < penalty.shape.cols, coef.get group col ≠ 0) ∧
      gradient.inner coef = penalty.dualNorm gradient * penalty.value coef := by
  obtain ⟨row, rowBound, rowPenalized, largest⟩ := dualNorm_attained valid gradient bound penalized
  have isGauge := (gauge_isGauge valid gradient rowPenalized).2
  rw [Mat.row, Mat.cols_eq fits, largest] at isGauge
  obtain ⟨direction, ⟨col, colBound, nonzero⟩, gains⟩ := isGauge.attained (valid.l1_nonneg row)
    (valid.l2_nonneg row) (isUnpenalized_eq_false.1 rowPenalized) cols_pos
  refine ⟨Mat.single penalty.shape.rows penalty.shape.cols row direction, rfl, ?_, ?_, ?_⟩
  · intro other otherBound free position positionBound
    have different : other ≠ row := by
      rintro rfl
      exact Bool.noConfusion (free.symm.trans rowPenalized)
    rw [Mat.get_single otherBound positionBound, if_neg different]
  · refine ⟨row, rowBound, col, colBound, ?_⟩
    rwa [Mat.get_single rowBound colBound, if_pos rfl]
  · rw [Mat.inner_single fits rowBound, value_single penalty rowBound, unit, one_mul, one_mul, gains]

end

/-- The gauge is the norm dual to the cost of a direction, and its split certifies it. The dual norm of a
gradient is in that relation to the penalty at a Lagrange value of one, on the coefficients that vanish
in the unpenalized rows. -/
theorem dualNorm_exact :
    (∀ {vector : List ℝ} {l1 l2 : ℝ}, vector ≠ [] → 0 ≤ l1 → 0 ≤ l2 → ¬ (l1 = 0 ∧ l2 = 0) →
      ∃ radius, (Gauge.split vector l1 l2).Certifies vector l1 l2 radius) ∧
    ∀ {shape : Shape} {l1 l2 : Array ℝ} {penalty : Penalty ℝ} {gradient : Mat ℝ},
      ofWeights shape l1 l2 1 = .ok penalty → gradient.shape = shape →
        (∀ coef : Mat ℝ, coef.shape = shape → penalty.VanishesUnpenalized coef →
          gradient.inner coef ≤ penalty.dualNorm gradient * penalty.value coef) ∧
        ((∃ group < shape.rows, penalty.isUnpenalized group = false) → 0 < shape.cols →
          ∃ coef : Mat ℝ, coef.shape = shape ∧ penalty.VanishesUnpenalized coef ∧
            (∃ group < shape.rows, ∃ col < shape.cols, coef.get group col ≠ 0) ∧
            gradient.inner coef = penalty.dualNorm gradient * penalty.value coef) := by
  refine ⟨fun nonempty l1_nonneg l2_nonneg penalized => ?_, fun accepted fits => ?_⟩
  · obtain ⟨radius, found, isGauge⟩ := Gauge.gauge_isGauge _ l1_nonneg l2_nonneg penalized
    exact ⟨radius, isGauge.certified found nonempty l1_nonneg l2_nonneg penalized⟩
  · obtain ⟨rfl, valid⟩ := ofWeights_eq_ok.1 accepted
    exact ⟨fun coef _ vanishes => inner_le_dualNorm valid rfl fits vanishes,
      fun ⟨_, bound, penalized⟩ cols_pos =>
        inner_eq_dualNorm valid rfl fits bound penalized cols_pos⟩

theorem dualNorm_exact_tied :
    let penalty : Penalty ℝ := ⟨⟨2, 1⟩, #[1, 0], #[0, 0], 1⟩
    let gradient : Mat ℝ := .ofFn 2 1 fun group _ => if group = 0 then 2 else 5
    (Gauge.split [3, -3] 1 0).Certifies [3, -3] 1 0 3 ∧
      ofWeights ⟨2, 1⟩ #[1, 0] #[0, 0] 1 = .ok penalty ∧
      ∃ coef : Mat ℝ, coef.get 0 0 ≠ 0 ∧ coef.get 1 0 = 0 ∧
        gradient.inner coef = penalty.dualNorm gradient * penalty.value coef := by
  intro penalty gradient
  have valid : penalty.Valid := valid_iff.2 (by simp [penalty, groups])
  have accepted : ofWeights ⟨2, 1⟩ #[1, 0] #[0, 0] 1 = .ok penalty := ofWeights_eq_ok.2 ⟨rfl, valid⟩
  have largest : Gauge.IsGauge [3, -3] 1 0 (3 / 1) := Gauge.isGauge_l1 one_pos (by simp) (by simp)
  refine ⟨?_, accepted, ?_⟩
  · have weighted : ¬ ((1 : ℝ) = 0 ∧ (0 : ℝ) = 0) := fun both => one_ne_zero both.1
    obtain ⟨radius, certified⟩ :=
      dualNorm_exact.1 (List.cons_ne_nil 3 [-3]) zero_le_one le_rfl weighted
    obtain ⟨exact, found, isGauge⟩ := Gauge.gauge_isGauge [3, -3] zero_le_one le_rfl weighted
    have same : radius = exact := Radius.finite.inj
      (certified.radius_eq.symm.trans ((Gauge.split_radius _ _ _).trans found))
    have value : exact = 3 := (isGauge.unique largest).trans (div_one 3)
    rwa [same, value] at certified
  · have penalized : penalty.isUnpenalized 0 = false :=
      isUnpenalized_eq_false.2 (by simp [penalty, l1At])
    have free : penalty.isUnpenalized 1 = true := by simp [isUnpenalized, penalty, l1At, l2At]
    obtain ⟨coef, -, vanishes, ⟨group, bound, col, colBound, nonzero⟩, gains⟩ :=
      (dualNorm_exact.2 accepted (rfl : gradient.shape = ⟨2, 1⟩)).2 ⟨0, two_pos, penalized⟩ one_pos
    have zero := vanishes 1 one_lt_two free 0 one_pos
    obtain rfl : col = 0 := Nat.lt_one_iff.1 colBound
    have first : group = 0 := by
      by_contra other
      obtain rfl : group = 1 := by have : group < 2 := bound; omega
      exact nonzero zero
    exact ⟨coef, first ▸ nonzero, zero, gains⟩

end Penalty

end GroupLasso
