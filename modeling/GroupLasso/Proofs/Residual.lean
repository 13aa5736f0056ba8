import GroupLasso.Proofs.Proximal

/-!
What the proximal map takes from a row. It is the whole row when the gauge of the row is at most the
step, and otherwise a vector on the sphere of the step, so that the proximal map and the gauge decide in
the same way which rows are zero.
-/

namespace GroupLasso

open Scalar

theorem Scalar.softThreshold_sub {value amount keep : ℝ} (nonneg : 0 ≤ amount) (keep_le : keep ≤ 1) :
    softThreshold (value - softThreshold value amount * keep) amount =
      softThreshold value amount * (1 - keep) := by
  by_cases inside : |value| ≤ amount
  · rw [softThreshold_eq_zero.2 inside, zero_mul, zero_mul, sub_zero, softThreshold_eq_zero.2 inside]
  · have nonzero : softThreshold value amount ≠ 0 := fun zero => inside (softThreshold_eq_zero.1 zero)
    have edge := (softThreshold_eq_iff nonneg nonzero).1 rfl
    rcases keep_le.eq_or_lt with rfl | less
    · rw [sub_self, mul_zero, mul_one, softThreshold_eq_zero]
      have taken : value - softThreshold value amount = amount * sign (softThreshold value amount) := by
        linarith
      rw [taken, abs_mul, abs_sign nonzero, mul_one, abs_of_nonneg nonneg]
    · have positive : 0 < 1 - keep := sub_pos.2 less
      rw [softThreshold_eq_iff nonneg (mul_ne_zero nonzero positive.ne'), mul_comm _ (1 - keep),
        sign_mul positive]
      linear_combination edge

theorem Scalar.abs_clamp_of_outside {value amount : ℝ} (nonneg : 0 ≤ amount)
    (outside : softThreshold value amount ≠ 0) : |clamp (-amount) amount value| = amount := by
  have whole := clamp_add_softThreshold value nonneg
  have edge := (softThreshold_eq_iff nonneg outside).1 rfl
  have side : clamp (-amount) amount value = amount * sign (softThreshold value amount) := by
    linarith
  rw [side, abs_mul, abs_sign outside, mul_one, abs_of_nonneg nonneg]

namespace Penalty

section
variable {width : Nat} {row : Nat → ℝ}

theorem restNorm_eq_softNorm (width : Nat) (cube : ℝ) (row : Nat → ℝ) :
    restNorm width cube row = Gauge.softNorm ((List.range width).map row) cube := by
  simp only [restNorm, Gauge.softNorm_range, sq]

theorem shrunk_eq_zero {cube ball : ℝ} (ball_nonneg : 0 ≤ ball) :
    (∀ col < width, shrunk width cube ball row col = 0) ↔
      Gauge.softNorm ((List.range width).map row) cube ≤ ball := by
  rw [Gauge.softNorm, ← shrink_eq_zero ball_nonneg]
  simp only [List.forall_mem_map, List.mem_range, shrunk, restNorm_eq_softNorm, Gauge.softNorm,
    mul_comm (shrinkage _ _)]

/-- What thresholding a row and shrinking the rest of it take away. -/
noncomputable def taken (width : Nat) (cube ball : ℝ) (row : Nat → ℝ) (col : Nat) : ℝ :=
  row col - shrunk width cube ball row col

theorem softNorm_taken {cube ball : ℝ} (cube_nonneg : 0 ≤ cube) (ball_nonneg : 0 ≤ ball) :
    Gauge.softNorm ((List.range width).map (taken width cube ball row)) cube =
      (1 - shrinkage (restNorm width cube row) ball) * restNorm width cube row := by
  have slack := (shrinkage_slack (restNorm width cube row) ball_nonneg).1
  have rest : ∀ col, softThreshold (taken width cube ball row col) cube =
      softThreshold (row col) cube * (1 - shrinkage (restNorm width cube row) ball) :=
    fun col => softThreshold_sub cube_nonneg (sub_nonneg.1 slack)
  rw [← restNorm_eq_softNorm]
  conv_lhs => rw [restNorm]
  simp only [rest]
  exact sqrt_sum_scaled slack _

theorem taken_of_le {cube ball : ℝ} (ball_nonneg : 0 ≤ ball)
    (inside : Gauge.softNorm ((List.range width).map row) cube ≤ ball) :
    ∀ col < width, taken width cube ball row col = row col := by
  intro col bound
  rw [taken, (shrunk_eq_zero ball_nonneg).2 inside col bound, sub_zero]

theorem taken_clipped {cube : ℝ} (cube_nonneg : 0 ≤ cube) (beyond : 0 < restNorm width cube row)
    (col : Nat) : taken width cube 0 row col = clamp (-cube) cube (row col) := by
  rw [taken, sub_shrunk width row cube_nonneg, shrinkage_of_lt beyond, zero_div, sub_zero, sub_self,
    mul_zero, add_zero]

section
variable {l1 l2 radius amount : ℝ}

theorem isGauge_taken_clipped (l1_pos : 0 < l1) (amount_nonneg : 0 ≤ amount)
    (beyond : 0 < restNorm width (amount * l1) row) :
    Gauge.IsGauge ((List.range width).map (taken width (amount * l1) 0 row)) l1 0 amount := by
  have cube_nonneg : 0 ≤ amount * l1 := mul_nonneg amount_nonneg l1_pos.le
  have clipped := taken_clipped cube_nonneg beyond
  obtain ⟨col, bound, outside⟩ : ∃ col < width, softThreshold (row col) (amount * l1) ≠ 0 := by
    by_contra vanishes
    push Not at vanishes
    have zero : restNorm width (amount * l1) row = 0 := by
      rw [restNorm_eq_softNorm, Gauge.softNorm_eq_zero]
      simpa [softThreshold_eq_zero] using vanishes
    exact beyond.ne' zero
  have bounded : ∀ entry ∈ (List.range width).map (taken width (amount * l1) 0 row),
      |entry| ≤ amount * l1 := by
    simp only [List.forall_mem_map, clipped]
    exact fun col _ => Gauge.abs_clamp_le (row col) cube_nonneg
  have touched : ∃ entry ∈ (List.range width).map (taken width (amount * l1) 0 row),
      |entry| = amount * l1 :=
    ⟨_, List.mem_map_of_mem (List.mem_range.2 bound),
      clipped col ▸ abs_clamp_of_outside cube_nonneg outside⟩
  have found := Gauge.isGauge_l1 l1_pos bounded touched
  rwa [mul_div_cancel_right₀ _ l1_pos.ne'] at found

variable (l1_nonneg : 0 ≤ l1) (l2_nonneg : 0 ≤ l2) (amount_nonneg : 0 ≤ amount)

include l1_nonneg l2_nonneg amount_nonneg

theorem isGauge_taken_of_lt (penalized : ¬ (l1 = 0 ∧ l2 = 0))
    (beyond : amount * l2 < restNorm width (amount * l1) row) :
    Gauge.IsGauge ((List.range width).map (taken width (amount * l1) (amount * l2) row)) l1 l2
      amount := by
  rcases l2_nonneg.eq_or_lt with rfl | l2_pos
  · rw [mul_zero] at beyond ⊢
    have l1_pos : 0 < l1 := lt_of_le_of_ne l1_nonneg fun zero => penalized ⟨zero.symm, rfl⟩
    exact isGauge_taken_clipped l1_pos amount_nonneg beyond
  · have ball_nonneg : 0 ≤ amount * l2 := mul_nonneg amount_nonneg l2_nonneg
    have length_pos : 0 < restNorm width (amount * l1) row := ball_nonneg.trans_lt beyond
    apply Gauge.IsGauge.of_onSphere l1_nonneg l2_pos amount_nonneg
    rw [softNorm_taken (mul_nonneg amount_nonneg l1_nonneg) ball_nonneg, shrinkage_of_lt beyond,
      sub_sub_cancel, div_mul_cancel₀ _ length_pos.ne']

theorem isGauge_taken (penalized : ¬ (l1 = 0 ∧ l2 = 0))
    (isGauge : Gauge.IsGauge ((List.range width).map row) l1 l2 radius) :
    Gauge.IsGauge ((List.range width).map (taken width (amount * l1) (amount * l2) row)) l1 l2
      (min radius amount) := by
  -- Either the row is taken whole, or what is left of it points out of the sphere of the amount.
  rcases le_or_gt radius amount with within | beyond
  · have inside := (isGauge.le_iff l1_nonneg l2_nonneg amount_nonneg).1 within
    have whole := taken_of_le (mul_nonneg amount_nonneg l2_nonneg) inside
    have same : (List.range width).map (taken width (amount * l1) (amount * l2) row) =
        (List.range width).map row :=
      List.map_congr_left fun col member => whole col (List.mem_range.1 member)
    rwa [min_eq_left within, same]
  · have outside : amount * l2 < restNorm width (amount * l1) row := by
      rw [restNorm_eq_softNorm, ← not_le, ← isGauge.le_iff l1_nonneg l2_nonneg amount_nonneg]
      exact not_le.2 beyond
    rw [min_eq_right beyond.le]
    exact isGauge_taken_of_lt l1_nonneg l2_nonneg amount_nonneg penalized outside

end

end

variable {penalty : Penalty ℝ} {coef : Mat ℝ} {step : ℝ} {group : Nat}

theorem row_difference (bound : group < penalty.groups) (cols : coef.cols = penalty.shape.cols) :
    List.zipWith (· - ·) (coef.row group) ((penalty.proximal coef step).row group) =
      (List.range coef.cols).map (taken coef.cols (step * penalty.lagrange * penalty.l1At group)
        (step * penalty.lagrange * penalty.l2At group) (coef.get group)) := by
  have width : (penalty.proximal coef step).cols = coef.cols := cols.symm
  rw [Mat.row, Mat.row, width, List.zipWith_map, List.zipWith_self]
  refine List.map_congr_left fun col member => ?_
  rw [get_proximal_eq_shrunk bound coef step col (cols ▸ List.mem_range.1 member), ← cols, taken]

variable {shape : Shape} {l1 l2 : Array ℝ} {lagrange : ℝ}

/-- The proximal map makes a row zero exactly when the gauge of the row is at most the step times the
Lagrange value, and what it takes from a row has the smaller of the two as its gauge. -/
theorem proximal_gauge (accepted : ofWeights shape l1 l2 lagrange = .ok penalty)
    (cols : coef.cols = shape.cols) (step_nonneg : 0 ≤ step) (bound : group < penalty.groups)
    (penalized : penalty.isUnpenalized group = false) :
    ∃ radius, Gauge.gauge (coef.row group) (penalty.l1At group) (penalty.l2At group) =
        .finite radius ∧
      ((∀ col < shape.cols, (penalty.proximal coef step).get group col = 0) ↔
        radius ≤ step * lagrange) ∧
      Gauge.gauge (List.zipWith (· - ·) (coef.row group) ((penalty.proximal coef step).row group))
        (penalty.l1At group) (penalty.l2At group) = .finite (min radius (step * lagrange)) ∧
      ((∃ col < shape.cols, (penalty.proximal coef step).get group col ≠ 0) →
        Gauge.gauge (List.zipWith (· - ·) (coef.row group)
            ((penalty.proximal coef step).row group))
          (penalty.l1At group) (penalty.l2At group) = .finite (step * lagrange)) := by
  obtain ⟨rfl, valid⟩ := ofWeights_eq_ok.1 accepted
  let penalty : Penalty ℝ := ⟨shape, l1, l2, lagrange⟩
  have l1_nonneg := valid.l1_nonneg group
  have l2_nonneg := valid.l2_nonneg group
  have amount_nonneg : 0 ≤ step * lagrange := mul_nonneg step_nonneg valid.lagrange_nonneg
  have weighted := isUnpenalized_eq_false.1 penalized
  obtain ⟨radius, found, isGauge⟩ :=
    Gauge.gauge_isGauge (coef.row group) l1_nonneg l2_nonneg weighted
  have vanishes : (∀ col < shape.cols, (penalty.proximal coef step).get group col = 0) ↔
      radius ≤ step * lagrange := by
    rw [isGauge.le_iff l1_nonneg l2_nonneg amount_nonneg, Mat.row, cols,
      ← shrunk_eq_zero (mul_nonneg amount_nonneg l2_nonneg)]
    exact forall₂_congr fun col colBound => by
      rw [get_proximal_eq_shrunk bound coef step col colBound]
  obtain ⟨rest, restFound, restIsGauge⟩ := Gauge.gauge_isGauge
    (List.zipWith (· - ·) (coef.row group) ((penalty.proximal coef step).row group))
    l1_nonneg l2_nonneg weighted
  have smaller : rest = min radius (step * lagrange) := by
    rw [row_difference bound cols] at restIsGauge
    exact restIsGauge.unique (isGauge_taken l1_nonneg l2_nonneg amount_nonneg weighted isGauge)
  refine ⟨radius, found, vanishes, smaller ▸ restFound, ?_⟩
  rintro ⟨col, colBound, present⟩
  have beyond : step * lagrange ≤ radius := by
    by_contra within
    exact present (vanishes.2 (not_le.1 within).le col colBound)
  rw [restFound, smaller, min_eq_right beyond]

theorem proximal_gauge_tied :
    let penalty : Penalty ℝ := ⟨⟨1, 3⟩, #[1], #[0], 2⟩
    let coef : Mat ℝ := .ofFn 1 3 fun _ col => if col = 0 then 0 else 3
    ofWeights ⟨1, 3⟩ #[1] #[0] 2 = .ok penalty ∧ penalty.isUnpenalized 0 = false ∧
      Gauge.gauge (coef.row 0) 1 0 = .finite 3 ∧
      (∃ col < 3, (penalty.proximal coef 1).get 0 col ≠ 0) ∧
      Gauge.gauge (List.zipWith (· - ·) (coef.row 0) ((penalty.proximal coef 1).row 0)) 1 0 =
        .finite 2 := by
  intro penalty coef
  have valid : penalty.Valid := valid_iff.2 (by simp [penalty, groups])
  have accepted : ofWeights ⟨1, 3⟩ #[1] #[0] 2 = .ok penalty := ofWeights_eq_ok.2 ⟨rfl, valid⟩
  have penalized : penalty.isUnpenalized 0 = false :=
    isUnpenalized_eq_false.2 (by simp [penalty, l1At])
  obtain ⟨radius, found, vanishes, -, sphere⟩ := proximal_gauge accepted (rfl : coef.cols = 3)
    zero_le_one (one_pos : 0 < penalty.groups) penalized
  have row : coef.row 0 = [0, 3, 3] := Mat.row_ofFn _ one_pos
  have exact : radius = 3 := by
    obtain ⟨again, same, isGauge⟩ :=
      Gauge.gauge_isGauge (coef.row 0) zero_le_one le_rfl (isUnpenalized_eq_false.1 penalized)
    obtain rfl : radius = again := Radius.finite.inj (found.symm.trans same)
    have largest : Gauge.IsGauge [0, 3, 3] 1 0 (3 / 1) :=
      Gauge.isGauge_l1 one_pos (by simp) (by simp)
    rw [row] at isGauge
    simpa using isGauge.unique largest
  have nonzero : ∃ col < 3, (penalty.proximal coef 1).get 0 col ≠ 0 := by
    by_contra zero
    push Not at zero
    have bounded := vanishes.1 zero
    norm_num [exact] at bounded
  refine ⟨accepted, penalized, exact ▸ found, nonzero, ?_⟩
  have boundary := sphere nonzero
  rwa [one_mul] at boundary

end Penalty

end GroupLasso
