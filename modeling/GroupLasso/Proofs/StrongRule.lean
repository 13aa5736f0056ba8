import GroupLasso.Proofs.Duality
import GroupLasso.Proofs.Optimality
import GroupLasso.Proofs.Step

/-!
Safety of the screening rule. The gauge is subadditive, so that the gauge of a gradient grows by no more
than the gauge of its change. When the change stays below the slope times the difference of the Lagrange
values, a group that the rule discards is in the dual ball at the next value and passes its check there
with a zero row.
-/

namespace GroupLasso

open Scalar

namespace Gauge

section
variable {width : Nat} {first second : Nat → ℝ} {l1 l2 : ℝ}

theorem softNorm_add_le {cube ball otherCube otherBall : ℝ} (cube_nonneg : 0 ≤ cube)
    (ball_nonneg : 0 ≤ ball) (otherCube_nonneg : 0 ≤ otherCube) (otherBall_nonneg : 0 ≤ otherBall)
    (inside : softNorm ((List.range width).map first) cube ≤ ball)
    (otherInside : softNorm ((List.range width).map second) otherCube ≤ otherBall) :
    softNorm ((List.range width).map fun col => first col + second col) (cube + otherCube) ≤
      ball + otherBall := by
  rw [softNorm_le_iff (add_nonneg cube_nonneg otherCube_nonneg)
    (add_nonneg ball_nonneg otherBall_nonneg)]
  intro direction
  have gain := (softNorm_le_iff cube_nonneg ball_nonneg).1 inside direction
  have otherGain := (softNorm_le_iff otherCube_nonneg otherBall_nonneg).1 otherInside direction
  simp only [add_mul, Finset.sum_add_distrib]
  linarith

section
variable (l1_nonneg : 0 ≤ l1) (l2_nonneg : 0 ≤ l2) (penalized : ¬ (l1 = 0 ∧ l2 = 0))

include l1_nonneg l2_nonneg penalized

theorem atMost_iff {vector : List ℝ} {bound : ℝ} : (gauge vector l1 l2).AtMost bound ↔
    0 ≤ bound ∧ softNorm vector (bound * l1) ≤ bound * l2 := by
  obtain ⟨radius, found, isGauge⟩ := gauge_isGauge vector l1_nonneg l2_nonneg penalized
  rw [found]
  constructor
  · intro within
    have nonneg : 0 ≤ bound := isGauge.nonneg.trans within
    exact ⟨nonneg, (isGauge.le_iff l1_nonneg l2_nonneg nonneg).1 within⟩
  · rintro ⟨nonneg, inside⟩
    exact isGauge.least bound nonneg inside

theorem atMost_add {bound otherBound : ℝ}
    (within : (gauge ((List.range width).map first) l1 l2).AtMost bound)
    (otherWithin : (gauge ((List.range width).map second) l1 l2).AtMost otherBound) :
    (gauge ((List.range width).map fun col => first col + second col) l1 l2).AtMost
      (bound + otherBound) := by
  rw [atMost_iff l1_nonneg l2_nonneg penalized] at within otherWithin ⊢
  refine ⟨add_nonneg within.1 otherWithin.1, ?_⟩
  rw [add_mul, add_mul]
  exact softNorm_add_le (mul_nonneg within.1 l1_nonneg) (mul_nonneg within.1 l2_nonneg)
    (mul_nonneg otherWithin.1 l1_nonneg) (mul_nonneg otherWithin.1 l2_nonneg) within.2 otherWithin.2

theorem toScalar_le {vector : List ℝ} {bound : ℝ} (within : (gauge vector l1 l2).AtMost bound) :
    (gauge vector l1 l2).toScalar ≤ bound := by
  obtain ⟨radius, found, -⟩ := gauge_isGauge vector l1_nonneg l2_nonneg penalized
  rw [found] at within ⊢
  exact within

end

end

end Gauge

namespace Optimality

theorem getElem?_check {penalty : Penalty ℝ} {gradient solution : Mat ℝ} {tolerance : ℝ} {group : Nat}
    (bound : group < solution.rows) :
    (check gradient solution penalty.l1 penalty.l2 penalty.lagrange tolerance)[group]? =
      some (groupStatus penalty gradient solution tolerance group) := by
  rw [check, List.getElem?_map, List.getElem?_range bound]
  rfl

end Optimality

namespace Screening

variable {l1 l2 : Array ℝ} {current next slope : ℝ} {gradient moved : Mat ℝ} {group : Nat}

theorem discarded_iff (bound : group < gradient.rows) :
    (strongSet l1 l2 current next gradient slope).contains group = false ↔
      (Gauge.gauge (gradient.row group) (l1.getD group 0) (l2.getD group 0)).AtMost
        (threshold current next slope) := by
  have listed : (strongSet l1 l2 current next gradient slope).contains group =
      !Gauge.inside (gradient.row group) (threshold current next slope) (l1.getD group 0)
        (l2.getD group 0) := by
    simp [strongSet, StrongSet.contains, Mask.contains, bound]
  rw [listed, Gauge.inside, Bool.not_eq_false', decide_eq_true_iff]

/-- A penalized group that the rule discards, and whose gradient changes by a gauge of at most the slope
times the difference of the Lagrange values, has a gauge of at most the next value. At a positive next
value it passes its check with a zero row, at every tolerance. This holds for any slope and for values in
any order. -/
theorem discarded_stays (l1_nonneg : 0 ≤ l1.getD group 0) (l2_nonneg : 0 ≤ l2.getD group 0)
    (penalized : ¬ (l1.getD group 0 = 0 ∧ l2.getD group 0 = 0))
    (shape : moved.shape = gradient.shape) (bound : group < gradient.rows)
    (discarded : (strongSet l1 l2 current next gradient slope).contains group = false)
    (slow : (Gauge.gauge (List.zipWith (· - ·) (moved.row group) (gradient.row group))
      (l1.getD group 0) (l2.getD group 0)).AtMost (slope * (current - next))) :
    (Gauge.gauge (moved.row group) (l1.getD group 0) (l2.getD group 0)).AtMost next ∧
      (0 < next → ∀ solution : Mat ℝ, group < solution.rows →
        (∀ col < solution.cols, solution.get group col = 0) → ∀ tolerance > 0,
          (Optimality.check moved solution l1 l2 next tolerance)[group]? = some .satisfied) := by
  have inside : (Gauge.gauge (moved.row group) (l1.getD group 0) (l2.getD group 0)).AtMost next := by
    have before := (discarded_iff bound).1 discarded
    have cols : moved.cols = gradient.cols := Mat.cols_eq shape
    have sum : moved.row group = (List.range gradient.cols).map fun col =>
        (moved.get group col - gradient.get group col) + gradient.get group col := by
      simp only [Mat.row, cols, sub_add_cancel]
    have values : slope * (current - next) + threshold current next slope = next := by
      unfold threshold
      ring
    rw [Mat.row, Mat.row, cols, List.zipWith_map, List.zipWith_self] at slow
    have total := Gauge.atMost_add l1_nonneg l2_nonneg penalized slow before
    rwa [← sum, values] at total
  refine ⟨inside, fun next_pos solution solutionBound zero tolerance tolerance_pos => ?_⟩
  let penalty : Penalty ℝ := ⟨solution.shape, l1, l2, next⟩
  have inactive : ¬ Optimality.activeCutoff solution tolerance < solution.rowNorm group := by
    rw [Mat.rowNorm_eq_zero.2 zero]
    exact (Optimality.activeCutoff_pos tolerance_pos).not_gt
  have weighted : ¬ (penalty.l1At group = 0 ∧ penalty.l2At group = 0) := penalized
  have passed : Optimality.groupStatus penalty moved solution tolerance group = .satisfied := by
    rw [Optimality.groupStatus_inactive weighted inactive, Gauge.gauge_neg]
    have radius := Gauge.toScalar_le l1_nonneg l2_nonneg penalized inside
    exact radius.trans_lt (lt_mul_of_one_lt_right next_pos (by linarith))
  have reported : (Optimality.check moved solution penalty.l1 penalty.l2 penalty.lagrange
      tolerance)[group]? = _ := Optimality.getElem?_check solutionBound
  exact reported.trans (congrArg some passed)

theorem discarded_stays_boundary :
    let gradient : Mat ℝ := .ofFn 1 2 fun _ col => if col = 0 then 1 else -1 / 2
    let moved : Mat ℝ := .ofFn 1 2 fun _ col => if col = 0 then 3 / 2 else -1 / 2
    (strongSet #[1] #[0] 2 (3 / 2) gradient 1).contains 0 = false ∧
      (Gauge.gauge (List.zipWith (· - ·) (moved.row 0) (gradient.row 0)) 1 0).AtMost
        (1 * (2 - 3 / 2)) ∧
      (Gauge.gauge (moved.row 0) 1 0).AtMost (3 / 2) ∧
      (Optimality.check moved (Mat.zero 1 2) #[1] #[0] (3 / 2) (1 / 100))[0]? = some .satisfied := by
  intro gradient moved
  have penalized : ¬ ((#[1] : Array ℝ).getD 0 0 = 0 ∧ (#[0] : Array ℝ).getD 0 0 = 0) :=
    fun both => one_ne_zero both.1
  have largest : ∀ {vector : List ℝ} {bound : ℝ}, 0 ≤ bound → (∀ entry ∈ vector, |entry| ≤ bound) →
      (Gauge.gauge vector 1 0).AtMost bound := by
    intro vector bound nonneg bounded
    rw [Gauge.atMost_iff zero_le_one le_rfl penalized, mul_one, mul_zero]
    exact ⟨nonneg, (Gauge.softNorm_eq_zero.2 bounded).le⟩
  have row : gradient.row 0 = [1, -1 / 2] := Mat.row_ofFn _ one_pos
  have movedRow : moved.row 0 = [3 / 2, -1 / 2] := Mat.row_ofFn _ one_pos
  have discarded : (strongSet #[1] #[0] 2 (3 / 2) gradient 1).contains 0 = false := by
    refine (discarded_iff one_pos).2 ?_
    have radius : threshold 2 (3 / 2) (1 : ℝ) = 1 := by norm_num [threshold]
    rw [row, radius]
    exact largest zero_le_one (by norm_num [abs_div])
  have slow : (Gauge.gauge (List.zipWith (· - ·) (moved.row 0) (gradient.row 0)) 1 0).AtMost
      (1 * (2 - 3 / 2)) := by
    rw [row, movedRow]
    exact largest (by norm_num) (by norm_num)
  have shape : moved.shape = gradient.shape := rfl
  have bound : 0 < gradient.rows := one_pos
  have safe := discarded_stays zero_le_one le_rfl penalized shape bound discarded slow
  exact ⟨discarded, slow, safe.1, safe.2 (by norm_num) (Mat.zero 1 2) one_pos
    (fun col _ => Mat.get_zero _ _ _ _) (1 / 100) (by norm_num)⟩

end Screening

end GroupLasso
