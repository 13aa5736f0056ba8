import GroupLasso.Proofs.Residual
import GroupLasso.Proofs.StrongRule

/-!
The screening rule on a problem with a solution in closed form. For the squared loss of the coefficients
themselves the solution is the proximal map of the response, and the gradient at it is what the map took
from the response. A row that is nonzero at the next Lagrange value has a gradient outside the dual ball
there already at the current one, so that the rule never loses it.
-/

namespace GroupLasso

open Scalar

namespace Penalty

/-- The minimizer of `½ ‖z - response‖²` plus the penalty. -/
def closedForm {α : Type} [Scalar α] (penalty : Penalty α) (response : Mat α) : Mat α :=
  penalty.proximal response 1

def closedGradient {α : Type} [Scalar α] (penalty : Penalty α) (response : Mat α) : Mat α :=
  .ofFn response.rows response.cols fun group col =>
    (penalty.closedForm response).get group col - response.get group col

section
variable {penalty : Penalty ℝ} {response : Mat ℝ} {group : Nat}

theorem row_closedGradient (fits : response.shape = penalty.shape) (bound : group < penalty.groups) :
    (penalty.closedGradient response).row group =
      ((List.range response.cols).map (taken response.cols (penalty.lagrange * penalty.l1At group)
        (penalty.lagrange * penalty.l2At group) (response.get group))).map (- ·) := by
  have cols : response.cols = penalty.shape.cols := Mat.cols_eq fits
  rw [closedGradient, Mat.row_ofFn _ (Mat.rows_eq fits ▸ bound), List.map_map]
  refine List.map_congr_left fun col member => ?_
  rw [closedForm, get_proximal_eq_shrunk bound response 1 col (cols ▸ List.mem_range.1 member), ← cols,
    one_mul, Function.comp_apply, taken, neg_sub]

variable {radius : ℝ} (valid : penalty.Valid) (fits : response.shape = penalty.shape)
  (bound : group < penalty.groups) (penalized : penalty.isUnpenalized group = false)
  (isGauge : Gauge.IsGauge (response.row group) (penalty.l1At group) (penalty.l2At group) radius)

include valid fits bound isGauge

theorem active_iff :
    (∃ col < response.cols, (penalty.closedForm response).get group col ≠ 0) ↔
      penalty.lagrange < radius := by
  have cols : response.cols = penalty.shape.cols := Mat.cols_eq fits
  rw [← not_le, isGauge.le_iff (valid.l1_nonneg group) (valid.l2_nonneg group) valid.lagrange_nonneg,
    Mat.row, ← shrunk_eq_zero (mul_nonneg valid.lagrange_nonneg (valid.l2_nonneg group))]
  push Not
  refine exists_congr fun col => and_congr_right fun colBound => ?_
  rw [closedForm, get_proximal_eq_shrunk bound response 1 col (cols ▸ colBound), ← cols, one_mul]

include penalized

theorem gauge_closedGradient :
    Gauge.gauge ((penalty.closedGradient response).row group) (penalty.l1At group)
      (penalty.l2At group) = .finite (min radius penalty.lagrange) := by
  have weighted := isUnpenalized_eq_false.1 penalized
  rw [row_closedGradient fits bound, Gauge.gauge_neg]
  obtain ⟨rest, found, restIsGauge⟩ := Gauge.gauge_isGauge
    ((List.range response.cols).map (taken response.cols (penalty.lagrange * penalty.l1At group)
      (penalty.lagrange * penalty.l2At group) (response.get group)))
    (valid.l1_nonneg group) (valid.l2_nonneg group) weighted
  have cut := isGauge_taken (valid.l1_nonneg group) (valid.l2_nonneg group) valid.lagrange_nonneg
    weighted isGauge
  rw [found, restIsGauge.unique cut]

end

end Penalty

namespace Screening

theorem threshold_le {current next slope : ℝ} (decreasing : next ≤ current) (slope_nonneg : 0 ≤ slope) :
    threshold current next slope ≤ next := by
  have drop := mul_nonneg slope_nonneg (sub_nonneg.2 decreasing)
  unfold threshold
  linarith

theorem strongSet?_eq_some {l1 l2 : Array ℝ} {current next slope : ℝ} {gradient : Mat ℝ}
    (sizes : l1.size = gradient.rows ∧ l2.size = gradient.rows)
    (l1_nonneg : ∀ group, 0 ≤ l1.getD group 0) (l2_nonneg : ∀ group, 0 ≤ l2.getD group 0) :
    strongSet? l1 l2 current next gradient slope =
      some (strongSet l1 l2 current next gradient slope) :=
  if_pos fun group bound => ⟨sizes.1.symm ▸ bound, sizes.2.symm ▸ bound,
    Gauge.isOrdered _ (l1_nonneg group) (l2_nonneg group)⟩

section
variable {penalty : Penalty ℝ} {response : Mat ℝ} {next slope : ℝ} {group : Nat}

theorem contains_of_active (valid : penalty.Valid) (fits : response.shape = penalty.shape)
    (next_pos : 0 < next) (decreasing : next < penalty.lagrange) (slope_nonneg : 0 ≤ slope)
    (bound : group < penalty.groups) (penalized : penalty.isUnpenalized group = false)
    (active : ∃ col < response.cols,
      ((penalty.withLagrange next).closedForm response).get group col ≠ 0) :
    (strongSet penalty.l1 penalty.l2 penalty.lagrange next (penalty.closedGradient response)
      slope).contains group = true := by
  have rowBound : group < (penalty.closedGradient response).rows :=
    (Mat.rows_eq fits).symm ▸ bound
  obtain ⟨radius, -, isGauge⟩ := Gauge.gauge_isGauge (response.row group) (valid.l1_nonneg group)
    (valid.l2_nonneg group) (Penalty.isUnpenalized_eq_false.1 penalized)
  have validNext : (penalty.withLagrange next).Valid := { valid with lagrange_nonneg := next_pos.le }
  have beyond : next < radius := (Penalty.active_iff validNext fits bound isGauge).1 active
  have cut : Gauge.gauge ((penalty.closedGradient response).row group) (penalty.l1.getD group 0)
      (penalty.l2.getD group 0) = _ :=
    Penalty.gauge_closedGradient valid fits bound penalized isGauge
  by_contra missed
  rw [Bool.not_eq_true, discarded_iff rowBound, cut] at missed
  have inside : min radius penalty.lagrange ≤ next :=
    le_trans missed (threshold_le decreasing.le slope_nonneg)
  exact (lt_min beyond decreasing).not_ge inside

end

variable {response : Mat ℝ} {l1 l2 : Array ℝ} {current next slope : ℝ} {penalty : Penalty ℝ}

/-- On a problem with a solution in closed form the rule answers at every nonnegative slope, and selects
every penalized group that is nonzero at the next Lagrange value. -/
theorem active_selected (accepted : Penalty.ofWeights response.shape l1 l2 current = .ok penalty)
    (next_pos : 0 < next) (decreasing : next < current) (slope_nonneg : 0 ≤ slope) :
    ∃ selected, strongSet? l1 l2 current next (penalty.closedGradient response) slope = some selected ∧
      (∀ group < response.rows,
        (∃ col < response.cols, ((penalty.withLagrange next).closedForm response).get group col ≠ 0) →
          selected.contains group = true ∨ penalty.isUnpenalized group = true) ∧
      selected.mask.length = response.rows ∧
      (∀ group, group ∈ selected.indices ↔ selected.mask.contains group = true) ∧
      selected.indices.Pairwise (· < ·) := by
  obtain ⟨rfl, valid⟩ := Penalty.ofWeights_eq_ok.1 accepted
  have sizes : l1.size = response.rows ∧ l2.size = response.rows := ⟨valid.l1_size, valid.l2_size⟩
  refine ⟨_, strongSet?_eq_some sizes valid.l1_nonneg valid.l2_nonneg, ?_, ?_,
    fun group => Mask.mem_toIndices, Mask.sorted_toIndices _⟩
  · intro group bound active
    rw [or_iff_not_imp_right, Bool.not_eq_true]
    exact fun penalized =>
      contains_of_active valid rfl next_pos decreasing slope_nonneg bound penalized active
  · rw [strongSet, List.length_map, List.length_range]
    rfl

theorem active_selected_pair :
    let response : Mat ℝ := .ofFn 2 1 fun group _ => if group = 0 then 3 else 1
    let penalty : Penalty ℝ := ⟨⟨2, 1⟩, #[1, 0], #[0, 0], 2⟩
    Penalty.ofWeights ⟨2, 1⟩ #[1, 0] #[0, 0] 2 = .ok penalty ∧
      (∃ col < 1, ((penalty.withLagrange (3 / 2)).closedForm response).get 0 col ≠ 0) ∧
      ∃ selected,
        strongSet? #[1, 0] #[0, 0] 2 (3 / 2) (penalty.closedGradient response) 1 = some selected ∧
          selected.contains 0 = true ∧ 0 ∈ selected.indices := by
  intro response penalty
  have valid : penalty.Valid := Penalty.valid_iff.2 (by simp [penalty, Penalty.groups])
  have accepted : Penalty.ofWeights ⟨2, 1⟩ #[1, 0] #[0, 0] 2 = .ok penalty :=
    Penalty.ofWeights_eq_ok.2 ⟨rfl, valid⟩
  have penalized : penalty.isUnpenalized 0 = false :=
    Penalty.isUnpenalized_eq_false.2 (by simp [penalty, Penalty.l1At])
  have row : response.row 0 = [3] := Mat.row_ofFn _ two_pos
  have isGauge : Gauge.IsGauge (response.row 0) 1 0 (3 / 1) := by
    rw [row]
    exact Gauge.isGauge_l1 one_pos (by simp) (by simp)
  have validNext : (penalty.withLagrange (3 / 2)).Valid :=
    { valid with lagrange_nonneg := by norm_num [Penalty.withLagrange] }
  have above : (penalty.withLagrange (3 / 2)).lagrange < 3 / 1 := by norm_num [Penalty.withLagrange]
  have active : ∃ col < 1, ((penalty.withLagrange (3 / 2)).closedForm response).get 0 col ≠ 0 :=
    (Penalty.active_iff validNext (rfl : response.shape = ⟨2, 1⟩) two_pos isGauge).2 above
  have fits : Penalty.ofWeights response.shape #[1, 0] #[0, 0] 2 = .ok penalty := accepted
  have next_pos : (0 : ℝ) < 3 / 2 := by norm_num
  obtain ⟨selected, answered, kept, -, described, -⟩ :=
    active_selected fits next_pos (by norm_num) zero_le_one
  have present : selected.contains 0 = true :=
    (kept 0 two_pos active).resolve_right (by rw [penalized]; exact Bool.false_ne_true)
  exact ⟨accepted, active, selected, answered, present, (described 0).2 present⟩

end Screening

end GroupLasso
