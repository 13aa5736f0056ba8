import GroupLasso.Gauge
import GroupLasso.Proofs.Real

/-!
The dual gauge is what its definition says: the least multiple of the dual ball that holds a vector.
The search over the sorted magnitudes always finds its pair of breakpoints, the root that it computes
lies between them, and clipping at the root leaves a part of exactly the norm of the ball.
-/

namespace GroupLasso

open Scalar

namespace Gauge

/-- The norm of what soft thresholding leaves of a vector. -/
def softNorm {α : Type} [Scalar α] (vector : List α) (amount : α) : α :=
  norm (vector.map fun entry => softThreshold entry amount)

/-- The least radius at which thresholding by `radius · l1` leaves no more than `radius · l2`; there
the two sides are equal. -/
structure IsGauge (vector : List ℝ) (l1 l2 radius : ℝ) : Prop where
  nonneg : 0 ≤ radius
  onSphere : softNorm vector (radius * l1) = radius * l2
  least : ∀ other, 0 ≤ other → softNorm vector (other * l1) ≤ other * l2 → radius ≤ other

theorem softNorm_nonneg (vector : List ℝ) (amount : ℝ) : 0 ≤ softNorm vector amount :=
  norm_nonneg_real _

theorem softNorm_eq_zero {vector : List ℝ} {amount : ℝ} :
    softNorm vector amount = 0 ↔ ∀ entry ∈ vector, |entry| ≤ amount := by
  simp [softNorm, norm_eq_zero_real, softThreshold_eq_zero]

theorem softNorm_zero (vector : List ℝ) : softNorm vector 0 = norm vector := by
  have unchanged : ∀ entry : ℝ, softThreshold entry 0 = entry := by
    intro entry
    unfold softThreshold
    split_ifs <;> linarith
  simp [softNorm, unchanged]

theorem softNorm_antitone {vector : List ℝ} {less more : ℝ} (nonneg : 0 ≤ less)
    (ordered : less ≤ more) : softNorm vector more ≤ softNorm vector less := by
  unfold softNorm
  rw [norm_real, norm_real, List.map_map, List.map_map]
  apply Real.sqrt_le_sqrt
  apply List.sum_le_sum
  intro entry _
  exact abs_le_iff_mul_self_le.1 (abs_softThreshold_antitone nonneg ordered)

section
variable {vector : List ℝ} {l1 l2 radius : ℝ}

theorem IsGauge.le_iff (isGauge : IsGauge vector l1 l2 radius) (l1_nonneg : 0 ≤ l1)
    (l2_nonneg : 0 ≤ l2) {other : ℝ} (other_nonneg : 0 ≤ other) :
    radius ≤ other ↔ softNorm vector (other * l1) ≤ other * l2 := by
  constructor
  · intro ordered
    calc softNorm vector (other * l1)
        ≤ softNorm vector (radius * l1) :=
          softNorm_antitone (mul_nonneg isGauge.nonneg l1_nonneg)
            (mul_le_mul_of_nonneg_right ordered l1_nonneg)
      _ = radius * l2 := isGauge.onSphere
      _ ≤ other * l2 := mul_le_mul_of_nonneg_right ordered l2_nonneg
  · exact isGauge.least other other_nonneg

theorem IsGauge.unique {other : ℝ} (isGauge : IsGauge vector l1 l2 radius)
    (otherIsGauge : IsGauge vector l1 l2 other) : radius = other :=
  le_antisymm (isGauge.least other otherIsGauge.nonneg otherIsGauge.onSphere.le)
    (otherIsGauge.least radius isGauge.nonneg isGauge.onSphere.le)

theorem IsGauge.of_onSphere (l1_nonneg : 0 ≤ l1) (l2_pos : 0 < l2) (nonneg : 0 ≤ radius)
    (onSphere : softNorm vector (radius * l1) = radius * l2) : IsGauge vector l1 l2 radius := by
  refine ⟨nonneg, onSphere, ?_⟩
  intro other other_nonneg inside
  by_contra smaller
  have ordered : other < radius := not_le.1 smaller
  have shrinks : softNorm vector (radius * l1) ≤ softNorm vector (other * l1) :=
    softNorm_antitone (mul_nonneg other_nonneg l1_nonneg)
      (mul_le_mul_of_nonneg_right ordered.le l1_nonneg)
  have : other * l2 < radius * l2 := mul_lt_mul_of_pos_right ordered l2_pos
  linarith

theorem isGauge_zero (zero : ∀ entry ∈ vector, entry = 0) : IsGauge vector l1 l2 0 := by
  refine ⟨le_rfl, ?_, fun other other_nonneg _ => other_nonneg⟩
  rw [zero_mul, zero_mul, softNorm_eq_zero]
  intro entry member
  rw [zero entry member, abs_zero]

theorem isGauge_l2 (l2_pos : 0 < l2) : IsGauge vector 0 l2 (norm vector / l2) := by
  apply IsGauge.of_onSphere le_rfl l2_pos (div_nonneg (norm_nonneg_real vector) l2_pos.le)
  rw [mul_zero, softNorm_zero, div_mul_cancel₀ _ l2_pos.ne']

theorem isGauge_l1 {largest : ℝ} (l1_pos : 0 < l1) (bound : ∀ entry ∈ vector, |entry| ≤ largest)
    (attained : ∃ entry ∈ vector, |entry| = largest) : IsGauge vector l1 0 (largest / l1) := by
  obtain ⟨witness, member, equal⟩ := attained
  refine ⟨div_nonneg (equal ▸ abs_nonneg witness) l1_pos.le, ?_, ?_⟩
  · rw [div_mul_cancel₀ _ l1_pos.ne', mul_zero, softNorm_eq_zero]
    exact bound
  · intro other _ inside
    have zero : softNorm vector (other * l1) = 0 :=
      le_antisymm (by simpa using inside) (softNorm_nonneg _ _)
    rw [div_le_iff₀ l1_pos, ← equal]
    exact softNorm_eq_zero.1 zero witness member

end

def excess (magnitudes : List ℝ) (threshold : ℝ) : ℝ :=
  (magnitudes.map fun magnitude => max (magnitude - threshold) 0 ^ 2).sum

theorem softNorm_eq_excess {vector : List ℝ} {amount : ℝ} (nonneg : 0 ≤ amount) :
    softNorm vector amount = √(excess (vector.map Scalar.abs) amount) := by
  unfold softNorm excess
  rw [norm_real, List.map_map, List.map_map]
  congr 2
  apply List.map_congr_left
  intro entry _
  simp only [Function.comp_apply, abs_real]
  rw [← abs_softThreshold nonneg, sq_abs, sq]

theorem discriminant_pos {count sum squares l1 l2 upper : ℝ} (squares_pos : 0 < squares)
    (above : squares - 2 * (upper * l1) * sum + count * (upper * l1) ^ 2 < (upper * l2) ^ 2) :
    0 < l2 * l2 * squares - l1 * l1 * (count * squares - sum * sum) := by
  have scaled := mul_lt_mul_of_pos_left above squares_pos
  have square := sq_nonneg (squares - l1 * sum * upper)
  have product : 0 < (l2 * l2 * squares - l1 * l1 * (count * squares - sum * sum)) * upper ^ 2 := by
    nlinarith
  exact pos_of_mul_pos_left product (sq_nonneg upper)

theorem root_between {count sum squares l1 l2 lower upper : ℝ} (sum_pos : 0 < sum)
    (squares_pos : 0 < squares) (l1_pos : 0 < l1) (lower_nonneg : 0 ≤ lower)
    (ordered : lower ≤ upper)
    (below : (lower * l2) ^ 2 ≤ squares - 2 * (lower * l1) * sum + count * (lower * l1) ^ 2)
    (above : squares - 2 * (upper * l1) * sum + count * (upper * l1) ^ 2 < (upper * l2) ^ 2) :
    let discriminant := l2 * l2 * squares - l1 * l1 * (count * squares - sum * sum)
    let root := squares / (l1 * sum + √discriminant)
    0 < root ∧ lower ≤ root ∧ root < upper ∧
      squares - 2 * (root * l1) * sum + count * (root * l1) ^ 2 = (root * l2) ^ 2 := by
  intro discriminant root
  have discriminant_pos : 0 < discriminant := discriminant_pos squares_pos above
  have side_pos : 0 < √discriminant := Real.sqrt_pos.2 discriminant_pos
  have side_sq : √discriminant * √discriminant =
      l2 * l2 * squares - l1 * l1 * (count * squares - sum * sum) :=
    Real.mul_self_sqrt discriminant_pos.le
  have slope_pos : 0 < l1 * sum := mul_pos l1_pos sum_pos
  have divisor_pos : 0 < l1 * sum + √discriminant := by linarith
  have upper_nonneg : 0 ≤ upper := lower_nonneg.trans ordered
  -- Times `squares`, the equation at `t` compares `(squares - l1 * sum * t)²` with `discriminant * t²`.
  have aboveSq : (squares - l1 * sum * upper) ^ 2 < (√discriminant * upper) ^ 2 := by
    have scaled := mul_lt_mul_of_pos_left above squares_pos
    rw [mul_pow, sq (√discriminant), side_sq]
    nlinarith
  have belowSq : (√discriminant * lower) ^ 2 ≤ (squares - l1 * sum * lower) ^ 2 := by
    have scaled := mul_le_mul_of_nonneg_left below squares_pos.le
    rw [mul_pow, sq (√discriminant), side_sq]
    nlinarith
  have aboveAbs := abs_lt_of_sq_lt_sq' aboveSq (mul_nonneg side_pos.le upper_nonneg)
  refine ⟨div_pos squares_pos divisor_pos, ?_, ?_, ?_⟩
  · rw [le_div_iff₀ divisor_pos]
    have belowAbs : √discriminant * lower ≤ |squares - l1 * sum * lower| := by
      rw [← abs_of_nonneg (mul_nonneg side_pos.le lower_nonneg)]
      exact sq_le_sq.1 belowSq
    rcases le_abs.1 belowAbs with low | high
    · linarith
    · have slope : 0 < l1 * sum - √discriminant := by
        by_contra flat
        have : (l1 * sum - √discriminant) * lower ≤ 0 :=
          mul_nonpos_of_nonpos_of_nonneg (not_lt.1 flat) lower_nonneg
        linarith
      have : (l1 * sum - √discriminant) * lower ≤ (l1 * sum - √discriminant) * upper :=
        mul_le_mul_of_nonneg_left ordered slope.le
      linarith
  · rw [div_lt_iff₀ divisor_pos]
    linarith
  · have cleared : root * (l1 * sum + √discriminant) = squares := div_mul_cancel₀ _ divisor_pos.ne'
    have side : squares - l1 * sum * root = √discriminant * root := by linarith
    have sides : (squares - l1 * sum * root) ^ 2 = √discriminant * √discriminant * root ^ 2 := by
      rw [side]; ring
    rw [side_sq] at sides
    apply mul_left_cancel₀ squares_pos.ne'
    linear_combination sides

/-! The search over the magnitudes. -/

def Passed.of {α : Type} [Scalar α] (magnitudes : List α) : Passed α :=
  magnitudes.foldl Passed.add ⟨0, 0, 0⟩

def deviation (magnitudes : List ℝ) (threshold : ℝ) : ℝ :=
  (magnitudes.map fun magnitude => (magnitude - threshold) ^ 2).sum

theorem deviation_nonneg (magnitudes : List ℝ) (threshold : ℝ) :
    0 ≤ deviation magnitudes threshold := by
  apply List.sum_nonneg
  simp only [List.mem_map]
  rintro _ ⟨magnitude, _, rfl⟩
  exact sq_nonneg _

theorem deviation_append (magnitudes : List ℝ) (magnitude threshold : ℝ) :
    deviation (magnitudes ++ [magnitude]) threshold =
      deviation magnitudes threshold + (magnitude - threshold) ^ 2 := by
  simp [deviation]

theorem Passed.of_append (magnitudes : List ℝ) (magnitude : ℝ) :
    Passed.of (magnitudes ++ [magnitude]) = (Passed.of magnitudes).add magnitude := by
  simp [Passed.of]

theorem Passed.deviation_eq (magnitudes : List ℝ) (threshold : ℝ) :
    deviation magnitudes threshold = (Passed.of magnitudes).squares -
      2 * threshold * (Passed.of magnitudes).sum + (Passed.of magnitudes).count * threshold ^ 2 := by
  induction magnitudes using List.reverseRecOn with
  | nil => simp [deviation, Passed.of]
  | append_singleton magnitudes magnitude ih =>
      rw [deviation_append, ih, Passed.of_append]
      simp only [Passed.add]
      push_cast
      ring

theorem Passed.sum_pos {magnitudes : List ℝ} {magnitude : ℝ} (positive : 0 < magnitude)
    (nonneg : ∀ other ∈ magnitudes, 0 ≤ other) : 0 < (Passed.of (magnitudes ++ [magnitude])).sum := by
  have earlier : 0 ≤ (Passed.of magnitudes).sum := by
    induction magnitudes using List.reverseRecOn with
    | nil => simp [Passed.of]
    | append_singleton magnitudes last ih =>
        rw [Passed.of_append]
        exact add_nonneg (ih fun other member => nonneg other (by simp [member]))
          (nonneg last (by simp))
  rw [Passed.of_append]
  exact add_pos_of_nonneg_of_pos earlier positive

theorem Passed.squares_pos {magnitudes : List ℝ} {magnitude : ℝ} (positive : 0 < magnitude) :
    0 < (Passed.of (magnitudes ++ [magnitude])).squares := by
  have earlier : (Passed.of magnitudes).squares = deviation magnitudes 0 := by
    rw [Passed.deviation_eq]; ring
  rw [Passed.of_append]
  simp only [Passed.add]
  rw [earlier]
  exact add_pos_of_nonneg_of_pos (deviation_nonneg _ _) (mul_pos positive positive)

/-- The pair of breakpoints around the root, at which the equation of the gauge holds. -/
structure Crossing.Exact (found : Crossing ℝ) (l1 l2 : ℝ) (magnitudes : List ℝ) : Prop where
  lower_le : found.lower ≤ found.root
  le_upper : found.root ≤ found.upper
  root_pos : 0 < found.root
  balanced : excess magnitudes (found.root * l1) = (found.root * l2) ^ 2

theorem excess_append (before after : List ℝ) (threshold : ℝ) :
    excess (before ++ after) threshold = excess before threshold + excess after threshold := by
  simp [excess]

theorem excess_of_le {magnitudes : List ℝ} {threshold : ℝ}
    (bound : ∀ magnitude ∈ magnitudes, magnitude ≤ threshold) : excess magnitudes threshold = 0 := by
  apply List.sum_eq_zero
  simp only [List.mem_map]
  rintro _ ⟨magnitude, member, rfl⟩
  rw [max_eq_right (sub_nonpos.2 (bound magnitude member))]
  ring

theorem excess_of_ge {magnitudes : List ℝ} {threshold : ℝ}
    (bound : ∀ magnitude ∈ magnitudes, threshold ≤ magnitude) :
    excess magnitudes threshold = deviation magnitudes threshold := by
  unfold excess deviation
  congr 1
  apply List.map_congr_left
  intro magnitude member
  rw [max_eq_left (sub_nonneg.2 (bound magnitude member))]

noncomputable def bracket (l1 l2 : ℝ) (before : List ℝ) (magnitude next : ℝ) : Crossing ℝ :=
  let passed := Passed.of (before ++ [magnitude])
  let discriminant := l2 * l2 * passed.squares -
    l1 * l1 * (passed.count * passed.squares - passed.sum * passed.sum)
  ⟨next / l1, passed.squares / (l1 * passed.sum + √discriminant), magnitude / l1⟩

theorem crossing?_cons (l1 l2 : ℝ) (before after : List ℝ) (magnitude : ℝ) :
    crossing? l1 l2 (Passed.of before) (magnitude :: after) =
      if (after.headD 0 / l1 * l2) ^ 2 ≤ deviation (before ++ [magnitude]) (after.headD 0) then
        some (bracket l1 l2 before magnitude (after.headD 0))
      else crossing? l1 l2 (Passed.of (before ++ [magnitude])) after := by
  have clipped : ∀ value : ℝ, √(max value 0) = √value := by
    intro value
    rcases le_total value 0 with negative | positive
    · rw [max_eq_right negative, Real.sqrt_zero, Real.sqrt_eq_zero_of_nonpos negative]
    · rw [max_eq_left positive]
  have count : ∀ n : Nat, (Scalar.ofNat n : ℝ) = n := fun _ => rfl
  unfold bracket
  rw [crossing?, Passed.deviation_eq, Passed.of_append]
  simp only [larger_real, sqrt_real, clipped, count, ofNat_scalar_real, Nat.reduceAdd, sq, mul_assoc]

section
variable {l1 l2 : ℝ} (l1_pos : 0 < l1)
include l1_pos

theorem bracket_between {before : List ℝ} {magnitude next : ℝ} (next_nonneg : 0 ≤ next)
    (ordered : next ≤ magnitude) (magnitude_pos : 0 < magnitude)
    (before_ge : ∀ other ∈ before, magnitude ≤ other)
    (above : deviation (before ++ [magnitude]) magnitude < (magnitude / l1 * l2) ^ 2)
    (below : (next / l1 * l2) ^ 2 ≤ deviation (before ++ [magnitude]) next) :
    let root := (bracket l1 l2 before magnitude next).root
    0 < root ∧ next / l1 ≤ root ∧ root < magnitude / l1 ∧
      deviation (before ++ [magnitude]) (root * l1) = (root * l2) ^ 2 := by
  have magnitude_eq : magnitude / l1 * l1 = magnitude := div_mul_cancel₀ _ l1_pos.ne'
  have next_eq : next / l1 * l1 = next := div_mul_cancel₀ _ l1_pos.ne'
  have before_nonneg : ∀ other ∈ before, 0 ≤ other := fun other member =>
    magnitude_pos.le.trans (before_ge other member)
  intro root
  rw [Passed.deviation_eq]
  apply root_between (Passed.sum_pos magnitude_pos before_nonneg)
    (Passed.squares_pos magnitude_pos) l1_pos (div_nonneg next_nonneg l1_pos.le)
    (div_le_div_of_nonneg_right ordered l1_pos.le)
  · rw [next_eq, ← Passed.deviation_eq]
    exact below
  · rw [magnitude_eq, ← Passed.deviation_eq]
    exact above

theorem exact_of_bracket {before after : List ℝ} {magnitude next : ℝ} (next_nonneg : 0 ≤ next)
    (ordered : next ≤ magnitude) (magnitude_pos : 0 < magnitude)
    (before_ge : ∀ other ∈ before, magnitude ≤ other) (after_le : ∀ other ∈ after, other ≤ next)
    (above : deviation (before ++ [magnitude]) magnitude < (magnitude / l1 * l2) ^ 2)
    (below : (next / l1 * l2) ^ 2 ≤ deviation (before ++ [magnitude]) next) :
    (bracket l1 l2 before magnitude next).Exact l1 l2 (before ++ magnitude :: after) := by
  obtain ⟨root_pos, lower_le, lt_upper, equation⟩ :=
    bracket_between l1_pos next_nonneg ordered magnitude_pos before_ge above below
  refine ⟨lower_le, lt_upper.le, root_pos, ?_⟩
  generalize (bracket l1 l2 before magnitude next).root = root at *
  have threshold_le : root * l1 ≤ magnitude := by
    rw [← le_div_iff₀ l1_pos]; exact lt_upper.le
  have le_threshold : next ≤ root * l1 := by
    rw [← div_le_iff₀ l1_pos]; exact lower_le
  have counted : ∀ other ∈ before ++ [magnitude], root * l1 ≤ other := by
    simp only [List.mem_append, List.mem_singleton]
    rintro other (member | rfl)
    · exact threshold_le.trans (before_ge other member)
    · exact threshold_le
  have left : ∀ other ∈ after, other ≤ root * l1 := fun other member =>
    (after_le other member).trans le_threshold
  calc excess (before ++ magnitude :: after) (root * l1)
      = excess (before ++ [magnitude]) (root * l1) + excess after (root * l1) := by
        rw [← excess_append, List.append_assoc, List.singleton_append]
    _ = deviation (before ++ [magnitude]) (root * l1) := by
        rw [excess_of_ge counted, excess_of_le left, add_zero]
    _ = (root * l2) ^ 2 := equation

omit l1_pos in
theorem search_state {before after : List ℝ} {magnitude : ℝ}
    (sorted : (before ++ magnitude :: after).Pairwise (· ≥ ·))
    (nonneg : ∀ other ∈ before ++ magnitude :: after, 0 ≤ other)
    (undecided : deviation before magnitude < (magnitude / l1 * l2) ^ 2) :
    0 < magnitude ∧ (∀ other ∈ before, magnitude ≤ other) ∧ (∀ other ∈ after, other ≤ magnitude) ∧
      deviation (before ++ [magnitude]) magnitude < (magnitude / l1 * l2) ^ 2 := by
  obtain ⟨-, tail, across⟩ := List.pairwise_append.1 sorted
  refine ⟨?_, fun other member => across other member magnitude (by simp),
    (List.pairwise_cons.1 tail).1, ?_⟩
  · apply lt_of_le_of_ne (nonneg magnitude (by simp))
    rintro rfl
    have := deviation_nonneg before 0
    simp only [zero_div, zero_mul, sq] at undecided
    linarith
  · rw [deviation_append, sub_self, sq, mul_zero, add_zero]
    exact undecided

theorem crossing?_exact (l2 : ℝ) (after : List ℝ) : ∀ (before : List ℝ) (magnitude : ℝ),
    (before ++ magnitude :: after).Pairwise (· ≥ ·) →
    (∀ other ∈ before ++ magnitude :: after, 0 ≤ other) →
    deviation before magnitude < (magnitude / l1 * l2) ^ 2 →
    ∃ found, crossing? l1 l2 (Passed.of before) (magnitude :: after) = some found ∧
      found.Exact l1 l2 (before ++ magnitude :: after) := by
  induction after with
  | nil =>
      intro before magnitude sorted nonneg above
      obtain ⟨magnitude_pos, before_ge, -, above⟩ := search_state sorted nonneg above
      have below : (0 / l1 * l2) ^ 2 ≤ deviation (before ++ [magnitude]) 0 := by
        rw [zero_div, zero_mul, sq, mul_zero]
        exact deviation_nonneg _ _
      rw [crossing?_cons, List.headD_nil, if_pos below]
      exact ⟨_, rfl, exact_of_bracket l1_pos le_rfl magnitude_pos.le magnitude_pos before_ge
        (by simp) above below⟩
  | cons next after ih =>
      intro before magnitude sorted nonneg undecided
      rw [crossing?_cons, List.headD_cons]
      split
      · rename_i below
        obtain ⟨magnitude_pos, before_ge, after_le, above⟩ := search_state sorted nonneg undecided
        have rest_le : ∀ other ∈ after, other ≤ next :=
          (List.pairwise_cons.1 (List.pairwise_cons.1 (List.pairwise_append.1 sorted).2.1).2).1
        refine ⟨_, rfl, exact_of_bracket l1_pos (nonneg next (by simp)) (after_le next (by simp))
          magnitude_pos before_ge ?_ above below⟩
        simp only [List.mem_cons]
        rintro other (rfl | member)
        · exact le_rfl
        · exact rest_le other member
      · rename_i undecided
        have moved : before ++ magnitude :: next :: after =
          (before ++ [magnitude]) ++ next :: after := by simp
        rw [moved] at sorted nonneg ⊢
        exact ih _ _ sorted nonneg (not_le.1 undecided)

end

theorem magnitudes_perm (vector : List ℝ) :
    (magnitudes vector).Perm (vector.map Scalar.abs) := List.mergeSort_perm _ _

theorem magnitudes_sorted (vector : List ℝ) : (magnitudes vector).Pairwise (· ≥ ·) := by
  have order : ∀ left right : ℝ, ordersBefore left right = true ↔ right ≤ left := by
    simp [ordersBefore]
  have sorted : (magnitudes vector).Pairwise fun left right => ordersBefore left right = true := by
    apply List.pairwise_mergeSort
    · intro first second third before after
      rw [order] at *
      exact after.trans before
    · intro left right
      simp only [Bool.or_eq_true, order]
      exact le_total right left
  exact sorted.imp fun ordered => (order _ _).1 ordered

theorem magnitudes_nonneg (vector : List ℝ) : ∀ magnitude ∈ magnitudes vector, 0 ≤ magnitude := by
  intro magnitude member
  obtain ⟨entry, -, rfl⟩ := List.mem_map.1 ((magnitudes_perm vector).mem_iff.1 member)
  exact abs_nonneg entry

theorem abs_le_largest {vector : List ℝ} {entry : ℝ} (member : entry ∈ vector) :
    |entry| ≤ (magnitudes vector).headD 0 := by
  have listed : Scalar.abs entry ∈ magnitudes vector :=
    (magnitudes_perm vector).mem_iff.2 (List.mem_map_of_mem member)
  rw [abs_real] at listed
  have sorted := magnitudes_sorted vector
  cases search : magnitudes vector with
  | nil => simp [search] at listed
  | cons largest rest =>
      rw [search] at listed sorted
      rcases List.mem_cons.1 listed with first | later
      · exact first.le
      · exact (List.pairwise_cons.1 sorted).1 _ later

theorem largest_attained {vector : List ℝ} (nonzero : (magnitudes vector).headD 0 ≠ 0) :
    ∃ entry ∈ vector, |entry| = (magnitudes vector).headD 0 := by
  cases search : magnitudes vector with
  | nil => simp [search] at nonzero
  | cons largest rest =>
      have listed : largest ∈ magnitudes vector := by simp [search]
      obtain ⟨entry, member, equal⟩ := List.mem_map.1 ((magnitudes_perm vector).mem_iff.1 listed)
      exact ⟨entry, member, equal⟩

theorem softNorm_eq_excess_magnitudes {vector : List ℝ} {amount : ℝ} (nonneg : 0 ≤ amount) :
    softNorm vector amount = √(excess (magnitudes vector) amount) := by
  rw [softNorm_eq_excess nonneg]
  congr 1
  exact (((magnitudes_perm vector).map _).sum_eq).symm

theorem crossing_isGauge {vector : List ℝ} {l1 l2 : ℝ} (l1_pos : 0 < l1) (l2_pos : 0 < l2)
    (nonzero : (magnitudes vector).headD 0 ≠ 0) :
    ∃ found, crossing vector l1 l2 = some found ∧ found.Exact l1 l2 (magnitudes vector) ∧
      IsGauge vector l1 l2 found.root := by
  have sorted := magnitudes_sorted vector
  have nonneg := magnitudes_nonneg vector
  have equation : ∀ amount, 0 ≤ amount → softNorm vector amount = √(excess (magnitudes vector) amount) :=
    fun _ => softNorm_eq_excess_magnitudes
  unfold crossing
  cases search : magnitudes vector with
  | nil => simp [search] at nonzero
  | cons largest rest =>
      rw [search] at sorted nonneg nonzero equation
      have undecided : deviation [] largest < (largest / l1 * l2) ^ 2 := by
        have : largest / l1 * l2 ≠ 0 :=
          mul_ne_zero (div_ne_zero nonzero l1_pos.ne') l2_pos.ne'
        simpa only [deviation, List.map_nil, List.sum_nil] using sq_pos_of_ne_zero this
      obtain ⟨found, searched, exact⟩ :=
        crossing?_exact l1_pos l2 rest [] largest sorted nonneg undecided
      rw [List.nil_append] at exact
      refine ⟨found, searched, exact, ?_⟩
      apply IsGauge.of_onSphere l1_pos.le l2_pos exact.root_pos.le
      rw [equation _ (mul_nonneg exact.root_pos.le l1_pos.le), exact.balanced,
        Real.sqrt_sq (mul_nonneg exact.root_pos.le l2_pos.le)]

theorem gauge_isGauge (vector : List ℝ) {l1 l2 : ℝ} (l1_nonneg : 0 ≤ l1) (l2_nonneg : 0 ≤ l2)
    (penalized : ¬ (l1 = 0 ∧ l2 = 0)) :
    ∃ radius, gauge vector l1 l2 = .finite radius ∧ IsGauge vector l1 l2 radius := by
  unfold gauge
  simp only [isZero_real, if_neg penalized]
  split_ifs with vanishes noCube noBall
  · refine ⟨0, rfl, isGauge_zero ?_⟩
    intro entry member
    have := abs_le_largest member
    rw [vanishes] at this
    exact abs_eq_zero.1 (le_antisymm this (abs_nonneg entry))
  · have l2_pos : 0 < l2 := lt_of_le_of_ne l2_nonneg fun zero => penalized ⟨noCube, zero.symm⟩
    exact ⟨_, rfl, noCube ▸ isGauge_l2 l2_pos⟩
  · have l1_pos : 0 < l1 := lt_of_le_of_ne l1_nonneg (Ne.symm noCube)
    exact ⟨_, rfl, noBall ▸ isGauge_l1 l1_pos (fun _ => abs_le_largest) (largest_attained vanishes)⟩
  · have l1_pos : 0 < l1 := lt_of_le_of_ne l1_nonneg (Ne.symm noCube)
    have l2_pos : 0 < l2 := lt_of_le_of_ne l2_nonneg (Ne.symm noBall)
    obtain ⟨found, searched, exact, isGauge⟩ := crossing_isGauge l1_pos l2_pos vanishes
    rw [searched]
    refine ⟨found.root, ?_, isGauge⟩
    simp only [clamp, if_neg exact.lower_le.not_gt, if_neg exact.le_upper.not_gt]

theorem isOrdered (vector : List ℝ) {l1 l2 : ℝ} (l1_nonneg : 0 ≤ l1) (l2_nonneg : 0 ≤ l2) :
    IsOrdered vector l1 l2 := by
  unfold IsOrdered
  simp only [isZero_real]
  by_cases vanishes : (magnitudes vector).headD 0 = 0
  · exact .inl vanishes
  by_cases noCube : l1 = 0
  · exact .inr (.inl noCube)
  by_cases noBall : l2 = 0
  · exact .inr (.inr (.inl noBall))
  obtain ⟨found, searched, exact, -⟩ := crossing_isGauge (lt_of_le_of_ne l1_nonneg (Ne.symm noCube))
    (lt_of_le_of_ne l2_nonneg (Ne.symm noBall)) vanishes
  refine .inr (.inr (.inr ?_))
  rw [searched]
  rintro _ ⟨⟩
  exact exact.lower_le.trans exact.le_upper

theorem cap?_finite (radius l1 : ℝ) :
    (Radius.finite radius).cap? l1 = if radius = 0 then none else some (radius * l1) := by
  by_cases zero : radius = 0 <;> simp [Radius.cap?, zero, isFinite]

theorem split_eq {vector : List ℝ} {l1 l2 radius : ℝ} (l1_nonneg : 0 ≤ l1)
    (found : gauge vector l1 l2 = .finite radius) (isGauge : IsGauge vector l1 l2 radius) :
    split vector l1 l2 = ⟨.finite radius,
      vector.map (clamp (-(radius * l1)) (radius * l1)),
      vector.map fun entry => softThreshold entry (radius * l1)⟩ := by
  unfold split
  rw [found]
  by_cases zero : radius = 0
  · subst zero
    have vanishes : ∀ entry ∈ vector, entry = 0 := by
      have inside := isGauge.onSphere
      rw [zero_mul, zero_mul, softNorm_eq_zero] at inside
      exact fun entry member => abs_eq_zero.1 (le_antisymm (inside entry member) (abs_nonneg entry))
    simp only [cap?_finite, Radius.isZero, isZero_real, decide_true, if_true, zero_mul, neg_zero]
    congr 1 <;> apply List.map_congr_left <;> intro entry member <;> rw [vanishes entry member]
    · simp [clamp]
    · simp [softThreshold]
  · simp only [cap?_finite, if_neg zero]
    have bound : 0 ≤ radius * l1 := mul_nonneg isGauge.nonneg l1_nonneg
    congr 1
    rw [List.zipWith_map_right, List.zipWith_self]
    apply List.map_congr_left
    intro entry _
    have whole := clamp_add_softThreshold entry bound
    linarith

theorem split_radius (vector : List ℝ) (l1 l2 : ℝ) :
    (split vector l1 l2).radius = gauge vector l1 l2 := by
  cases found : (gauge vector l1 l2).cap? l1 <;> simp [split, found]

theorem splitIsOrdered (vector : List ℝ) {l1 l2 : ℝ} (l1_nonneg : 0 ≤ l1) (l2_nonneg : 0 ≤ l2)
    (penalized : ¬ (l1 = 0 ∧ l2 = 0)) : SplitIsOrdered vector l1 l2 := by
  refine ⟨isOrdered vector l1_nonneg l2_nonneg, ?_⟩
  obtain ⟨radius, found, isGauge⟩ := gauge_isGauge vector l1_nonneg l2_nonneg penalized
  rw [found]
  rw [cap?_finite]
  split_ifs
  · simp
  · rintro _ ⟨⟩
    have := mul_nonneg isGauge.nonneg l1_nonneg
    linarith

end Gauge

end GroupLasso
