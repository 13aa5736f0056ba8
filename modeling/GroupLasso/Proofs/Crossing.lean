import GroupLasso.Proofs.Gauge

/-!
Where the search for the gauge stops. For positive weights and a nonzero vector it stops inside the
list of magnitudes, whatever ties and zeros are among them, and there the quadratic has a positive
discriminant and its root lies between the two breakpoints. Cutting the discriminant off at zero and
clamping the root change nothing.
-/

namespace GroupLasso

open Scalar

namespace Gauge

/-- What the search knows when it stops: what it has passed, the last magnitude of that, and the next
one. -/
structure Stop (α : Type) where
  passed : Passed α
  magnitude : α
  next : α

section
variable {α : Type} [Scalar α]

def Stop.discriminant (l1 l2 : α) (stop : Stop α) : α :=
  let count : α := ofNat stop.passed.count
  l2 * l2 * stop.passed.squares -
    l1 * l1 * (count * stop.passed.squares - stop.passed.sum * stop.passed.sum)

def Stop.crossing (l1 l2 : α) (stop : Stop α) : Crossing α where
  lower := stop.next / l1
  root := stop.passed.squares /
    (l1 * stop.passed.sum + sqrt (larger (stop.discriminant l1 l2) 0))
  upper := stop.magnitude / l1

def stop? (l1 l2 : α) (passed : Passed α) : List α → Option (Stop α)
  | [] => none
  | magnitude :: rest =>
      let passed := passed.add magnitude
      let next := rest.headD 0
      let lower := next / l1
      let count : α := ofNat passed.count
      let residual := passed.squares - 2 * next * passed.sum + count * next * next
      if (lower * l2) * (lower * l2) ≤ residual then some ⟨passed, magnitude, next⟩
      else stop? l1 l2 passed rest

theorem crossing?_eq_map (l1 l2 : α) (passed : Passed α) (magnitudes : List α) :
    crossing? l1 l2 passed magnitudes =
      (stop? l1 l2 passed magnitudes).map (Stop.crossing l1 l2) := by
  induction magnitudes generalizing passed with
  | nil => rfl
  | cons magnitude rest ih =>
      simp only [crossing?, stop?]
      split
      · rfl
      · exact ih _

end

theorem stop?_cons (l1 l2 : ℝ) (before after : List ℝ) (magnitude : ℝ) :
    stop? l1 l2 (Passed.of before) (magnitude :: after) =
      if (after.headD 0 / l1 * l2) ^ 2 ≤ deviation (before ++ [magnitude]) (after.headD 0) then
        some ⟨Passed.of (before ++ [magnitude]), magnitude, after.headD 0⟩
      else stop? l1 l2 (Passed.of (before ++ [magnitude])) after := by
  have count : ∀ n : Nat, (Scalar.ofNat n : ℝ) = n := fun _ => rfl
  rw [stop?, Passed.deviation_eq, Passed.of_append]
  simp only [count, ofNat_scalar_real, Nat.reduceAdd, sq, mul_assoc]

section
variable {l1 l2 : ℝ} (l1_pos : 0 < l1)
include l1_pos

theorem discriminant_pos_of_undecided {before : List ℝ} {magnitude : ℝ} (positive : 0 < magnitude)
    (undecided : deviation (before ++ [magnitude]) magnitude < (magnitude / l1 * l2) ^ 2) (next : ℝ) :
    0 < Stop.discriminant l1 l2 ⟨Passed.of (before ++ [magnitude]), magnitude, next⟩ := by
  have threshold : magnitude / l1 * l1 = magnitude := div_mul_cancel₀ _ l1_pos.ne'
  apply discriminant_pos (Passed.squares_pos positive)
  rw [threshold]
  exact Passed.deviation_eq (before ++ [magnitude]) magnitude ▸ undecided

theorem stop?_discriminant (after : List ℝ) : ∀ (before : List ℝ) (magnitude : ℝ),
    (before ++ magnitude :: after).Pairwise (· ≥ ·) →
    (∀ other ∈ before ++ magnitude :: after, 0 ≤ other) →
    deviation before magnitude < (magnitude / l1 * l2) ^ 2 →
    ∀ stop ∈ stop? l1 l2 (Passed.of before) (magnitude :: after), 0 < stop.discriminant l1 l2 := by
  induction after with
  | nil =>
      intro before magnitude sorted nonneg undecided stop member
      obtain ⟨positive, -, -, above⟩ := search_state sorted nonneg undecided
      rw [stop?_cons] at member
      split at member
      · cases member
        exact discriminant_pos_of_undecided l1_pos positive above _
      · cases member
  | cons next after ih =>
      intro before magnitude sorted nonneg undecided stop member
      obtain ⟨positive, -, -, above⟩ := search_state sorted nonneg undecided
      rw [stop?_cons, List.headD_cons] at member
      split at member
      · cases member
        exact discriminant_pos_of_undecided l1_pos positive above _
      · rename_i still
        have moved : before ++ magnitude :: next :: after =
          (before ++ [magnitude]) ++ next :: after := by simp
        rw [moved] at sorted nonneg
        exact ih _ _ sorted nonneg (not_le.1 still) stop member

end

theorem largest_eq_zero_iff {vector : List ℝ} :
    (magnitudes vector).headD 0 = 0 ↔ ∀ entry ∈ vector, entry = 0 := by
  constructor
  · intro vanishes entry member
    have bound := abs_le_largest member
    rw [vanishes] at bound
    exact abs_eq_zero.1 (le_antisymm bound (abs_nonneg entry))
  · intro zero
    by_contra nonzero
    obtain ⟨entry, member, largest⟩ := largest_attained nonzero
    rw [← largest, zero entry member, abs_zero] at nonzero
    exact nonzero rfl

theorem crossing_stops {vector : List ℝ} {l1 l2 : ℝ} (l1_pos : 0 < l1) (l2_pos : 0 < l2)
    (nonzero : (magnitudes vector).headD 0 ≠ 0) :
    ∃ stop, stop? l1 l2 ⟨0, 0, 0⟩ (magnitudes vector) = some stop ∧
      crossing vector l1 l2 = some (stop.crossing l1 l2) ∧ 0 < stop.discriminant l1 l2 := by
  obtain ⟨found, searched, -, -⟩ := crossing_isGauge l1_pos l2_pos nonzero
  have mapped := searched
  rw [crossing, crossing?_eq_map, Option.map_eq_some_iff] at mapped
  obtain ⟨stop, stopped, rfl⟩ := mapped
  refine ⟨stop, stopped, searched, ?_⟩
  have sorted := magnitudes_sorted vector
  have nonneg := magnitudes_nonneg vector
  cases listed : magnitudes vector with
  | nil => simp [listed] at nonzero
  | cons largest rest =>
      rw [listed] at sorted nonneg nonzero stopped
      have undecided : deviation [] largest < (largest / l1 * l2) ^ 2 := by
        have : largest / l1 * l2 ≠ 0 := mul_ne_zero (div_ne_zero nonzero l1_pos.ne') l2_pos.ne'
        simpa only [deviation, List.map_nil, List.sum_nil] using sq_pos_of_ne_zero this
      exact stop?_discriminant l1_pos rest [] largest sorted nonneg undecided stop stopped

theorem IsGauge.isLeast {vector : List ℝ} {l1 l2 radius : ℝ}
    (isGauge : IsGauge vector l1 l2 radius) :
    IsLeast {other | 0 ≤ other ∧ softNorm vector (other * l1) ≤ other * l2} radius :=
  ⟨⟨isGauge.nonneg, isGauge.onSphere.le⟩, fun other inside => isGauge.least other inside.1 inside.2⟩

/-- The gauge of a group with a positive weight is the least radius at which thresholding leaves no more
than the ball. With two positive weights and a nonzero vector, it is the root at which the search stops:
the search does stop, its discriminant is not negative, its bounds are ordered and the clamp keeps the
root. -/
theorem gauge_exact (vector : List ℝ) {l1 l2 : ℝ} (l1_nonneg : 0 ≤ l1) (l2_nonneg : 0 ≤ l2)
    (penalized : ¬ (l1 = 0 ∧ l2 = 0)) :
    ∃ radius, gauge vector l1 l2 = .finite radius ∧
      IsLeast {other | 0 ≤ other ∧ softNorm vector (other * l1) ≤ other * l2} radius ∧
      (0 < l1 → 0 < l2 → (∃ entry ∈ vector, entry ≠ 0) →
        ∃ stop, stop? l1 l2 ⟨0, 0, 0⟩ (magnitudes vector) = some stop ∧
          crossing vector l1 l2 = some (stop.crossing l1 l2) ∧
          0 ≤ stop.discriminant l1 l2 ∧
          (stop.crossing l1 l2).lower ≤ (stop.crossing l1 l2).upper ∧
          clamp (stop.crossing l1 l2).lower (stop.crossing l1 l2).upper (stop.crossing l1 l2).root =
            (stop.crossing l1 l2).root ∧
          radius = (stop.crossing l1 l2).root) := by
  obtain ⟨radius, found, isGauge⟩ := gauge_isGauge vector l1_nonneg l2_nonneg penalized
  refine ⟨radius, found, isGauge.isLeast, ?_⟩
  rintro l1_pos l2_pos ⟨entry, member, present⟩
  have nonzero : (magnitudes vector).headD 0 ≠ 0 :=
    fun vanishes => present (largest_eq_zero_iff.1 vanishes entry member)
  obtain ⟨stop, stopped, searched, discriminant⟩ := crossing_stops l1_pos l2_pos nonzero
  obtain ⟨_, again, exact, rootIsGauge⟩ := crossing_isGauge l1_pos l2_pos nonzero
  obtain rfl := Option.some.inj (searched.symm.trans again)
  refine ⟨stop, stopped, searched, discriminant.le, exact.lower_le.trans exact.le_upper, ?_,
    isGauge.unique rootIsGauge⟩
  simp only [clamp, if_neg exact.lower_le.not_gt, if_neg exact.le_upper.not_gt]

theorem gauge_exact_tied :
    ∃ radius, gauge [2, -2, 0] (1 : ℝ) 1 = .finite radius ∧
      IsLeast {other | 0 ≤ other ∧ softNorm [2, -2, 0] (other * 1) ≤ other * 1} radius ∧
      ∃ stop, stop? (1 : ℝ) 1 ⟨0, 0, 0⟩ (magnitudes [2, -2, 0]) = some stop ∧
        crossing [2, -2, 0] (1 : ℝ) 1 = some (stop.crossing 1 1) ∧ 0 ≤ stop.discriminant 1 1 ∧
        (stop.crossing 1 1).lower ≤ (stop.crossing 1 1).upper ∧
        clamp (stop.crossing 1 1).lower (stop.crossing 1 1).upper (stop.crossing 1 1).root =
          (stop.crossing 1 1).root ∧
        radius = (stop.crossing 1 1).root := by
  obtain ⟨radius, found, least, search⟩ := gauge_exact [2, -2, 0] (zero_le_one' ℝ)
    (zero_le_one' ℝ) fun both => one_ne_zero both.1
  exact ⟨radius, found, least, search one_pos one_pos ⟨2, by simp, two_ne_zero⟩⟩

end Gauge

end GroupLasso
