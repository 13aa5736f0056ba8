import Mathlib
import GroupLasso.Scalar

/-!
The real numbers as a scalar type, and what the operations on scalars are there: the ones that mind
unordered values become maximum, minimum and equality, and soft thresholding is what is left of a
number after clipping it.
-/

namespace GroupLasso

-- Found before the division of an arbitrary scalar type, so that quotients have one form.
noncomputable instance instDivReal : Div ℝ := DivInvMonoid.toDiv

noncomputable instance instScalarReal : Scalar ℝ where
  decideLT := Real.decidableLT
  decideLE := Real.decidableLE
  ofNat := Nat.cast
  abs value := |value|
  sqrt := Real.sqrt
  log := Real.log
  exp := Real.exp
  expm1 value := Real.exp value - 1
  isFinite _ := true
  ceil := Nat.ceil

theorem ofNat_scalar_real (n : Nat) :
    @OfNat.ofNat ℝ (n + 2) (instOfNatScalar n) = @OfNat.ofNat ℝ (n + 2) instOfNatAtLeastTwo := rfl

namespace Scalar

@[simp] theorem isZero_real (value : ℝ) : IsZero value ↔ value = 0 :=
  ⟨fun zero => le_antisymm zero.1 zero.2, fun zero => ⟨zero.le, zero.ge⟩⟩

@[simp] theorem isFiniteNonneg_real (value : ℝ) : IsFiniteNonneg value ↔ 0 ≤ value :=
  ⟨And.right, fun nonneg => ⟨rfl, nonneg⟩⟩

@[simp] theorem isFinitePos_real (value : ℝ) : IsFinitePos value ↔ 0 < value :=
  ⟨And.right, fun positive => ⟨rfl, positive⟩⟩

@[simp] theorem larger_real (left right : ℝ) : larger left right = max left right := by
  unfold larger IsUnordered
  split_ifs with ordered
  · exact (max_eq_left (by simpa using ordered)).symm
  · exact (max_eq_right (by simpa using ordered : left < right).le).symm

theorem clamp_real {lower upper : ℝ} (ordered : lower ≤ upper) (value : ℝ) :
    clamp lower upper value = min (max value lower) upper := by
  unfold clamp
  split_ifs with below above
  · rw [max_eq_right below.le, min_eq_left ordered]
  · rw [max_eq_left (not_lt.1 below), min_eq_right above.le]
  · rw [max_eq_left (not_lt.1 below), min_eq_left (not_lt.1 above)]

theorem decimal_real (digits exponent : ℕ) :
    (OfScientific.ofScientific digits true exponent : ℝ) = digits / 10 ^ exponent := by
  refine (NNRatCast.ofScientific_eq_ite digits true exponent).trans ?_
  rw [if_pos rfl, NNRat.cast_divNat, Nat.cast_pow, Nat.cast_ofNat]

@[simp] theorem abs_real (value : ℝ) : Scalar.abs value = |value| := rfl

@[simp] theorem sqrt_real (value : ℝ) : Scalar.sqrt value = √value := rfl

@[simp] theorem sumTo_real (count : Nat) (term : Nat → ℝ) :
    sumTo count term = ∑ index ∈ Finset.range count, term index := by
  unfold sumTo
  induction count with
  | zero => simp
  | succ count ih => rw [Nat.fold_succ, ih, Finset.sum_range_succ]

@[simp] theorem sum_real (values : List ℝ) : Scalar.sum values = values.sum :=
  List.sum_eq_foldl.symm

theorem norm_real (vector : List ℝ) : norm vector = √(vector.map fun entry => entry * entry).sum := by
  simp [norm]

theorem norm_nonneg_real (vector : List ℝ) : 0 ≤ norm vector := by
  rw [norm_real]
  exact Real.sqrt_nonneg _

theorem norm_eq_zero_real {vector : List ℝ} : norm vector = 0 ↔ ∀ entry ∈ vector, entry = 0 := by
  have squares : ∀ square ∈ vector.map fun entry => entry * entry, 0 ≤ square := by
    simp only [List.mem_map]
    rintro _ ⟨entry, _, rfl⟩
    exact mul_self_nonneg entry
  rw [norm_real, Real.sqrt_eq_zero (List.sum_nonneg squares)]
  constructor
  · intro zero entry member
    have square := List.all_zero_of_le_zero_le_of_sum_eq_zero squares zero
      (List.mem_map_of_mem member)
    exact mul_self_eq_zero.1 square
  · intro zero
    apply List.sum_eq_zero
    simp only [List.mem_map]
    rintro _ ⟨entry, member, rfl⟩
    rw [zero entry member, mul_zero]

theorem norm_mul_real (scale : ℝ) (vector : List ℝ) :
    norm (vector.map (scale * ·)) = |scale| * norm vector := by
  have squares : ((vector.map (scale * ·)).map fun entry => entry * entry).sum =
      scale ^ 2 * (vector.map fun entry => entry * entry).sum := by
    rw [List.map_map, ← List.sum_map_mul_left]
    congr 1
    apply List.map_congr_left
    intro entry _
    simp only [Function.comp_apply]
    ring
  rw [norm_real, norm_real, squares, Real.sqrt_mul (sq_nonneg scale), Real.sqrt_sq_eq_abs]

theorem norm_pos_real {vector : List ℝ} (nonzero : norm vector ≠ 0) : 0 < norm vector :=
  lt_of_le_of_ne (norm_nonneg_real vector) (Ne.symm nonzero)

/-! Soft thresholding and clipping. -/

variable {value amount : ℝ}

theorem softThreshold_eq_zero : softThreshold value amount = 0 ↔ |value| ≤ amount := by
  unfold softThreshold
  rw [abs_le]
  split_ifs with above below
  · constructor
    · intro zero; linarith
    · intro bounds; linarith
  · constructor
    · intro zero; linarith
    · intro bounds; linarith
  · simp only [not_lt] at above below
    exact ⟨fun _ => ⟨below, above⟩, fun _ => rfl⟩

theorem abs_softThreshold (nonneg : 0 ≤ amount) :
    |softThreshold value amount| = max (|value| - amount) 0 := by
  by_cases small : |value| ≤ amount
  · rw [softThreshold_eq_zero.2 small, abs_zero, max_eq_right (by linarith)]
  · have large : amount < |value| := not_le.1 small
    rw [max_eq_left (by linarith)]
    unfold softThreshold
    rcases lt_abs.1 large with above | below
    · rw [if_pos above, abs_of_pos (by linarith), abs_of_pos (by linarith)]
    · rw [if_neg (by linarith), if_pos (by linarith), abs_of_neg (by linarith),
        abs_of_neg (by linarith)]
      ring

theorem abs_softThreshold_antitone {less : ℝ} (nonneg : 0 ≤ less) (ordered : less ≤ amount) :
    |softThreshold value amount| ≤ |softThreshold value less| := by
  rw [abs_softThreshold nonneg, abs_softThreshold (nonneg.trans ordered)]
  exact max_le_max_right 0 (by linarith)

theorem softThreshold_mul {scale : ℝ} (positive : 0 < scale) (value amount : ℝ) :
    softThreshold (scale * value) (scale * amount) = scale * softThreshold value amount := by
  unfold softThreshold
  simp only [← mul_neg, mul_lt_mul_iff_right₀ positive]
  split_ifs <;> ring

theorem abs_sign (nonzero : value ≠ 0) : |sign value| = 1 := by
  unfold sign
  split_ifs with positive negative
  · exact abs_one
  · rw [abs_neg, abs_one]
  · exact absurd (le_antisymm (not_lt.1 positive) (not_lt.1 negative)) nonzero

theorem sign_ne_zero (nonzero : value ≠ 0) : sign value ≠ 0 :=
  abs_pos.1 (abs_sign nonzero ▸ one_pos)

theorem sign_mul {scale : ℝ} (positive : 0 < scale) (value : ℝ) :
    sign (scale * value) = sign value := by
  have negative : scale * value < 0 ↔ value < 0 := by
    rw [← neg_pos, ← mul_neg, mul_pos_iff_of_pos_left positive, neg_pos]
  simp only [sign, mul_pos_iff_of_pos_left positive, negative]

theorem clamp_add_softThreshold (value : ℝ) (nonneg : 0 ≤ amount) :
    clamp (-amount) amount value + softThreshold value amount = value := by
  unfold clamp softThreshold
  split_ifs <;> linarith

theorem softThreshold_eq_iff {target : ℝ} (nonneg : 0 ≤ amount) (nonzero : target ≠ 0) :
    softThreshold value amount = target ↔ value = target + amount * sign target := by
  unfold softThreshold sign
  constructor
  · intro thresholded
    split_ifs at thresholded ⊢ <;> first | linarith | exact absurd thresholded.symm nonzero
  · rintro rfl
    rcases lt_or_gt_of_ne nonzero with negative | positive
    · simp only [negative.not_gt, negative, if_false, if_true]
      rw [if_neg (by linarith), if_pos (by linarith)]
      ring
    · simp only [positive, if_true]
      rw [if_pos (by linarith)]
      ring

end Scalar

end GroupLasso
