import Mathlib
import GroupLasso.Path.Fit
import GroupLasso.Proofs.Failure
import GroupLasso.Proofs.Real

/-!
The sequences of Lagrange values that a path accepts. A sequence is accepted when it has values, all
of them are finite and positive, and none is larger than the one before it; so is every beginning of
it that has values. The default grids, which fall by a constant factor, are among them.
-/

namespace GroupLasso

open Scalar

variable {α : Type} [Scalar α]

namespace Grid

theorem increase?_eq_none {sequence : List α} :
    increase? sequence = none ↔ sequence.IsChain fun first second => ¬ first < second := by
  induction sequence with
  | nil => simp [increase?]
  | cons first rest ih =>
      cases rest with
      | nil => simp [increase?]
      | cons second rest =>
          unfold increase?
          rw [List.isChain_cons_cons, ← ih]
          by_cases increases : first < second
          · simp [increases]
          · simp [increases]

theorem validate_eq_ok {sequence : List α} {done : Unit} :
    validate sequence = .ok done ↔ sequence ≠ [] ∧ (∀ lagrange ∈ sequence, IsFinitePos lagrange) ∧
      sequence.IsChain fun first second => ¬ first < second := by
  have found : (sequence.find? fun lagrange => ¬ IsFinitePos lagrange) = none ↔
      ∀ lagrange ∈ sequence, IsFinitePos lagrange := by simp
  rw [← found, ← increase?_eq_none]
  unfold validate
  by_cases empty : sequence.isEmpty
  · simp [List.isEmpty_iff.1 empty]
  · rw [if_neg empty]
    have nonempty : sequence ≠ [] := fun none => empty (List.isEmpty_iff.2 none)
    cases (sequence.find? fun lagrange => ¬ IsFinitePos lagrange) with
    | some lagrange => simp
    | none =>
        cases increase? sequence with
        | some pair => simp
        | none => simp [nonempty]

theorem validate_take {sequence : List α} {count : Nat} (valid : validate sequence = .ok ())
    (positive : 0 < count) : validate (sequence.take count) = .ok () := by
  obtain ⟨nonempty, values, ordered⟩ := validate_eq_ok.1 valid
  refine validate_eq_ok.2 ⟨?_, ?_, ordered.take count⟩
  · simpa [List.take_eq_nil_iff, nonempty] using positive.ne'
  · intro lagrange member
    exact values lagrange (List.mem_of_mem_take member)

section
variable {lagrangeMax ratio : ℝ} {size : Nat}

theorem geometric_of_ne (several : size ≠ 1) : geometric lagrangeMax ratio size =
    (List.range size).map fun index : Nat =>
      lagrangeMax * Real.exp (Real.log ratio * index / (size - 1 : ℕ)) := if_neg several

theorem validate_geometric (positive : 0 < lagrangeMax) (ratio_pos : 0 < ratio)
    (ratio_le : ratio ≤ 1) (nonempty : 1 ≤ size) :
    validate (geometric lagrangeMax ratio size) = .ok () := by
  rw [validate_eq_ok]
  by_cases single : size = 1
  · subst single
    simp [geometric, positive]
  · rw [geometric_of_ne single]
    refine ⟨?_, ?_, List.Pairwise.isChain ?_⟩
    · exact mt List.map_eq_nil_iff.1 (mt List.range_eq_nil.1 (by omega))
    · intro lagrange listed
      obtain ⟨index, -, rfl⟩ := List.mem_map.1 listed
      exact (isFinitePos_real _).2 (mul_pos positive (Real.exp_pos _))
    · refine List.pairwise_map.2 (List.pairwise_lt_range.imp fun {first second} before => not_lt.2 ?_)
      have falls : Real.log ratio ≤ 0 := Real.log_nonpos ratio_pos.le ratio_le
      have ordered : (first : ℝ) ≤ second := Nat.cast_le.2 before.le
      gcongr _ * Real.exp (?_ / _)
      exact mul_le_mul_of_nonpos_left ordered falls

theorem getLast?_geometric (ratio_pos : 0 < ratio) (several : 2 ≤ size) :
    (geometric lagrangeMax ratio size).getLast? = some (lagrangeMax * ratio) := by
  obtain ⟨fewer, rfl⟩ := Nat.exists_eq_add_of_le' several
  have nonzero : ((fewer + 1 : ℕ) : ℝ) ≠ 0 := Nat.cast_ne_zero.2 (Nat.succ_ne_zero _)
  rw [geometric_of_ne (by omega), List.range_succ, List.map_append, List.map_singleton,
    List.getLast?_concat, show fewer + 2 - 1 = fewer + 1 from rfl, mul_div_assoc, div_self nonzero,
    mul_one, Real.exp_log ratio_pos]

theorem geometric_eq_powers (ratio_pos : 0 < ratio) : geometric lagrangeMax ratio size =
    (List.range size).map fun index : Nat =>
      lagrangeMax * ratio ^ ((index : ℝ) / (size - 1 : ℕ)) := by
  by_cases single : size = 1
  · subst single
    simp [geometric]
  · rw [geometric_of_ne single]
    refine List.map_congr_left fun index _ => ?_
    rw [Real.rpow_def_of_pos ratio_pos, mul_div_assoc]

theorem head?_geometric (ratio_pos : 0 < ratio) (nonempty : 1 ≤ size) :
    (geometric lagrangeMax ratio size).head? = some lagrangeMax := by
  rw [geometric_eq_powers ratio_pos, List.head?_map, List.head?_range, if_neg (by omega)]
  simp

theorem geometric_falls (positive : 0 < lagrangeMax) (ratio_pos : 0 < ratio) (ratio_lt : ratio < 1) :
    (geometric lagrangeMax ratio size).Pairwise (· > ·) := by
  rw [geometric_eq_powers ratio_pos, List.pairwise_map]
  refine List.Pairwise.imp_of_mem (fun {first second} _ listed before => ?_) List.pairwise_lt_range
  have bound : second < size := List.mem_range.1 listed
  have steps : (0 : ℝ) < (size - 1 : ℕ) := Nat.cast_pos.2 (by omega)
  have sooner : (first : ℝ) / (size - 1 : ℕ) < second / (size - 1 : ℕ) :=
    div_lt_div_of_pos_right (Nat.cast_lt.2 before) steps
  exact mul_lt_mul_of_pos_left (Real.rpow_lt_rpow_of_exponent_gt ratio_pos ratio_lt sooner) positive

theorem geometric_factor (ratio_pos : 0 < ratio) :
    (geometric lagrangeMax ratio size).IsChain fun first second =>
      second = first * ratio ^ (1 / ((size - 1 : ℕ) : ℝ)) := by
  rw [geometric_eq_powers ratio_pos, List.isChain_iff_getElem]
  intro index bound
  simp only [List.getElem_map, List.getElem_range]
  rw [mul_assoc, ← Real.rpow_add ratio_pos, ← add_div, Nat.cast_add_one]

theorem validate_single {value : ℝ} (positive : 0 < value) : validate [value] = .ok () := by
  refine validate_eq_ok.2 ⟨List.cons_ne_nil _ _, ?_, .singleton _⟩
  simp [positive]

theorem validate_real {sequence : List ℝ} : validate sequence = .ok () ↔
    sequence ≠ [] ∧ (∀ lagrange ∈ sequence, 0 < lagrange) ∧ sequence.Pairwise (· ≥ ·) := by
  simp only [validate_eq_ok, isFinitePos_real, not_lt]
  rw [List.isChain_iff_pairwise]

/-- A default grid has the size asked for. It falls strictly, by one factor from each value to the next,
from the largest Lagrange value to the given fraction of it, and it is accepted, as are exactly the
sequences of positive values in which no later value exceeds an earlier one. -/
theorem geometric_accepted (positive : 0 < lagrangeMax) (ratio_pos : 0 < ratio) (ratio_lt : ratio < 1)
    (nonempty : 1 ≤ size) :
    let grid := geometric lagrangeMax ratio size
    grid.length = size ∧ grid.head? = some lagrangeMax ∧ grid.Pairwise (· > ·) ∧
      (grid.IsChain fun first second => second = first * ratio ^ (1 / ((size - 1 : ℕ) : ℝ))) ∧
      (2 ≤ size → grid.getLast? = some (ratio * lagrangeMax)) ∧ validate grid = .ok () ∧
      ∀ sequence : List ℝ, validate sequence = .ok () ↔
        sequence ≠ [] ∧ (∀ lagrange ∈ sequence, 0 < lagrange) ∧ sequence.Pairwise (· ≥ ·) := by
  intro grid
  refine ⟨?_, head?_geometric ratio_pos nonempty, geometric_falls positive ratio_pos ratio_lt,
    geometric_factor ratio_pos, fun several => ?_,
    validate_geometric positive ratio_pos ratio_lt.le nonempty, fun _ => validate_real⟩
  · rw [show grid = _ from geometric_eq_powers ratio_pos, List.length_map, List.length_range]
  · rw [mul_comm]
    exact getLast?_geometric ratio_pos several

theorem geometric_accepted_quarter :
    let grid : List ℝ := geometric 2 (1 / 4) 3
    grid.length = 3 ∧ grid.head? = some 2 ∧ grid.getLast? = some (1 / 2) ∧
      (grid.IsChain fun first second => second = first * (1 / 2)) ∧ validate grid = .ok () ∧
      validate [2, 2, 1 / (2 : ℝ)] = .ok () ∧ validate [3, 1, (2 : ℝ)] ≠ .ok () := by
  intro grid
  obtain ⟨length, head, -, factor, last, accepted, accepts⟩ := geometric_accepted two_pos
    (by norm_num : (0 : ℝ) < 1 / 4) (by norm_num) (by decide : 1 ≤ 3)
  have root : (1 / 4 : ℝ) ^ (1 / ((3 - 1 : ℕ) : ℝ)) = 1 / 2 := by
    rw [show (1 / 4 : ℝ) = (1 / 2) ^ 2 by norm_num]
    norm_num [← Real.sqrt_eq_rpow]
  rw [root] at factor
  refine ⟨length, head, (last (by decide)).trans (by norm_num), factor, accepted,
    (accepts _).2 ⟨List.cons_ne_nil _ _, by norm_num, by norm_num⟩, ?_⟩
  rw [ne_eq, accepts]
  norm_num

end

end Grid

theorem Path.sequence_eq_ok {path : Path α} {given : Option (List α)} {values : List α}
    (listed : path.sequence given = .ok values) :
    Grid.validate values = .ok () ∧ ∀ sequence, given = some sequence → values = sequence := by
  unfold sequence at listed
  cases given with
  | some sequence =>
      obtain ⟨_, ⟨⟩, listed⟩ := Failure.bind_eq_ok.1 listed
      obtain ⟨_, accepted, finished⟩ := Failure.bind_eq_ok.1 listed
      cases finished
      refine ⟨accepted, ?_⟩
      rintro _ ⟨⟩
      rfl
  | none =>
      simp only at listed
      split_ifs at listed
      · obtain ⟨_, ⟨⟩, listed⟩ := Failure.bind_eq_ok.1 listed
        obtain ⟨_, accepted, finished⟩ := Failure.bind_eq_ok.1 listed
        cases finished
        exact ⟨accepted, nofun⟩
      · cases listed

theorem Path.sequence_some (path : Path α) (values : List α) :
    path.sequence (some values) = (Grid.validate values).map fun _ => values := by
  change (do Grid.validate values; pure values) = _
  cases Grid.validate values with
  | error failure => rfl
  | ok done => rfl

theorem Path.sequence_single (path : Path ℝ) {value : ℝ} (positive : 0 < value) :
    path.sequence (some [value]) = .ok [value] := by
  rw [sequence_some, Grid.validate_single positive]
  rfl

end GroupLasso
