import GroupLasso.ProximalGradient
import GroupLasso.Proofs.Real

/-!
The norm of a matrix, and what the first pass of the solver decides. Its candidate is the solution when it
meets the quadratic bound and moves by no more than the tolerance, and a budget of one pass is used up when
it moves by more.
-/

namespace GroupLasso

open Scalar

namespace Mat

theorem sumSquares_real (matrix : Mat ℝ) (scale : ℝ) :
    matrix.sumSquares scale = scale ^ 2 *
      ∑ col ∈ Finset.range matrix.cols, ∑ row ∈ Finset.range matrix.rows, matrix.get row col ^ 2 := by
  simp only [sumSquares, sumTo_real, Finset.mul_sum]
  apply Finset.sum_congr rfl
  intro col _
  apply Finset.sum_congr rfl
  intro row _
  ring

theorem largeScale_pos : (0 : ℝ) < largeScale := by
  have positive : 0 < 1 <<< 511 := by decide
  exact Nat.cast_pos.2 positive

/-- Scaling before squaring changes nothing where nothing overflows. -/
theorem frobenius_real (matrix : Mat ℝ) : matrix.frobenius = √(∑ col ∈ Finset.range matrix.cols,
    ∑ row ∈ Finset.range matrix.rows, matrix.get row col ^ 2) := by
  have scale_pos := largeScale_pos
  unfold frobenius
  simp only [sumSquares_real, sqrt_real, one_pow, one_mul]
  split_ifs
  · rw [Real.sqrt_mul (sq_nonneg _), Real.sqrt_sq (by positivity)]
    field_simp
  · rfl
  · rw [Real.sqrt_mul (sq_nonneg _), Real.sqrt_sq scale_pos.le]
    field_simp

theorem frobenius_nonneg (matrix : Mat ℝ) : 0 ≤ matrix.frobenius := by
  rw [frobenius_real]
  exact Real.sqrt_nonneg _

theorem allFinite_real (matrix : Mat ℝ) : matrix.allFinite = true := by
  simp [allFinite, all, isFinite]

end Mat

namespace Problem

def firstCandidate {α : Type} [Scalar α] (problem : Problem α) (options : SolveOptions α) : Mat α :=
  problem.candidate problem.coefs (problem.smooth.gradient problem.coefs)
    (problem.startingStep options)

variable {problem : Problem ℝ} {options : SolveOptions ℝ} {found : Mat ℝ}

theorem accepts_of_le {point gradient : Mat ℝ} {value step : ℝ}
    (below : problem.smooth.value found ≤ bound value gradient (found.addScaled (-1) point) step) :
    problem.accepts point value gradient found step := by
  refine decide_eq_true (below.trans (le_add_of_nonneg_right ?_))
  exact mul_nonneg (by norm_num) (abs_nonneg _)

theorem search_of_accepts {point gradient : Mat ℝ} {value step : ℝ}
    (accepted : problem.accepts point value gradient (problem.candidate point gradient step) step)
    (halvings : Nat) : problem.search point value gradient halvings step =
      some (problem.candidate point gradient step, step) := by
  unfold search
  simp only [accepted, if_true]

theorem pass_of_accepts
    (accepted : problem.accepts problem.coefs (problem.smooth.value problem.coefs)
      (problem.smooth.gradient problem.coefs) (problem.firstCandidate options)
        (problem.startingStep options)) (tolerance : ℝ) (iteration : Nat) :
    problem.pass tolerance iteration (problem.start options) =
      if ((problem.firstCandidate options).addScaled (-1) problem.coefs).frobenius ≤
          tolerance * max (problem.firstCandidate options).frobenius 1 then
        .converged (problem.firstCandidate options) (problem.startingStep options)
      else .next (problem.advance (problem.start options) (problem.firstCandidate options)
        (problem.startingStep options)) := by
  rw [firstCandidate] at accepted
  unfold pass start
  simp only [search_of_accepts accepted, Mat.allFinite_real, larger_real]
  exact if_neg (not_not.2 ⟨rfl, trivial⟩)

theorem solve_of_accepts (budget : 1 ≤ options.maxIterations)
    (first : problem.firstCandidate options = found)
    (accepted : problem.accepts problem.coefs (problem.smooth.value problem.coefs)
      (problem.smooth.gradient problem.coefs) found (problem.startingStep options))
    (settled : (found.addScaled (-1) problem.coefs).frobenius ≤ options.tolerance) :
    (problem.solve options).1 = .ok found := by
  subst first
  have nonneg : 0 ≤ options.tolerance := (Mat.frobenius_nonneg _).trans settled
  have close := settled.trans (le_mul_of_one_le_right nonneg
    (le_max_right (problem.firstCandidate options).frobenius 1))
  obtain ⟨fewer, more⟩ := Nat.exists_eq_add_of_le' budget
  unfold solve
  rw [more, run, pass_of_accepts accepted, if_pos close]

theorem solve_of_far (budget : options.maxIterations = 1)
    (first : problem.firstCandidate options = found)
    (accepted : problem.accepts problem.coefs (problem.smooth.value problem.coefs)
      (problem.smooth.gradient problem.coefs) found (problem.startingStep options))
    (far : options.tolerance * max found.frobenius 1 <
      (found.addScaled (-1) problem.coefs).frobenius) :
    (problem.solve options).1 = .error (.notConverged 1) := by
  subst first
  unfold solve
  rw [budget, run, pass_of_accepts accepted, if_neg far.not_ge]
  simp only [run, budget]

end Problem

end GroupLasso
