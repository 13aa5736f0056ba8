import GroupLasso.Proofs.Losses

/-!
Gradients that are derivatives. A function that lies above its tangents between the points of a region,
with a gradient that is continuous along lines inside, is convex on the region and has the gradient as its
derivative there. Gaussian, multinomial and Poisson losses under a design and a ridge term are such functions
everywhere.
-/

namespace GroupLasso

open Scalar Filter Topology

theorem hasDerivWithinAt_of_tangents {value slope : ℝ → ℝ} {times : Set ℝ} {time : ℝ}
    (inside : time ∈ times)
    (above : ∀ first ∈ times, ∀ second ∈ times,
      value first + slope first * (second - first) ≤ value second)
    (continuous : ContinuousWithinAt slope times time) :
    HasDerivWithinAt value (slope time) times time := by
  rw [hasDerivWithinAt_iff_isLittleO, Asymptotics.isLittleO_iff]
  intro bound bound_pos
  have close : ∀ᶠ other in 𝓝[times] time, |slope other - slope time| < bound :=
    Metric.continuousWithinAt_iff'.1 continuous bound bound_pos
  filter_upwards [close, self_mem_nhdsWithin] with other small member
  -- The tangent at the time bounds the excess from below, the tangent at the other time from above.
  have lower := above time inside other member
  have upper := above other member time inside
  have excess : value other - value time - (other - time) * slope time ≤
      (slope other - slope time) * (other - time) := by linarith
  rw [smul_eq_mul, Real.norm_eq_abs, Real.norm_eq_abs, abs_of_nonneg (by linarith)]
  calc value other - value time - (other - time) * slope time
      ≤ |(slope other - slope time) * (other - time)| := excess.trans (le_abs_self _)
    _ = |slope other - slope time| * |other - time| := abs_mul _ _
    _ ≤ bound * |other - time| := mul_le_mul_of_nonneg_right small.le (abs_nonneg _)

namespace Smooth

/-- Between the points of a region a function lies above its tangents, and its gradient is continuous
along lines inside the region. -/
structure ConvexOn (smooth : Smooth ℝ) (region : Mat ℝ → Prop) : Prop where
  shape : ∀ {point}, region point → point.shape = smooth.shape
  gradientShape : ∀ point, (smooth.gradient point).shape = smooth.shape
  above : ∀ {point other : Mat ℝ}, region point → region other →
    smooth.value point + (smooth.gradient point).inner (other.addScaled (-1) point) ≤
      smooth.value other
  continuous : ∀ {point direction : Mat ℝ}, region point → direction.shape = smooth.shape →
    ∀ row < smooth.shape.rows, ∀ col < smooth.shape.cols, ContinuousWithinAt
      (fun time => (smooth.gradient (point.addScaled time direction)).get row col)
      {time | region (point.addScaled time direction)} 0

theorem Convex.convexOn {smooth : Smooth ℝ} (convex : smooth.Convex) :
    smooth.ConvexOn fun point => point.shape = smooth.shape where
  shape inside := inside
  gradientShape := convex.shape
  above := convex.above
  continuous shape along row _ col _ :=
    (convex.continuous shape along row col).continuousWithinAt

namespace ConvexOn

variable {smooth : Smooth ℝ} {region : Mat ℝ → Prop} {point direction : Mat ℝ}
  (convex : smooth.ConvexOn region)

include convex

theorem above_line (inside : region point) (along : direction.shape = smooth.shape) {first second : ℝ}
    (firstInside : region (point.addScaled first direction))
    (secondInside : region (point.addScaled second direction)) :
    smooth.value (point.addScaled first direction) +
        (smooth.gradient (point.addScaled first direction)).inner direction * (second - first) ≤
      smooth.value (point.addScaled second direction) := by
  have same : point.shape = direction.shape := (convex.shape inside).trans along.symm
  have shapes : (point.addScaled second direction).shape = (point.addScaled first direction).shape := rfl
  have moved : (smooth.gradient (point.addScaled first direction)).inner
      ((point.addScaled second direction).addScaled (-1) (point.addScaled first direction)) =
        (smooth.gradient (point.addScaled first direction)).inner direction * (second - first) := by
    rw [Mat.inner_difference shapes, Mat.inner_real, Finset.sum_mul]
    refine Finset.sum_congr rfl fun row _ => ?_
    rw [Finset.sum_mul]
    refine Finset.sum_congr rfl fun col _ => ?_
    rw [Mat.get_addScaled same, Mat.get_addScaled same]
    ring
  rw [← moved]
  exact convex.above firstInside secondInside

theorem le_chord (inside : region point) (along : direction.shape = smooth.shape) {time : ℝ}
    (nonneg : 0 ≤ time) (le_one : time ≤ 1)
    (middle : region (point.addScaled time direction))
    (finish : region (point.addScaled 1 direction)) :
    smooth.value (point.addScaled time direction) ≤
      (1 - time) * smooth.value point + time * smooth.value (point.addScaled 1 direction) := by
  have same : point.shape = direction.shape := (convex.shape inside).trans along.symm
  have start : point.addScaled 0 direction = point := Mat.addScaled_zero same
  have back := convex.above_line inside along middle (start.symm ▸ inside)
  have forth := convex.above_line inside along middle finish
  rw [start] at back
  -- Weighted by the distances from the two ends, the slopes at the middle cancel.
  have weighted := add_le_add (mul_le_mul_of_nonneg_left back (sub_nonneg.2 le_one))
    (mul_le_mul_of_nonneg_left forth nonneg)
  linarith

theorem continuousWithinAt_slope (inside : region point) (along : direction.shape = smooth.shape) :
    ContinuousWithinAt
      (fun time => (smooth.gradient (point.addScaled time direction)).inner direction)
      {time | region (point.addScaled time direction)} 0 := by
  have rows : ∀ time, (smooth.gradient (point.addScaled time direction)).rows = smooth.shape.rows :=
    fun _ => Mat.rows_eq (convex.gradientShape _)
  have cols : ∀ time, (smooth.gradient (point.addScaled time direction)).cols = smooth.shape.cols :=
    fun _ => Mat.cols_eq (convex.gradientShape _)
  simp only [Mat.inner_real, rows, cols]
  refine tendsto_finsetSum _ fun row member => tendsto_finsetSum _ fun col colMember => ?_
  exact (convex.continuous inside along row (Finset.mem_range.1 member) col
    (Finset.mem_range.1 colMember)).mul continuousWithinAt_const

theorem hasDerivWithinAt (inside : region point) (along : direction.shape = smooth.shape) :
    HasDerivWithinAt (fun time => smooth.value (point.addScaled time direction))
      ((smooth.gradient point).inner direction)
      {time | region (point.addScaled time direction)} 0 := by
  have same : point.shape = direction.shape := (convex.shape inside).trans along.symm
  have start : point.addScaled 0 direction = point := Mat.addScaled_zero same
  have member : (0 : ℝ) ∈ {time | region (point.addScaled time direction)} := by
    change region (point.addScaled 0 direction)
    rwa [start]
  have derivative := hasDerivWithinAt_of_tangents member
    (fun _ firstInside _ secondInside => convex.above_line inside along firstInside secondInside)
    (convex.continuousWithinAt_slope inside along)
  rwa [start] at derivative

end ConvexOn

theorem Convex.hasDerivAt {smooth : Smooth ℝ} {point direction : Mat ℝ} (convex : smooth.Convex)
    (shape : point.shape = smooth.shape) (along : direction.shape = smooth.shape) :
    HasDerivAt (fun time => smooth.value (point.addScaled time direction))
      ((smooth.gradient point).inner direction) 0 := by
  have everywhere : {time : ℝ | (point.addScaled time direction).shape = smooth.shape} = Set.univ :=
    Set.eq_univ_of_forall fun _ => shape
  have derivative := convex.convexOn.hasDerivWithinAt shape along
  rwa [everywhere, hasDerivWithinAt_univ] at derivative

end Smooth

/-- For losses of the natural families, as they are constructed, under any design that produces their
predictors and with any ridge term that is not negative, the function lies above its tangents and below
its chords, and the gradient is its derivative in every direction. -/
theorem Composed.gradient_exact {function : Composed ℝ} (constructed : function.loss.Constructed)
    (family : ∀ cloglog, function.loss ≠ .cloglog cloglog)
    (outputs : function.loss.shape = function.design.outputShape)
    (ridged : ∀ ridge ∈ function.ridge, ridge.diag.shape = function.shape ∧
      ∀ row col, 0 ≤ ridge.diag.get row col)
    {point other : Mat ℝ} (shape : point.shape = function.shape)
    (otherShape : other.shape = function.shape) :
    function.value point + (function.gradient point).inner (other.addScaled (-1) point) ≤
        function.value other ∧
      (∀ time, 0 ≤ time → time ≤ 1 →
        function.value (point.addScaled time (other.addScaled (-1) point)) ≤
          (1 - time) * function.value point + time * function.value other) ∧
      HasDerivAt (fun time => function.value (point.addScaled time (other.addScaled (-1) point)))
        ((function.gradient point).inner (other.addScaled (-1) point)) 0 := by
  have natural := constructed.sound.natural family
  have convex := Composed.convex natural.convex outputs ridged
  have along : (other.addScaled (-1) point).shape = function.smooth.shape := otherShape
  have finish : point.addScaled 1 (other.addScaled (-1) point) = other :=
    Mat.addScaled_difference (shape.trans otherShape.symm)
  refine ⟨convex.above shape otherShape, fun time nonneg le_one => ?_, convex.hasDerivAt shape along⟩
  have chord := convex.convexOn.le_chord shape along nonneg le_one shape shape
  rwa [finish] at chord

theorem Composed.gradient_exact_poisson :
    let loss : Poisson ℝ := ⟨#[3], some #[1], #[2]⟩
    let ridge : Ridge ℝ := ⟨.ofFn 1 1 fun _ _ => 1 / 2⟩
    let function : Composed ℝ := ⟨.poisson loss, .block (.ofFn 1 1 fun _ _ => 2) [], some ridge⟩
    let other : Mat ℝ := .ofFn 1 1 fun _ _ => 1
    function.loss.Constructed ∧ function.loss.shape = function.design.outputShape ∧
      function.value (.zero 1 1) + (function.gradient (.zero 1 1)).inner
          (other.addScaled (-1) (.zero 1 1)) ≤ function.value other ∧
      HasDerivAt
        (fun time => function.value ((Mat.zero 1 1).addScaled time (other.addScaled (-1) (.zero 1 1))))
        ((function.gradient (.zero 1 1)).inner (other.addScaled (-1) (.zero 1 1))) 0 := by
  intro loss ridge function other
  have counted : Poisson.ofCounts #[3] = .ok (⟨#[3], none, CaseWeights.unit 1⟩ : Poisson ℝ) := by
    simp [Poisson.ofCounts]
  have shifted : Poisson.withOffset ⟨#[3], none, CaseWeights.unit 1⟩ #[1] =
      .ok (⟨#[3], some #[1], CaseWeights.unit 1⟩ : Poisson ℝ) := rfl
  have accepted : CaseWeights.validate #[2] 1 = (.ok () : Except (Failure ℝ) Unit) :=
    Failure.bind_eq_ok.2 ⟨(), rfl, Failure.unless_eq_ok.2 (by simp)⟩
  have weighted : Poisson.weighted ⟨#[3], some #[1], CaseWeights.unit 1⟩ #[2] = .ok loss :=
    Failure.bind_eq_ok.2 ⟨(), accepted, rfl⟩
  have constructed : function.loss.Constructed :=
    .weightedPoisson (.offsetPoisson (.poisson counted) shifted) weighted
  have nonneg : ∀ row col, 0 ≤ ridge.diag.get row col := by
    intro row col
    by_cases inside : row < 1 ∧ col < 1
    · have entry : ridge.diag.get row col = 1 / 2 := Mat.get_ofFn _ inside.1 inside.2
      rw [entry]
      positivity
    · exact (Mat.get_eq_zero (by change 1 ≤ row ∨ 1 ≤ col; omega)).ge
  have ridged : ∀ term ∈ function.ridge, term.diag.shape = function.shape ∧
      ∀ row col, 0 ≤ term.diag.get row col := by
    rintro _ ⟨⟩
    exact ⟨rfl, nonneg⟩
  have exact := Composed.gradient_exact constructed nofun rfl ridged
    (rfl : (Mat.zero 1 1 : Mat ℝ).shape = function.shape) (rfl : other.shape = function.shape)
  exact ⟨constructed, rfl, exact.1, exact.2.2⟩

end GroupLasso
