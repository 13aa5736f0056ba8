import GroupLasso.Proofs.Design
import GroupLasso.Proofs.Restriction

/-!
The adjoint of a design and its restrictions. An inner product with a linear predictor is the inner
product of the coefficients with the adjoint, restricting a design selects rows of its adjoint, and
restricting twice is restricting once, to the groups that the second list picks out of the first. No
argument of the right extent is refused on the way, also where there are no cases or no groups.
-/

namespace GroupLasso.Design

open Failure

section
variable {α : Type} {design : Design α}

/-- A shared matrix is taken as it is, and blocks are checked. -/
inductive Constructed : Design α → Prop
  | dense (matrix : Mat α) (responses : Nat) : Constructed (.dense matrix responses)
  | blocks {blocks : List (Mat α)} {design : Design α} :
      ofBlocks blocks = .ok design → Constructed design

theorem ofBlocks_eq_ok {blocks : List (Mat α)} : ofBlocks blocks = .ok design ↔
    ∃ first rest, blocks = first :: rest ∧ (∀ block ∈ rest, block.shape = first.shape) ∧
      design = .block first rest := by
  cases blocks with
  | nil => exact ⟨nofun, nofun⟩
  | cons first rest =>
      unfold ofBlocks
      simp only [bind_eq_ok, forIn_eq_ok, expectShape_eq_ok]
      constructor
      · rintro ⟨_, same, built⟩
        cases built
        exact ⟨first, rest, rfl, fun block listed => (same block listed).symm, rfl⟩
      · rintro ⟨_, _, split, same, rfl⟩
        cases split
        exact ⟨(), fun block listed => (same block listed).symm, rfl⟩

end

section
variable {α : Type} [Scalar α] {design : Design α} {coef output : Mat α} {groups : List Nat}

theorem Constructed.restrict (constructed : design.Constructed) (groups : List Nat) :
    (design.restrict groups).Constructed := by
  cases constructed with
  | dense matrix responses => exact .dense (matrix.selectColumns groups) responses
  | blocks accepted =>
      obtain ⟨first, rest, -, same, rfl⟩ := ofBlocks_eq_ok.1 accepted
      have selected : ∀ block ∈ rest.map (·.selectColumns groups),
          block.shape = (first.selectColumns groups).shape := by
        intro block listed
        obtain ⟨source, member, rfl⟩ := List.mem_map.1 listed
        exact congrArg (Shape.mk · groups.length) (Mat.rows_eq (same source member))
      exact .blocks (ofBlocks_eq_ok.2 ⟨_, _, rfl, selected, rfl⟩)

theorem dot?_eq (shape : coef.shape = design.inputShape) :
    design.dot? coef = some (design.dot coef) := by
  have rows : coef.rows = design.inputShape.rows := Mat.rows_eq shape
  have cols : coef.cols = design.responses := Mat.cols_eq shape
  unfold dot?
  cases design with
  | dense matrix responses => exact if_pos (decide_eq_true rows.symm)
  | block first rest => exact if_pos (decide_eq_true ⟨cols.ge, rows.symm⟩)

theorem adjoint?_eq (shape : output.shape = design.outputShape) :
    design.adjoint? output = some (design.adjoint output) := by
  have rows : output.rows = design.outputShape.rows := Mat.rows_eq shape
  have cols : output.cols = design.responses := Mat.cols_eq shape
  unfold adjoint?
  cases design with
  | dense matrix responses => exact if_pos (decide_eq_true rows.symm)
  | block first rest => exact if_pos (decide_eq_true ⟨cols.ge, rows.symm⟩)

theorem restrict?_eq (inRange : ∀ group ∈ groups, group < design.inputShape.rows) :
    design.restrict? groups = some (design.restrict groups) := if_pos (.inr inRange)

theorem restrict_restrict (design : Design α) {positions : List Nat}
    (inRange : ∀ position ∈ positions, position < groups.length) :
    (design.restrict groups).restrict positions =
      design.restrict (positions.map fun position => groups.getD position 0) := by
  cases design with
  | dense matrix responses =>
      exact congrArg (Design.dense · responses) (matrix.selectColumns_selectColumns inRange)
  | block first rest =>
      simp only [Design.restrict, List.map_map, Function.comp_def,
        Mat.selectColumns_selectColumns _ inRange]

end

section
variable {design : Design ℝ} {coef output : Mat ℝ}

theorem inner_dot (shape : coef.shape = design.inputShape)
    (outputShape : output.shape = design.outputShape) :
    (design.dot coef).inner output = coef.inner (design.adjoint output) := by
  have predictor : (design.dot coef).shape = output.shape := (shape_dot shape).trans outputShape.symm
  have gradient : (design.adjoint output).shape = coef.shape :=
    (shape_adjoint design outputShape).trans shape.symm
  calc (design.dot coef).inner output
      = output.inner (design.dot coef) := Mat.inner_comm predictor
    _ = (design.adjoint output).inner coef := (inner_adjoint shape outputShape).symm
    _ = coef.inner (design.adjoint output) := Mat.inner_comm gradient

/-- The inner product of a linear predictor with an output is that of the coefficients with the adjoint of
the output. Restricted to groups in range, in any order and with repetitions, a design is again one that the
constructors return; its adjoint has the listed rows of the full adjoint, its output shape does not change,
and a second restriction comes to one restriction to the groups that it picks out of the list. -/
theorem adjoint_restricts (constructed : design.Constructed) :
    (∀ coef output : Mat ℝ, coef.shape = design.inputShape → output.shape = design.outputShape →
      ∃ predictor gradient value, design.dot? coef = some predictor ∧
        design.adjoint? output = some gradient ∧
        predictor.inner? output = some value ∧ coef.inner? gradient = some value) ∧
    ∀ groups : List Nat, (∀ group ∈ groups, group < design.inputShape.rows) →
      ∃ restricted, design.restrict? groups = some restricted ∧ restricted.Constructed ∧
        restricted.inputShape = ⟨groups.length, design.inputShape.cols⟩ ∧
        restricted.outputShape = design.outputShape ∧
        (∀ output : Mat ℝ, output.shape = design.outputShape →
          ∃ gradient rows, design.adjoint? output = some gradient ∧
            gradient.selectRows? groups = some rows ∧ restricted.adjoint? output = some rows) ∧
        ∀ positions : List Nat, (∀ position ∈ positions, position < groups.length) →
          ∃ again, restricted.restrict? positions = some again ∧
            design.restrict? (positions.map fun position => groups.getD position 0) = some again ∧
            again.outputShape = design.outputShape := by
  refine ⟨?_, ?_⟩
  · intro coef output shape outputShape
    have predictor : (design.dot coef).shape = output.shape :=
      (shape_dot shape).trans outputShape.symm
    have gradient : coef.shape = (design.adjoint output).shape :=
      shape.trans (shape_adjoint design outputShape).symm
    refine ⟨_, _, _, dot?_eq shape, adjoint?_eq outputShape, Mat.inner?_eq predictor, ?_⟩
    rw [inner_dot shape outputShape]
    exact Mat.inner?_eq gradient
  · intro groups inRange
    refine ⟨_, restrict?_eq inRange, constructed.restrict groups, inputShape_restrict design,
      outputShape_restrict design, ?_, ?_⟩
    · intro output outputShape
      have restrictedShape : output.shape = (design.restrict groups).outputShape :=
        outputShape.trans (outputShape_restrict design).symm
      have rows : ∀ group ∈ groups, group < (design.adjoint output).rows := by
        rwa [rows_adjoint]
      refine ⟨_, _, adjoint?_eq outputShape, Mat.selectRows?_eq _ rows, ?_⟩
      rw [adjoint?_eq restrictedShape, adjoint_restrict design output inRange]
    · intro positions picks
      have inside : ∀ position ∈ positions, position < (design.restrict groups).inputShape.rows := by
        rwa [inputShape_restrict]
      have composed : ∀ group ∈ positions.map fun position => groups.getD position 0,
          group < design.inputShape.rows := by
        intro group picked
        obtain ⟨position, member, rfl⟩ := List.mem_map.1 picked
        exact Mat.getD_lt inRange (picks position member)
      refine ⟨_, restrict?_eq inside, ?_, ?_⟩
      · rw [restrict?_eq composed, restrict_restrict design picks]
      · rw [outputShape_restrict, outputShape_restrict]

theorem adjoint_restricts_repeated :
    let first : Mat ℝ := .ofFn 1 2 fun _ col => if col = 0 then 1 else 2
    let second : Mat ℝ := .ofFn 1 2 fun _ col => if col = 0 then 3 else 4
    let design := block first [second]
    let coef : Mat ℝ := .ofFn 2 2 fun _ _ => 1
    let output : Mat ℝ := .ofFn 1 2 fun _ col => if col = 0 then 1 else 2
    ofBlocks [first, second] = .ok design ∧
      coef.shape = design.inputShape ∧ output.shape = design.outputShape ∧
      (∃ predictor gradient, design.dot? coef = some predictor ∧
        design.adjoint? output = some gradient ∧
        predictor.inner? output = some 17 ∧ coef.inner? gradient = some 17) ∧
      (∀ group ∈ [1, 1, 0], group < design.inputShape.rows) ∧
      (∀ position ∈ [2, 0], position < [1, 1, 0].length) ∧
      ∃ restricted gradient rows again, design.restrict? [1, 1, 0] = some restricted ∧
        design.adjoint? output = some gradient ∧ gradient.selectRows? [1, 1, 0] = some rows ∧
        restricted.adjoint? output = some rows ∧
        restricted.restrict? [2, 0] = some again ∧ design.restrict? [0, 1] = some again := by
  intro first second design coef output
  have accepted : ofBlocks [first, second] = .ok design :=
    ofBlocks_eq_ok.2 ⟨first, [second], rfl, by simp [first, second, Mat.shape], rfl⟩
  have shape : coef.shape = design.inputShape := rfl
  have outputShape : output.shape = design.outputShape := rfl
  have inRange : ∀ group ∈ [1, 1, 0], group < design.inputShape.rows := by
    change ∀ group ∈ [1, 1, 0], group < 2
    decide
  obtain ⟨adjoint, restricts⟩ := adjoint_restricts (.blocks accepted)
  obtain ⟨restricted, chosen, -, -, -, adjoins, twice⟩ := restricts [1, 1, 0] inRange
  obtain ⟨gradient, rows, full, selected, same⟩ := adjoins output outputShape
  obtain ⟨again, inner, outer, -⟩ := twice [2, 0] (by decide)
  have entry : ∀ (rows : Nat) (entries : Nat → Nat → ℝ), ∀ row < rows, ∀ col < 2,
      (Mat.ofFn rows 2 entries).get row col = entries row col :=
    fun rows entries row bound col colBound => Mat.get_ofFn entries bound colBound
  have total : (design.dot coef).inner output = 17 := by
    rw [Mat.inner_real]
    change ∑ row ∈ Finset.range 1, ∑ col ∈ Finset.range 2,
      (design.dot coef).get row col * output.get row col = 17
    rw [Finset.sum_range_one, Finset.sum_range_succ, Finset.sum_range_one, get_dot shape one_pos,
      get_dot shape one_pos]
    change (∑ group ∈ Finset.range 2, first.get 0 group * coef.get group 0) * output.get 0 0 +
      (∑ group ∈ Finset.range 2, second.get 0 group * coef.get group 1) * output.get 0 1 = 17
    norm_num [Finset.sum_range_succ, first, second, coef, output, entry]
  obtain ⟨predictor, transposed, value, dotted, moved, left, right⟩ :=
    adjoint coef output shape outputShape
  obtain rfl : design.dot coef = predictor := Option.some.inj ((dot?_eq shape).symm.trans dotted)
  have sum : (design.dot coef).inner? output = some 17 := by
    rw [Mat.inner?_eq ((shape_dot shape).trans outputShape.symm), total]
  obtain rfl : value = 17 := Option.some.inj (left.symm.trans sum)
  exact ⟨accepted, shape, outputShape, ⟨_, transposed, dotted, moved, left, right⟩, inRange, by decide,
    restricted, gradient, rows, again, chosen, full, selected, same, inner, outer⟩

end

end GroupLasso.Design
