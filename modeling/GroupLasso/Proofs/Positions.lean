import GroupLasso.Proofs.Restriction

/-!
Lists of candidates as positions of rows. A list is accepted when its entries are distinct and in range,
and refused at its first entry that is not. Its mask holds the same positions in ascending order, and rows
go to the listed positions and come back from them in the order of the list.
-/

namespace GroupLasso.Restriction

section
variable {α : Type} {candidates : List Nat} {groups : Nat}

theorem candidateMask_accepts :
    (∃ mask, (candidateMask candidates groups : Except (Failure α) Mask) = .ok mask) ↔
      candidates.Nodup ∧ ∀ group ∈ candidates, group < groups := by
  simp only [candidateMask_eq_ok]
  constructor
  · rintro ⟨_, distinct, inRange, -⟩
    exact ⟨distinct, inRange⟩
  · rintro ⟨distinct, inRange⟩
    exact ⟨_, distinct, inRange, rfl⟩

theorem candidateMask_eq_error {failure : Failure α} :
    candidateMask candidates groups = .error failure ↔
      ∃ before group after, candidates = before ++ group :: after ∧
        before.Nodup ∧ (∀ earlier ∈ before, earlier < groups) ∧
        (groups ≤ group ∨ group ∈ before) ∧ failure = .invalidCandidate group groups := by
  rw [candidateMask, Failure.foldlM_eq_error]
  refine exists_congr fun before => exists_congr fun group => exists_congr fun after =>
    and_congr_right fun _ => ?_
  change (∃ reached, candidateMask before groups = .ok reached ∧ _) ↔ _
  simp only [candidateMask_eq_ok, addCandidate_eq_error]
  constructor
  · rintro ⟨_, ⟨distinct, inRange, rfl⟩, refused, rfl⟩
    exact ⟨distinct, inRange,
      refused.imp_right fun repeated => (Mask.contains_ofIndices.1 repeated).1, rfl⟩
  · rintro ⟨distinct, inRange, refused, rfl⟩
    refine ⟨_, ⟨distinct, inRange, rfl⟩, refused.imp_right fun repeated => ?_, rfl⟩
    exact Mask.contains_ofIndices.2 ⟨repeated, inRange group repeated⟩

end

section
variable {α : Type} [Scalar α]

/-- A list of candidates is accepted exactly when its entries are distinct and in range, and otherwise it is
refused at the first entry that is out of range or repeats an earlier one. The mask of an accepted list lists
it in sorted order, and is the mask that is made without checks. Rows written to the positions of an accepted
list are read back as they were, and no other row changes; a matrix that vanishes in the other rows comes
back from its listed rows. -/
theorem candidates_positions (candidates : List Nat) (groups : Nat) :
    ((∃ mask, (candidateMask candidates groups : Except (Failure α) Mask) = .ok mask) ↔
      candidates.Nodup ∧ ∀ group ∈ candidates, group < groups) ∧
    (∀ failure : Failure α, candidateMask candidates groups = .error failure ↔
      ∃ before group after, candidates = before ++ group :: after ∧
        before.Nodup ∧ (∀ earlier ∈ before, earlier < groups) ∧
        (groups ≤ group ∨ group ∈ before) ∧ failure = .invalidCandidate group groups) ∧
    ∀ mask, (candidateMask candidates groups : Except (Failure α) Mask) = .ok mask →
      mask.toIndices = candidates.mergeSort ∧ Mask.ofIndices candidates groups = mask ∧
      (∀ target source : Mat α, target.rows = groups →
        source.shape = ⟨candidates.length, target.cols⟩ →
        ∃ scattered, target.scatterRows? candidates source = some scattered ∧
          scattered.selectRows? candidates = some source ∧ scattered.shape = target.shape ∧
          ∀ row ∉ candidates, ∀ col, scattered.get row col = target.get row col) ∧
      ∀ matrix : Mat α, matrix.rows = groups →
        (∀ row ∉ candidates, ∀ col, matrix.get row col = 0) →
        ∃ listed, matrix.selectRows? candidates = some listed ∧
          (Mat.zero groups matrix.cols).scatterRows? candidates listed = some matrix := by
  refine ⟨candidateMask_accepts, fun _ => candidateMask_eq_error, fun mask accepted => ?_⟩
  obtain ⟨distinct, inRange, rfl⟩ := candidateMask_eq_ok.1 accepted
  refine ⟨Mask.toIndices_ofIndices distinct inRange, rfl, ?_, ?_⟩
  · rintro target source rfl shape
    have inside : ∀ group ∈ candidates, group < (target.scatterRows candidates source).rows := by
      rwa [Mat.rows_scatterRows]
    refine ⟨_, Mat.scatterRows?_eq inRange shape, ?_, Mat.shape_scatterFrom source target candidates 0,
      fun row unlisted col => Mat.get_scatterRows_unlisted target source distinct col unlisted⟩
    rw [Mat.selectRows?_eq _ inside, Mat.selectRows_scatterRows distinct inRange shape]
  · rintro matrix rfl vanishes
    let blank : Mat α := .zero matrix.rows matrix.cols
    have written : blank.scatterRows? candidates (matrix.selectRows candidates) =
        some (blank.scatterRows candidates (matrix.selectRows candidates)) :=
      Mat.scatterRows?_eq inRange rfl
    refine ⟨_, matrix.selectRows?_eq inRange, written.trans (congrArg some ?_)⟩
    exact Mat.scatterRows_selectRows distinct inRange rfl vanishes

end

theorem candidates_positions_falling :
    let target : Mat ℝ := .ofFn 3 1 fun _ _ => 7
    let source : Mat ℝ := .ofFn 2 1 fun row _ => if row = 0 then 5 else 6
    let matrix : Mat ℝ := .ofFn 3 1 fun row _ => if row = 1 then 0 else 8
    (candidateMask [2, 0] 3 : Except (Failure ℝ) Mask) = .ok [true, false, true] ∧
      Mask.toIndices [true, false, true] = [0, 2] ∧ Mask.ofIndices [2, 0] 3 = [true, false, true] ∧
      source.shape = ⟨2, target.cols⟩ ∧ target.rows = 3 ∧
      (∃ scattered, target.scatterRows? [2, 0] source = some scattered ∧
        scattered.selectRows? [2, 0] = some source ∧ scattered.get 1 0 = 7) ∧
      matrix.rows = 3 ∧ (∀ row ∉ [2, 0], ∀ col, matrix.get row col = 0) ∧
      (∃ listed, matrix.selectRows? [2, 0] = some listed ∧
        (Mat.zero 3 1).scatterRows? [2, 0] listed = some matrix) ∧
      (candidateMask [2, 0, 2, 7] 3 : Except (Failure ℝ) Mask) = .error (.invalidCandidate 2 3) := by
  intro target source matrix
  have accepted : (candidateMask [2, 0] 3 : Except (Failure ℝ) Mask) = .ok [true, false, true] := rfl
  have vanishes : ∀ row ∉ [2, 0], ∀ col, matrix.get row col = 0 := by
    intro row unlisted col
    simp only [List.mem_cons, List.not_mem_nil, or_false, not_or] at unlisted
    by_cases inside : row < 3 ∧ col < 1
    · have middle : row = 1 := by omega
      exact (Mat.get_ofFn _ inside.1 inside.2).trans (if_pos middle)
    · exact Mat.get_eq_zero (by change 3 ≤ row ∨ 1 ≤ col; omega)
  obtain ⟨-, -, laws⟩ := candidates_positions (α := ℝ) [2, 0] 3
  obtain ⟨sorted, unchecked, scatters, gathers⟩ := laws _ accepted
  obtain ⟨scattered, written, readBack, -, kept⟩ := scatters target source rfl rfl
  have middle : scattered.get 1 0 = 7 := (kept 1 (by decide) 0).trans (Mat.get_ofFn _ (by decide) one_pos)
  obtain ⟨-, refuses, -⟩ := candidates_positions (α := ℝ) [2, 0, 2, 7] 3
  have refused := (refuses (.invalidCandidate 2 3)).2
    ⟨[2, 0], 2, [7], rfl, by decide, by decide, .inr (by decide), rfl⟩
  exact ⟨accepted, sorted.trans (by cbv), unchecked, rfl, rfl, ⟨scattered, written, readBack, middle⟩,
    rfl, vanishes, gathers matrix rfl vanishes, refused⟩

end GroupLasso.Restriction
