import GroupLasso.IndexSet
import Mathlib.Data.List.Sort

/-!
Membership in masks and in the ascending lists of their members. There is one ascending list of given
members, so that a mask lists the positions it was made of in sorted order.
-/

namespace GroupLasso

theorem eq_of_ascending {first second : List Nat} (firstAscends : first.Pairwise (· < ·))
    (secondAscends : second.Pairwise (· < ·)) (members : ∀ index, index ∈ first ↔ index ∈ second) :
    first = second := by
  have distinct : ∀ {list : List Nat}, list.Pairwise (· < ·) → list.Nodup :=
    fun ascends => ascends.imp Nat.ne_of_lt
  have perm : first.Perm second :=
    (List.perm_ext_iff_of_nodup (distinct firstAscends) (distinct secondAscends)).2 members
  exact perm.eq_of_pairwise (fun _ _ _ _ before after => absurd after before.asymm)
    firstAscends secondAscends

theorem mergeSort_ascending {indices : List Nat} (distinct : indices.Nodup) :
    indices.mergeSort.Pairwise (· < ·) := by
  have sorted := List.pairwise_mergeSort' (· ≤ ·) indices
  have unrepeated : indices.mergeSort.Nodup := (List.mergeSort_perm _ _).nodup_iff.2 distinct
  exact (sorted.and unrepeated).imp fun both => Nat.lt_of_le_of_ne both.1 both.2

namespace Mask

theorem mem_toIndices {mask : Mask} {index : Nat} :
    index ∈ mask.toIndices ↔ mask.contains index = true := by
  rw [toIndices, List.mem_filter, List.mem_range]
  refine ⟨And.right, fun present => ⟨?_, present⟩⟩
  by_cases bound : index < mask.length
  · exact bound
  · simp [contains, List.getElem?_eq_none (Nat.le_of_not_lt bound)] at present

theorem toIndices_eq_nil {mask : Mask} :
    mask.toIndices = [] ↔ ∀ member ∈ mask, member = false := by
  rw [toIndices, List.filter_eq_nil_iff]
  constructor
  · intro none member listed
    obtain ⟨index, bound, rfl⟩ := List.mem_iff_getElem.1 listed
    simpa [contains, bound] using none index (List.mem_range.2 bound)
  · intro none index listed
    have bound := List.mem_range.1 listed
    simpa [contains, bound] using none _ (List.getElem_mem bound)

theorem contains_insert_ne {mask : Mask} {group other : Nat} (distinct : other ≠ group) :
    (mask.insert group).contains other = mask.contains other := by
  simp [insert, contains, List.getD_eq_getElem?_getD, List.getElem?_set_ne distinct.symm]

theorem contains_insert {mask : Mask} {group other : Nat} :
    (mask.insert group).contains other = true ↔
      mask.contains other = true ∨ other = group ∧ other < mask.length := by
  by_cases same : other = group
  · subst other
    by_cases bound : group < mask.length
    · simp [insert, contains, bound]
    · simp [insert, contains, bound]
  · rw [contains_insert_ne same]
    simp [same]

theorem contains_insert_eq_false {mask : Mask} {group other : Nat} (bound : group < mask.length) :
    (mask.insert group).contains other = false ↔ mask.contains other = false ∧ other ≠ group := by
  by_cases same : other = group
  · subst same
    simp [insert, contains, bound]
  · simp [contains_insert_ne same, same]

theorem length_insertAll (mask : Mask) (groups : List Nat) :
    (mask.insertAll groups).length = mask.length := by
  unfold insertAll
  induction groups generalizing mask with
  | nil => rfl
  | cons group rest ih => rw [List.foldl_cons, ih, insert, List.length_set]

theorem contains_insertAll {mask : Mask} {groups : List Nat} {index : Nat} :
    (mask.insertAll groups).contains index = true ↔
      mask.contains index = true ∨ index ∈ groups ∧ index < mask.length := by
  unfold insertAll
  induction groups generalizing mask with
  | nil => simp
  | cons group rest ih =>
      rw [List.foldl_cons, ih, contains_insert, insert, List.length_set, List.mem_cons,
        or_assoc, or_and_right]

@[simp] theorem length_empty (count : Nat) : (empty count).length = count := List.length_replicate

@[simp] theorem contains_empty (count index : Nat) : (empty count).contains index = false := by
  by_cases bound : index < count <;> simp [empty, contains, bound]

theorem length_ofIndices (indices : List Nat) (count : Nat) :
    (ofIndices indices count).length = count := by
  rw [ofIndices, length_insertAll, length_empty]

theorem contains_ofIndices {indices : List Nat} {count index : Nat} :
    (ofIndices indices count).contains index = true ↔ index ∈ indices ∧ index < count := by
  simp [ofIndices, contains_insertAll]

theorem contains_union {left right : Mask} (lengths : left.length = right.length) {index : Nat} :
    (left.union right).contains index = true ↔
      left.contains index = true ∨ right.contains index = true := by
  by_cases bound : index < left.length
  · simp [union, contains, bound, lengths ▸ bound]
  · have beyond : ¬ index < right.length := lengths ▸ bound
    simp [union, contains, bound, beyond]

theorem sorted_toIndices (mask : Mask) : mask.toIndices.Pairwise (· < ·) :=
  List.pairwise_lt_range.filter _

theorem toIndices_ofIndices {indices : List Nat} {count : Nat} (distinct : indices.Nodup)
    (inRange : ∀ index ∈ indices, index < count) :
    (ofIndices indices count).toIndices = indices.mergeSort := by
  refine eq_of_ascending (sorted_toIndices _) (mergeSort_ascending distinct) fun index => ?_
  rw [mem_toIndices, contains_ofIndices, List.mem_mergeSort]
  exact and_iff_left_of_imp (inRange index)

end Mask

end GroupLasso
