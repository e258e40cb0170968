import Mathlib.Algebra.BigOperators.Ring.List
import Mathlib.Algebra.Order.BigOperators.Group.List
import Mathlib.Algebra.Order.Field.Basic

/-! Means with positive weights. -/

namespace AxbyCore

variable {ι K : Type*} [Field K]

def weightedMean (weight value : ι → K) (entries : List ι) : K :=
  (entries.map fun entry => value entry * weight entry).sum / (entries.map weight).sum

variable [LinearOrder K] [IsStrictOrderedRing K] {weight value : ι → K} {entries : List ι}

/-- The weighted sum of the values is that of their mean. -/
theorem weightedMean_sum (value : ι → K) (positive : ∀ entry ∈ entries, 0 < weight entry) (nonempty : entries ≠ []) :
    (entries.map fun entry => value entry * weight entry).sum =
      (entries.map fun entry => weightedMean weight value entries * weight entry).sum := by
  have total : 0 < (entries.map weight).sum := by
    apply List.sum_pos
    · intro w member
      obtain ⟨entry, inside, rfl⟩ := List.mem_map.mp member
      exact positive entry inside
    · exact fun empty => nonempty (List.map_eq_nil_iff.mp empty)
  rw [List.sum_map_mul_left]
  exact (div_mul_cancel₀ _ total.ne').symm

theorem exists_le_weightedMean (positive : ∀ entry ∈ entries, 0 < weight entry) (nonempty : entries ≠ []) :
    ∃ entry ∈ entries, value entry ≤ weightedMean weight value entries := by
  obtain ⟨entry, member, below⟩ := List.exists_le_of_sum_le nonempty _ _ (weightedMean_sum value positive nonempty).le
  exact ⟨entry, member, le_of_mul_le_mul_right below (positive entry member)⟩

theorem exists_weightedMean_le (positive : ∀ entry ∈ entries, 0 < weight entry) (nonempty : entries ≠ []) :
    ∃ entry ∈ entries, weightedMean weight value entries ≤ value entry := by
  obtain ⟨entry, member, above⟩ := List.exists_le_of_sum_le nonempty _ _ (weightedMean_sum value positive nonempty).ge
  exact ⟨entry, member, le_of_mul_le_mul_right above (positive entry member)⟩

end AxbyCore
