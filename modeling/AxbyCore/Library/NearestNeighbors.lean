import Mathlib.Data.List.Nodup
import Mathlib.Order.Lattice
import Mathlib.Tactic.Common

/-! Searches for the nearest of points whose distances are known. Among points of one
distance a search may take any. -/

namespace AxbyCore

variable {K : Type*} [LinearOrder K]

/-- What a search for a number of points may return: indices with their distances, such that
no point left out is nearer. -/
structure Nearest (distances : List K) (count : Nat) (found : List (Nat × K)) : Prop where
  length : found.length = min count distances.length
  distinct : (found.map Prod.fst).Nodup
  measured : ∀ entry ∈ found, distances[entry.1]? = some entry.2
  omitted : ∀ i distance, distances[i]? = some distance → i ∉ found.map Prod.fst →
    ∀ entry ∈ found, entry.2 ≤ distance

/-- If any point is within a radius, one that is found is. -/
theorem Nearest.within {distances : List K} {count : Nat} {found : List (Nat × K)} (nearest : Nearest distances count found)
    (positive : 0 < count) {distance radius : K} (held : distance ∈ distances) (within : distance ≤ radius) :
    ∃ entry ∈ found, entry.2 ≤ radius := by
  obtain ⟨i, known⟩ := List.mem_iff_getElem?.mp held
  by_cases taken : i ∈ found.map Prod.fst
  · obtain ⟨entry, member, rfl⟩ := List.mem_map.mp taken
    obtain rfl := Option.some.inj (known.symm.trans (nearest.measured entry member))
    exact ⟨entry, member, within⟩
  · have any : 0 < found.length := by
      rw [nearest.length]
      exact Nat.lt_min.mpr ⟨positive, List.length_pos_of_mem held⟩
    obtain ⟨entry, member⟩ := List.exists_mem_of_length_pos any
    exact ⟨entry, member, le_trans (nearest.omitted i distance known taken entry member) within⟩

/-- The search that sorts all points. -/
def exhaustiveSearch (distances : List K) (count : Nat) : List (Nat × K) :=
  ((distances.zipIdx.map Prod.swap).mergeSort fun entry other => entry.2 ≤ other.2).take count

theorem exhaustiveSearch_nearest (distances : List K) (count : Nat) :
    Nearest distances count (exhaustiveSearch distances count) := by
  let entries := distances.zipIdx.map Prod.swap
  let sorted := entries.mergeSort fun entry other => entry.2 ≤ other.2
  have perm : sorted.Perm entries := List.mergeSort_perm ..
  have known (entry : Nat × K) : entry ∈ sorted ↔ distances[entry.1]? = some entry.2 := by
    rw [perm.mem_iff, List.mem_map]
    constructor
    · rintro ⟨pair, member, rfl⟩
      exact List.mem_zipIdx_iff_getElem?.mp member
    · intro held
      exact ⟨entry.swap, List.mem_zipIdx_iff_getElem?.mpr held, rfl⟩
  have distinct : (sorted.map Prod.fst).Nodup := by
    apply (perm.map _).nodup_iff.mpr
    have indices : entries.map Prod.fst = distances.zipIdx.map Prod.snd := List.map_map ..
    rw [indices, List.zipIdx_map_snd]
    exact List.nodup_range'
  have ordered : sorted.Pairwise fun entry other => entry.2 ≤ other.2 := by
    have pairwise := @List.pairwise_mergeSort _ (fun entry other : Nat × K => decide (entry.2 ≤ other.2)) ?_ ?_ entries
    · simpa using pairwise
    · intro first second third before after
      exact decide_eq_true (le_trans (of_decide_eq_true before) (of_decide_eq_true after))
    · intro first second
      simpa using le_total first.2 second.2
  constructor
  · calc (sorted.take count).length = min count sorted.length := List.length_take
      _ = min count distances.length := by rw [perm.length_eq, List.length_map, List.length_zipIdx]
  · exact distinct.sublist ((List.take_sublist count sorted).map _)
  · intro entry member
    exact (known entry).mp (List.mem_of_mem_take member)
  · intro i distance held left entry member
    have member' : (i, distance) ∈ sorted.take count ++ sorted.drop count := by
      rw [List.take_append_drop]
      exact (known (i, distance)).mpr held
    rcases List.mem_append.mp member' with taken | dropped
    · exact absurd (List.mem_map.mpr ⟨_, taken, rfl⟩) left
    · rw [← List.take_append_drop count sorted] at ordered
      exact (List.pairwise_append.mp ordered).2.2 entry member (i, distance) dropped

end AxbyCore
