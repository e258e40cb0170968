/-! Positions on a ring of a fixed size, as remainders of counts that only grow.
Counts less than a full turn apart have different positions, and the distance
from one to the other can be read off the positions. -/

namespace AxbyCore.RingIndex

variable {size : Nat}

theorem ne_of_lt {first second : Nat} (less : first < second) (near : second < first + size) :
    first % size ≠ second % size := by
  intro same
  have divides := Nat.sub_mod_eq_zero_of_mod_eq same.symm
  rw [Nat.mod_eq_of_lt (by omega)] at divides
  omega

theorem eq_iff {first second : Nat} (ordered : first ≤ second) (near : second < first + size) :
    first % size = second % size ↔ first = second := by
  constructor
  · intro same
    rcases Nat.lt_or_eq_of_le ordered with less | equal
    · exact absurd same (ne_of_lt less near)
    · exact equal
  · intro same
    rw [same]

/-- The position after `second` is that of `first` only when `second` is a full turn less one ahead. -/
theorem succ_eq_iff {first second : Nat} (ordered : first ≤ second) (near : second < first + size) :
    (second % size + 1) % size = first % size ↔ second + 1 = first + size := by
  rw [Nat.mod_add_mod]
  rcases Nat.lt_or_eq_of_le (show second + 1 ≤ first + size by omega) with less | equal
  · have different := ne_of_lt (show first < second + 1 by omega) less
    constructor
    · exact fun same => absurd same.symm different
    · omega
  · simp [equal]

theorem distance (start offset : Nat) (small : offset < size) :
    ((start + offset) % size + size - start % size) % size = offset := by
  have below : start % size < size := Nat.mod_lt _ (by omega)
  have sum : (start + offset) % size = (start % size + offset) % size := by
    rw [Nat.mod_add_mod]
  rw [sum]
  by_cases wraps : start % size + offset < size
  · rw [Nat.mod_eq_of_lt wraps, show start % size + offset + size - start % size = offset + size by omega,
      Nat.add_mod_right, Nat.mod_eq_of_lt small]
  · rw [Nat.mod_eq_sub_mod (show size ≤ start % size + offset by omega),
      Nat.mod_eq_of_lt (show start % size + offset - size < size by omega),
      show start % size + offset - size + size - start % size = offset by omega, Nat.mod_eq_of_lt small]

/-- One position back, with the size added so that the difference is not negative. -/
theorem pred (count : Nat) (positive : 0 < size) :
    ((count + 1) % size + size - 1) % size = count % size := by
  rw [Nat.add_sub_assoc positive, Nat.mod_add_mod, show count + 1 + (size - 1) = count + size by omega,
    Nat.add_mod_right]

end AxbyCore.RingIndex
