import Mathlib.Algebra.Group.Nat.Defs
import Mathlib.Tactic.Common

/-! Natural numbers rounded to a significand of some width, half to even, and to the
53 bits of a double. Conversions and products of integers far from the exponent limits
round so. -/

namespace AxbyCore.Binary64

/-- The natural number nearest to a quotient, ties to even. -/
def nearest (n d : Nat) : Nat :=
  if 2 * (n % d) < d then n / d
  else if d < 2 * (n % d) then n / d + 1
  else n / d + n / d % 2

/-- The spacing at `n` of numbers with so many bits behind the leading one, when it is at least one. -/
def spacing (fraction n : Nat) : Nat := 2 ^ (n.log2 - fraction)

def roundTo (fraction n : Nat) : Nat := nearest n (spacing fraction n) * spacing fraction n

/-- The spacing of doubles at `n`, when it is at least one. -/
def unit (n : Nat) : Nat := 2 ^ (n.log2 - 52)

def round (n : Nat) : Nat := nearest n (unit n) * unit n

theorem nearest_bounds (n d : Nat) : n / d ≤ nearest n d ∧ nearest n d ≤ n / d + 1 := by
  unfold nearest
  split
  · omega
  · split
    · omega
    · omega

theorem nearest_mul (q : Nat) {d : Nat} (positive : 0 < d) : nearest (q * d) d = q := by
  unfold nearest
  rw [Nat.mul_mod_left, if_pos (by omega), Nat.mul_div_cancel q positive]

theorem nearest_mono {n m d : Nat} (le : n ≤ m) : nearest n d ≤ nearest m d := by
  have quotients : n / d ≤ m / d := Nat.div_le_div_right le
  rcases Nat.lt_or_ge (n / d) (m / d) with below | above
  · exact Nat.le_trans (nearest_bounds n d).2 (Nat.le_trans below (nearest_bounds m d).1)
  · have same : n / d = m / d := Nat.le_antisymm quotients above
    have remainders : n % d ≤ m % d := by
      have left := Nat.div_add_mod n d
      have right := Nat.div_add_mod m d
      rw [same] at left
      omega
    unfold nearest
    rw [same]
    split
    · split
      · omega
      · split <;> omega
    · split
      · split
        · omega
        · split <;> omega
      · split
        · omega
        · split <;> omega

section
variable {fraction : Nat}

theorem spacing_pos (fraction n : Nat) : 0 < spacing fraction n := Nat.two_pow_pos _

/-- Few bits are exact. -/
theorem roundTo_exact {n : Nat} (small : n < 2 ^ (fraction + 1)) : roundTo fraction n = n := by
  have fine : n.log2 - fraction = 0 := by
    by_cases zero : n = 0
    · rw [zero, Nat.log2_zero, Nat.zero_sub]
    · have := (Nat.log2_lt zero).mpr small
      omega
  have same := nearest_mul n Nat.one_pos
  rw [Nat.mul_one] at same
  simp only [roundTo, spacing, fine, Nat.pow_zero, Nat.mul_one, same]

/-- A power of two is a multiple of the spacing of anything up to it. -/
theorem spacing_dvd_two_pow {n k : Nat} (nonzero : n ≠ 0) (le : n ≤ 2 ^ k) : spacing fraction n ∣ 2 ^ k := by
  apply Nat.pow_dvd_pow
  have low := Nat.log2_self_le nonzero
  have := (Nat.pow_le_pow_iff_right (by decide)).mp (Nat.le_trans low le)
  omega

theorem roundTo_le_two_pow {n k : Nat} (le : n ≤ 2 ^ k) : roundTo fraction n ≤ 2 ^ k := by
  by_cases zero : n = 0
  · have least : roundTo fraction 0 = 0 := roundTo_exact (Nat.two_pow_pos _)
    rw [zero, least]
    exact Nat.zero_le _
  · obtain ⟨q, whole⟩ := @spacing_dvd_two_pow fraction _ _ zero le
    have mono := nearest_mono (d := spacing fraction n) le
    rw [whole, Nat.mul_comm, nearest_mul q (spacing_pos fraction n)] at mono
    calc roundTo fraction n = nearest n (spacing fraction n) * spacing fraction n := rfl
      _ ≤ q * spacing fraction n := Nat.mul_le_mul_right _ mono
      _ = 2 ^ k := by rw [whole, Nat.mul_comm]

theorem two_pow_le_roundTo {n k : Nat} (le : 2 ^ k ≤ n) : 2 ^ k ≤ roundTo fraction n := by
  have nonzero : n ≠ 0 := by
    have := Nat.two_pow_pos k
    omega
  have power : k ≤ n.log2 := (Nat.le_log2 nonzero).mpr le
  have low := Nat.log2_self_le nonzero
  -- the largest power of two up to `n` is a multiple of the spacing
  obtain ⟨q, whole⟩ : spacing fraction n ∣ 2 ^ n.log2 := Nat.pow_dvd_pow 2 (by omega)
  have mono := nearest_mono (d := spacing fraction n) low
  rw [whole, Nat.mul_comm, nearest_mul q (spacing_pos fraction n)] at mono
  calc 2 ^ k ≤ 2 ^ n.log2 := Nat.pow_le_pow_right (by decide) power
    _ = q * spacing fraction n := by rw [whole, Nat.mul_comm]
    _ ≤ roundTo fraction n := Nat.mul_le_mul_right _ mono

/-- Rounding keeps the order. -/
theorem roundTo_mono {n m : Nat} (le : n ≤ m) : roundTo fraction n ≤ roundTo fraction m := by
  by_cases zero : n = 0
  · have least : roundTo fraction 0 = 0 := roundTo_exact (Nat.two_pow_pos _)
    rw [zero, least]
    exact Nat.zero_le _
  · have nonzero : m ≠ 0 := by omega
    have upper : n < 2 ^ (n.log2 + 1) := Nat.lt_log2_self
    have lower := Nat.log2_self_le nonzero
    rcases Nat.lt_or_ge n.log2 m.log2 with below | above
    · have apart : 2 ^ (n.log2 + 1) ≤ 2 ^ m.log2 := Nat.pow_le_pow_right (by decide) below
      exact Nat.le_trans (roundTo_le_two_pow (Nat.le_of_lt upper)) (Nat.le_trans apart (two_pow_le_roundTo lower))
    · have same : n.log2 = m.log2 := by
        have := (Nat.le_log2 nonzero).mpr (Nat.le_trans (Nat.log2_self_le zero) le)
        omega
      simp only [roundTo, spacing, same]
      exact Nat.mul_le_mul_right _ (nearest_mono le)

end

theorem unit_pos (n : Nat) : 0 < unit n := spacing_pos 52 n

/-- Rounding down loses less than the spacing. -/
theorem lt_round_add_unit (n : Nat) : n < round n + unit n := by
  have low := Nat.mul_le_mul_right (unit n) (nearest_bounds n (unit n)).1
  have split := Nat.div_add_mod n (unit n)
  have remainder := Nat.mod_lt n (unit_pos n)
  rw [Nat.mul_comm] at split
  unfold round
  omega

/-- Up to 53 bits are exact. -/
theorem round_exact {n : Nat} (small : n < 2 ^ 53) : round n = n := roundTo_exact small

theorem round_le_two_pow {n k : Nat} (le : n ≤ 2 ^ k) : round n ≤ 2 ^ k := roundTo_le_two_pow le

theorem two_pow_le_round {n k : Nat} (le : 2 ^ k ≤ n) : 2 ^ k ≤ round n := two_pow_le_roundTo le

theorem round_mono {n m : Nat} (le : n ≤ m) : round n ≤ round m := roundTo_mono le

end AxbyCore.Binary64
