import AxbyCore.Library.Binary64
import Mathlib.Data.Rat.Defs
import Mathlib.Algebra.Order.Field.Rat
import Mathlib.Algebra.Order.Field.Power
import Mathlib.Tactic.FieldSimp
import Mathlib.Tactic.Linarith
import Mathlib.Tactic.NormNum

/-! Natural numbers and their quotients rounded to the 24-bit significand of a float,
half to even, far from the exponent limits. -/

namespace AxbyCore.Binary32
open Binary64

def round (n : Nat) : Nat := roundTo 23 n

/-- The float nearest to `n / d`. The quotient is scaled until its floor has 24 bits or more. -/
def quotient (n d : Nat) : Rat :=
  let scale := 2 ^ (24 + d.log2)
  let unit := spacing 23 (n * scale / d)
  (nearest (n * scale) (d * unit) * unit : Nat) / (scale : Nat)

theorem round_exact {n : Nat} (small : n < 2 ^ 24) : round n = n := roundTo_exact small

theorem round_le_two_pow {n k : Nat} (le : n ≤ 2 ^ k) : round n ≤ 2 ^ k := roundTo_le_two_pow le

theorem two_pow_le_round {n k : Nat} (le : 2 ^ k ≤ n) : 2 ^ k ≤ round n := two_pow_le_roundTo le

theorem round_mono {n m : Nat} (le : n ≤ m) : round n ≤ round m := roundTo_mono le

theorem round_pos {n : Nat} (positive : 0 < n) : 0 < round n := two_pow_le_round (k := 0) positive

theorem quotient_self {n : Nat} (positive : 0 < n) : quotient n n = 1 := by
  have nonzero : ((2 ^ (24 + n.log2) : Nat) : Rat) ≠ 0 := Nat.cast_ne_zero.mpr (Nat.ne_of_gt (Nat.two_pow_pos _))
  unfold quotient
  dsimp only
  rw [Nat.mul_div_cancel_left _ positive]
  obtain ⟨q, whole⟩ : spacing 23 (2 ^ (24 + n.log2)) ∣ 2 ^ (24 + n.log2) :=
    spacing_dvd_two_pow (Nat.ne_of_gt (Nat.two_pow_pos _)) (Nat.le_refl _)
  generalize spacing 23 (2 ^ (24 + n.log2)) = unit at whole
  have unitPos : 0 < unit := by
    have := Nat.two_pow_pos (24 + n.log2)
    rw [whole] at this
    exact Nat.pos_of_mul_pos_right this
  have same : nearest (n * 2 ^ (24 + n.log2)) (n * unit) = q := by
    rw [whole, ← Nat.mul_assoc, Nat.mul_comm (n * unit) q]
    exact nearest_mul q (Nat.mul_pos positive unitPos)
  rw [same, Nat.mul_comm q, ← whole, div_self nonzero]

/-- A significand of 24 bits is kept, whatever its exponent. -/
theorem round_scaled {significand : Nat} (few : significand < 2 ^ 24) (exponent : Nat) :
    round (significand * 2 ^ exponent) = significand * 2 ^ exponent := by
  by_cases zero : significand = 0
  · rw [zero, Nat.zero_mul]
    exact round_exact (by decide)
  · have nonzero : significand * 2 ^ exponent ≠ 0 := Nat.mul_ne_zero zero (Nat.ne_of_gt (Nat.two_pow_pos _))
    have fine : (significand * 2 ^ exponent).log2 - 23 ≤ exponent := by
      have below : significand * 2 ^ exponent < 2 ^ (24 + exponent) := by
        rw [Nat.pow_add]
        exact Nat.mul_lt_mul_of_pos_right few (Nat.two_pow_pos _)
      have := (Nat.log2_lt nonzero).mpr below
      omega
    obtain ⟨q, whole⟩ : spacing 23 (significand * 2 ^ exponent) ∣ significand * 2 ^ exponent :=
      Nat.dvd_mul_left_of_dvd (Nat.pow_dvd_pow 2 fine) significand
    have same : nearest (significand * 2 ^ exponent) (spacing 23 (significand * 2 ^ exponent)) = q := by
      conv => lhs; arg 1; rw [whole, Nat.mul_comm]
      exact nearest_mul q (spacing_pos 23 _)
    unfold round roundTo
    rw [same, Nat.mul_comm, ← whole]

section
variable {K : Type*} [Field K] [LinearOrder K] [IsStrictOrderedRing K]

/-- The value of a float that is not infinite. -/
def IsFloat (value : K) : Prop := ∃ significand exponent : Int,
  |significand| < 2 ^ 24 ∧ -149 ≤ exponent ∧ exponent ≤ 104 ∧ value = significand * (2 : K) ^ exponent

/-- No float lies between a natural number and the float it is rounded to. -/
theorem IsFloat.le_round {value : K} (float : IsFloat value) {n : Nat} (le : value ≤ n) : value ≤ round n := by
  obtain ⟨significand, exponent, few, _, _, rfl⟩ := float
  rcases Nat.lt_or_ge n (2 ^ 24) with small | large
  · rw [round_exact small]
    exact le
  · rcases lt_or_ge ((2 : K) ^ 24) (significand * (2 : K) ^ exponent) with above | below
    · have bounded : (significand : K) < 2 ^ 24 := by
        exact_mod_cast (abs_lt.mp few).2
      have power : (0 : K) < 2 ^ exponent := zpow_pos two_pos _
      have signed : (0 : K) < significand := (mul_pos_iff_of_pos_right power).mp (lt_trans (by positivity) above)
      -- beyond 2^24 a float is an integer
      have positive : 0 < exponent := by
        by_contra negative
        have shrinks : (2 : K) ^ exponent ≤ 1 := zpow_le_one_of_nonpos₀ one_le_two (by omega)
        have : significand * (2 : K) ^ exponent ≤ significand := mul_le_of_le_one_right signed.le shrinks
        linarith
      obtain ⟨more, rfl⟩ := Int.eq_ofNat_of_zero_le positive.le
      obtain ⟨leading, rfl⟩ := Int.eq_ofNat_of_zero_le (by exact_mod_cast signed.le : 0 ≤ significand)
      have whole : ((leading : Int) : K) * (2 : K) ^ (more : Int) = ((leading * 2 ^ more : Nat) : K) := by
        push_cast
        rw [zpow_natCast]
      rw [whole] at le ⊢
      have short : leading < 2 ^ 24 := by
        have := (abs_lt.mp few).2
        omega
      have kept := round_mono (Nat.cast_le.mp le)
      rw [round_scaled short] at kept
      exact Nat.cast_le.mpr kept
    · calc significand * (2 : K) ^ exponent ≤ 2 ^ 24 := below
        _ = ((2 ^ 24 : Nat) : K) := by norm_num
        _ ≤ round n := Nat.cast_le.mpr (two_pow_le_round large)

end

end AxbyCore.Binary32
