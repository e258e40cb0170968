import Mathlib.Algebra.Ring.GeomSum
import Mathlib.Data.Int.ModEq
import Mathlib.NumberTheory.Multiplicity
import Mathlib.RingTheory.Coprime.Lemmas
import Mathlib.Tactic.Ring

/-! Iterating an affine map modulo a power of two. Where the multiplier is one more than a
multiple of four and the increment is odd, every orbit is as long as there are residues. -/

namespace AxbyCore.AffineIteration

def affine (a c x : Int) : Int := a * x + c

variable {a c x : Int}

theorem affine_modEq {modulus y : Int} (same : x ≡ y [ZMOD modulus]) : affine a c x ≡ affine a c y [ZMOD modulus] :=
  (same.mul_left a).add_right c

/-- How far an orbit has moved. -/
theorem iterate_affine (a c x : Int) (n : Nat) :
    (affine a c)^[n] x = x + ((a - 1) * x + c) * ∑ i ∈ Finset.range n, a ^ i := by
  induction n with
  | zero => simp
  | succ n ih =>
    rw [Function.iterate_succ_apply', ih, Finset.sum_range_succ']
    simp only [affine, pow_succ', ← Finset.mul_sum, pow_zero]
    ring

theorem odd_multiplier (four : 4 ∣ a - 1) : ¬ 2 ∣ a := by omega

/-- A sum of powers is as even as the number of its terms. -/
theorem emultiplicity_geomSum (four : 4 ∣ a - 1) (n : Nat) :
    emultiplicity 2 (∑ i ∈ Finset.range n, a ^ i) = emultiplicity 2 (n : Int) := by
  by_cases one : a = 1
  · simp [one]
  · have lifted := Int.two_pow_sub_pow' n four (odd_multiplier four)
    have finite : emultiplicity 2 (a - 1) ≠ ⊤ :=
      finiteMultiplicity_iff_emultiplicity_ne_top.mp (Int.finiteMultiplicity_iff.mpr ⟨by decide, sub_ne_zero.mpr one⟩)
    rw [one_pow, ← mul_geom_sum, emultiplicity_mul Int.prime_two] at lifted
    exact ENat.add_right_injective_of_ne_top finite lifted

theorem two_pow_dvd_geomSum (four : 4 ∣ a - 1) (k n : Nat) :
    (2 : Int) ^ k ∣ ∑ i ∈ Finset.range n, a ^ i ↔ 2 ^ k ∣ n := by
  rw [pow_dvd_iff_le_emultiplicity, emultiplicity_geomSum four, ← pow_dvd_iff_le_emultiplicity]
  exact_mod_cast Int.natCast_dvd_natCast

/-- An orbit is back at its start exactly after the multiples of the number of residues. -/
theorem iterate_modEq_iff (four : 4 ∣ a - 1) (odd : ¬ 2 ∣ c) (x : Int) (k n : Nat) :
    (affine a c)^[n] x ≡ x [ZMOD 2 ^ k] ↔ 2 ^ k ∣ n := by
  have unit : IsCoprime ((2 : Int) ^ k) ((a - 1) * x + c) := by
    apply IsCoprime.pow_left
    obtain ⟨half, even⟩ : 2 ∣ (a - 1) * x := dvd_mul_of_dvd_left (by omega) x
    obtain ⟨rest, whole⟩ : ∃ rest, c = 2 * rest + 1 := ⟨c / 2, by omega⟩
    refine ⟨-(half + rest), 1, ?_⟩
    rw [even, whole]
    ring
  rw [iterate_affine, ← two_pow_dvd_geomSum four, Int.modEq_comm, Int.modEq_iff_dvd, add_sub_cancel_left]
  exact ⟨unit.dvd_of_dvd_mul_left, fun divides => dvd_mul_of_dvd_right divides _⟩

end AxbyCore.AffineIteration
