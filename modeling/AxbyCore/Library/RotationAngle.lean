import AxbyCore.Library.Rotation
import Mathlib.Algebra.Order.BigOperators.Ring.Finset
import Mathlib.LinearAlgebra.Matrix.Adjugate
import Mathlib.LinearAlgebra.Matrix.Trace
import Mathlib.Tactic.FieldSimp
import Mathlib.Tactic.Linarith

/-! The angle of a rotation by its trace, its axis by its antisymmetric part, and the half
turn that a rotation by nearly half a turn is close to. -/

namespace AxbyCore.Rotation
open Matrix

section
variable {K : Type*} [CommRing K] {R : Matrix (Fin 3) (Fin 3) K}

theorem hat_mul_hat (w : Fin 3 → K) : hat w * hat w = vecMulVec w w - (w ⬝ᵥ w) • 1 := by
  ext i j
  fin_cases i <;> fin_cases j <;>
    simp [hat, Matrix.mul_apply, vecMulVec, dotProduct, Fin.sum_univ_three] <;> ring

theorem hat_cube {w : Fin 3 → K} (unit : w ⬝ᵥ w = 1) : hat w * hat w * hat w = -hat w := by
  have still : hat w *ᵥ w = 0 := by rw [hat_mulVec, cross_self]
  calc hat w * hat w * hat w = hat w * (hat w * hat w) := Matrix.mul_assoc ..
    _ = vecMulVec (hat w *ᵥ w) w - hat w := by
      rw [hat_mul_hat, unit, one_smul, Matrix.mul_sub, Matrix.mul_one, mul_vecMulVec]
    _ = -hat w := by rw [still, zero_vecMulVec, zero_sub]

theorem exponential_transpose (sine cosine : K) (w : Fin 3 → K) :
    (exponential sine cosine w)ᵀ = exponential (-sine) cosine w := by
  simp only [exponential, transpose_add, transpose_smul, Matrix.transpose_mul, transpose_one, hat_transpose, smul_neg, neg_smul,
    Matrix.neg_mul, Matrix.mul_neg, neg_neg]

theorem exponential_orthonormal {sine cosine : K} (circle : sine ^ 2 + cosine ^ 2 = 1) {w : Fin 3 → K} (unit : w ⬝ᵥ w = 1) :
    exponential sine cosine w * (exponential sine cosine w)ᵀ = 1 := by
  have third := hat_cube unit
  have again : hat w * (hat w * hat w) = -hat w := by rw [← Matrix.mul_assoc, third]
  have fourth : hat w * hat w * (hat w * hat w) = -(hat w * hat w) := by rw [← Matrix.mul_assoc, third, Matrix.neg_mul]
  rw [exponential_transpose, exponential, exponential]
  simp only [Matrix.add_mul, Matrix.mul_add, Matrix.smul_mul, Matrix.mul_smul, Matrix.one_mul, Matrix.mul_one, third, again, fourth]
  calc _ = (1 : Matrix (Fin 3) (Fin 3) K) + (1 - (sine ^ 2 + cosine ^ 2)) • (hat w * hat w) := by module
    _ = 1 := by rw [circle, sub_self, zero_smul, add_zero]

theorem exponential_half {w : Fin 3 → K} (unit : w ⬝ᵥ w = 1) : exponential 0 (-1) w = (2 : K) • vecMulVec w w - 1 := by
  rw [exponential, hat_mul_hat, unit]
  module

/-- Twice the sine of the angle along the axis. -/
def axial (R : Matrix (Fin 3) (Fin 3) K) : Fin 3 → K := ![R 2 1 - R 1 2, R 0 2 - R 2 0, R 1 0 - R 0 1]

theorem sub_transpose (R : Matrix (Fin 3) (Fin 3) K) : R - Rᵀ = hat (axial R) := by
  ext i j
  fin_cases i <;> fin_cases j <;> simp [hat, axial]

theorem adjugate_eq (M : Matrix (Fin 3) (Fin 3) K) : M.adjugate = M * M - M.trace • M + M.adjugate.trace • 1 := by
  ext i j
  fin_cases i <;> fin_cases j <;>
    simp [adjugate_fin_three, Matrix.mul_apply, trace, Fin.sum_univ_three] <;> ring

theorem dotProduct_self_nonneg {F : Type*} [Field F] [LinearOrder F] [IsStrictOrderedRing F] (v : Fin 3 → F) : 0 ≤ v ⬝ᵥ v :=
  Finset.sum_nonneg fun i _ => mul_self_nonneg (v i)

end

end AxbyCore.Rotation

namespace AxbyCore.IsRotation
open Matrix Rotation

section
variable {K : Type*} [CommRing K] {R : Matrix (Fin 3) (Fin 3) K}

theorem adjugate (rotation : IsRotation R) : R.adjugate = Rᵀ := by
  calc R.adjugate = Rᵀ * (R * R.adjugate) := by rw [← Matrix.mul_assoc, rotation.transpose_mul, Matrix.one_mul]
    _ = Rᵀ := by rw [mul_adjugate, rotation.det, one_smul, Matrix.mul_one]

/-- The square of a rotation, by its characteristic polynomial. -/
theorem mul_self (rotation : IsRotation R) : R * R = R.trace • R - R.trace • 1 + Rᵀ := by
  have polynomial := adjugate_eq R
  rw [rotation.adjugate, trace_transpose] at polynomial
  rw [polynomial]
  abel

/-- Entries on the diagonal, by the cofactors. -/
theorem cofactor (rotation : IsRotation R) {k j : Fin 3} (different : j ≠ k) :
    R j k * R k j = R j j * R k k - (R.trace - R j j - R k k) := by
  have entry (i : Fin 3) : R.adjugate i i = R i i := by rw [rotation.adjugate, transpose_apply]
  have first := entry 0
  have second := entry 1
  have third := entry 2
  simp only [adjugate_fin_three, of_apply, cons_val] at first second third
  fin_cases k <;> fin_cases j <;>
    simp only [trace, diag_apply, Fin.sum_univ_three, Fin.zero_eta, Fin.mk_one, Fin.reduceFinMk] at different ⊢
  · exact absurd rfl different
  · linear_combination -third
  · linear_combination -second
  · linear_combination -third
  · exact absurd rfl different
  · linear_combination -first
  · linear_combination -second
  · linear_combination -first
  · exact absurd rfl different

theorem col_dotProduct_col (rotation : IsRotation R) (j k : Fin 3) : R.col j ⬝ᵥ R.col k = (1 : Matrix (Fin 3) (Fin 3) K) j k := by
  rw [← rotation.transpose_mul]
  rfl

theorem column_sq (rotation : IsRotation R) (j : Fin 3) : ∑ i, R i j ^ 2 = 1 := by
  have unit := rotation.col_dotProduct_col j j
  rw [one_apply_eq] at unit
  simpa only [dotProduct, col_apply, ← pow_two] using unit

theorem hat_axial_sq (rotation : IsRotation R) :
    hat (axial R) * hat (axial R) = (1 + R.trace) • (R + Rᵀ - (2 : K) • 1) := by
  have square : R * R = R.trace • R - R.trace • 1 + Rᵀ := rotation.mul_self
  have squareBack : Rᵀ * Rᵀ = R.trace • Rᵀ - R.trace • 1 + R := by simpa using rotation.transpose.mul_self
  rw [← sub_transpose, Matrix.mul_sub, Matrix.sub_mul, Matrix.sub_mul, square, squareBack, rotation.orthonormal,
    rotation.transpose_mul]
  module

end

section
variable {K : Type*} [Field K] [LinearOrder K] [IsStrictOrderedRing K] {R : Matrix (Fin 3) (Fin 3) K}

theorem abs_diag_le_one (rotation : IsRotation R) (i : Fin 3) : |R i i| ≤ 1 := by
  apply (sq_le_one_iff_abs_le_one _).mp
  rw [← rotation.column_sq i]
  exact Finset.single_le_sum (fun k _ => sq_nonneg (R k i)) (Finset.mem_univ i)

theorem diag_le_one (rotation : IsRotation R) (i : Fin 3) : R i i ≤ 1 := (abs_le.mp (rotation.abs_diag_le_one i)).2

theorem neg_one_le_diag (rotation : IsRotation R) (i : Fin 3) : -1 ≤ R i i := (abs_le.mp (rotation.abs_diag_le_one i)).1

/-- What the entry on the diagonal leaves to the others. -/
theorem sq_add_sq_le (rotation : IsRotation R) {i j : Fin 3} (different : i ≠ j) : R i j ^ 2 + R j j ^ 2 ≤ 1 := by
  rw [← rotation.column_sq j, ← Finset.sum_pair (f := fun k => R k j ^ 2) different]
  exact Finset.sum_le_sum_of_subset_of_nonneg (Finset.subset_univ _) fun k _ _ => sq_nonneg (R k j)

theorem axial_dot (rotation : IsRotation R) : axial R ⬝ᵥ axial R = (1 + R.trace) * (3 - R.trace) := by
  have traces := congrArg trace rotation.hat_axial_sq
  rw [hat_mul_hat, trace_sub, trace_vecMulVec, trace_smul, trace_smul, trace_sub, trace_add, trace_transpose, trace_smul,
    trace_one, Fintype.card_fin] at traces
  simp only [smul_eq_mul, Nat.cast_ofNat] at traces
  linarith

/-- The sine along an axis, by the entry on the diagonal. -/
theorem axial_sq (rotation : IsRotation R) (i : Fin 3) : axial R i ^ 2 = (1 + R.trace) * (1 + 2 * R i i - R.trace) := by
  have entry := congrFun (congrFun rotation.hat_axial_sq i) i
  rw [hat_mul_hat, Matrix.sub_apply, vecMulVec_apply, Matrix.smul_apply, Matrix.smul_apply, Matrix.sub_apply, Matrix.add_apply,
    Matrix.smul_apply, transpose_apply, one_apply_eq, rotation.axial_dot] at entry
  simp only [smul_eq_mul] at entry
  linear_combination entry

theorem trace_le_three (rotation : IsRotation R) : R.trace ≤ 3 := by
  have diagonal := rotation.diag_le_one
  rw [trace_fin_three]
  linarith [diagonal 0, diagonal 1, diagonal 2]

theorem diag_eq_one (rotation : IsRotation R) (three : R.trace = 3) (i : Fin 3) : R i i = 1 := by
  have total : ∑ k, (1 - R k k) = 0 := by
    rw [trace_fin_three] at three
    rw [Fin.sum_univ_three]
    linarith
  have each := (Finset.sum_eq_zero_iff_of_nonneg fun k _ => sub_nonneg.mpr (rotation.diag_le_one k)).mp total
  exact (sub_eq_zero.mp (each i (Finset.mem_univ i))).symm

theorem neg_one_le_trace (rotation : IsRotation R) : -1 ≤ R.trace := by
  have product : 0 ≤ (1 + R.trace) * (3 - R.trace) := by
    rw [← rotation.axial_dot]
    exact dotProduct_self_nonneg (axial R)
  by_contra below
  push Not at below
  have positive : 0 < 3 - R.trace := by linarith
  have negative : (1 + R.trace) * (3 - R.trace) < 0 := mul_neg_of_neg_of_pos (by linarith) positive
  exact absurd product negative.not_ge

end

end AxbyCore.IsRotation

/-! The half turn about the vector between an axis and its image. -/

namespace AxbyCore.Rotation
open Matrix

section
variable {K : Type*} [CommRing K] {R : Matrix (Fin 3) (Fin 3) K}

def bisector (R : Matrix (Fin 3) (Fin 3) K) (k : Fin 3) : Fin 3 → K := R.col k + Pi.single k 1

theorem bisector_dot_self (rotation : IsRotation R) (k : Fin 3) : bisector R k ⬝ᵥ bisector R k = 2 * (1 + R k k) := by
  have unit := rotation.col_dotProduct_col k k
  rw [one_apply_eq] at unit
  simp only [bisector, add_dotProduct, dotProduct_add, unit, single_one_dotProduct, dotProduct_single_one, Pi.add_apply,
    col_apply, Pi.single_eq_same]
  ring

theorem bisector_dot_col (rotation : IsRotation R) {j k : Fin 3} (different : j ≠ k) : bisector R k ⬝ᵥ R.col j = R k j := by
  rw [bisector, add_dotProduct, rotation.col_dotProduct_col, one_apply_ne different.symm, zero_add, single_one_dotProduct,
    col_apply]

theorem sub_sub_dotProduct_self (scale : K) (b e r : Fin 3 → K) :
    (scale • b - e - r) ⬝ᵥ (scale • b - e - r) =
      scale * (scale * b ⬝ᵥ b) + e ⬝ᵥ e + r ⬝ᵥ r - 2 * (scale * b ⬝ᵥ e) - 2 * (scale * b ⬝ᵥ r) + 2 * e ⬝ᵥ r := by
  simp only [sub_dotProduct, dotProduct_sub, smul_dotProduct, dotProduct_smul, smul_eq_mul, dotProduct_comm e b,
    dotProduct_comm r b, dotProduct_comm r e]
  ring

end

variable {K : Type*} [Field K] [LinearOrder K] [IsStrictOrderedRing K] {R : Matrix (Fin 3) (Fin 3) K}

theorem root_ne_zero {k : Fin 3} (positive : 0 < 1 + R k k) {root : K} (square : root * root = 2 * (1 + R k k)) : root ≠ 0 := by
  rintro rfl
  linarith

theorem half_turn_axis (rotation : IsRotation R) {k : Fin 3} (positive : 0 < 1 + R k k) {root : K}
    (square : root * root = 2 * (1 + R k k)) {w : Fin 3 → K} (axis : w = root⁻¹ • bisector R k) : w ⬝ᵥ w = 1 := by
  rw [axis]
  apply unit_of_root _ (root_ne_zero positive square)
  rw [square, bisector_dot_self rotation]

theorem half_turn_apply {k : Fin 3} (positive : 0 < 1 + R k k) {root : K} (square : root * root = 2 * (1 + R k k))
    {w : Fin 3 → K} (axis : w = root⁻¹ • bisector R k) (i j : Fin 3) :
    ((2 : K) • vecMulVec w w - 1) i j = bisector R k j / (1 + R k k) * bisector R k i - (1 : Matrix (Fin 3) (Fin 3) K) i j := by
  have nonzero := root_ne_zero positive square
  simp only [axis, Matrix.sub_apply, Matrix.smul_apply, vecMulVec_apply, Pi.smul_apply, smul_eq_mul]
  congr 1
  calc 2 * (root⁻¹ * bisector R k i * (root⁻¹ * bisector R k j))
      = 2 * (bisector R k i * bisector R k j) / (root * root) := by field_simp
    _ = bisector R k j / (1 + R k k) * bisector R k i := by
      rw [square]
      field_simp

/-- The half turn about the bisector has the same column. -/
theorem half_turn_column {k : Fin 3} (positive : 0 < 1 + R k k) {root : K} (square : root * root = 2 * (1 + R k k))
    {w : Fin 3 → K} (axis : w = root⁻¹ • bisector R k) (i : Fin 3) : ((2 : K) • vecMulVec w w - 1) i k = R i k := by
  have pivot : bisector R k k = 1 + R k k := by simp [bisector, add_comm]
  rw [half_turn_apply positive square axis, pivot, div_self positive.ne', one_mul, bisector, Pi.add_apply, col_apply,
    one_apply, Pi.single_apply, add_sub_cancel_right]

/-- The other columns are as far apart as the trace is from that of a half turn. -/
theorem half_turn_error (rotation : IsRotation R) {k : Fin 3} (positive : 0 < 1 + R k k) {root : K}
    (square : root * root = 2 * (1 + R k k)) {w : Fin 3 → K} (axis : w = root⁻¹ • bisector R k) {j : Fin 3} (different : j ≠ k) :
    ∑ i, (((2 : K) • vecMulVec w w - 1) i j - R i j) ^ 2 = 2 * (1 + R.trace) / (1 + R k k) := by
  have unit : R.col j ⬝ᵥ R.col j = 1 := by rw [rotation.col_dotProduct_col, one_apply_eq]
  have coordinate : bisector R k j = R j k := by simp [bisector, different]
  have minor := rotation.cofactor different
  have columns (i : Fin 3) : ((2 : K) • vecMulVec w w - 1) i j - R i j =
      ((R j k / (1 + R k k)) • bisector R k - Pi.single j 1 - R.col j : Fin 3 → K) i := by
    rw [half_turn_apply positive square axis, coordinate, one_apply]
    simp only [Pi.sub_apply, Pi.smul_apply, smul_eq_mul, Pi.single_apply, col_apply]
  calc ∑ i, (((2 : K) • vecMulVec w w - 1) i j - R i j) ^ 2
      = ((R j k / (1 + R k k)) • bisector R k - Pi.single j 1 - R.col j) ⬝ᵥ
        ((R j k / (1 + R k k)) • bisector R k - Pi.single j 1 - R.col j) := by
        simp only [columns, dotProduct, pow_two]
    _ = 2 + 2 * (R j j * (1 + R k k) - R j k * R k j) / (1 + R k k) := by
      rw [sub_sub_dotProduct_self, bisector_dot_self rotation, unit, bisector_dot_col rotation different,
        single_one_dotProduct, dotProduct_single_one, single_one_dotProduct, Pi.single_eq_same, coordinate, col_apply]
      field_simp
      ring
    _ = 2 * (1 + R.trace) / (1 + R k k) := by
      rw [minor]
      field_simp
      ring

/-- The axis apart from two others, and what the entries beside the diagonal have to do with it. -/
theorem third_axis (R : Matrix (Fin 3) (Fin 3) K) {j k : Fin 3} (different : j ≠ k) :
    ∃ i, (R j k - R k j) ^ 2 = axial R i ^ 2 ∧ R.trace = R i i + R j j + R k k := by
  have first : (-2 : Fin 3) = 1 := rfl
  have second : (-1 : Fin 3) = 2 := rfl
  refine ⟨-(j + k), ?_, ?_⟩
  · fin_cases j <;> fin_cases k <;> simp [axial, first, second] at different ⊢ <;> ring
  · rw [trace_fin_three]
    fin_cases j <;> fin_cases k <;> simp [first, second] at different ⊢ <;> ring

/-- If the entry on the diagonal is the largest, every entry is as close as the trace is to that of a half turn. -/
theorem half_turn_close (rotation : IsRotation R) {k : Fin 3} (positive : 0 < 1 + R k k) {root : K}
    (square : root * root = 2 * (1 + R k k)) {w : Fin 3 → K} (axis : w = root⁻¹ • bisector R k)
    (largest : ∀ i, R i i ≤ R k k) {j : Fin 3} (different : j ≠ k) (i : Fin 3) :
    (((2 : K) • vecMulVec w w - 1) i j - R i j) ^ 2 ≤ 2 * (1 + R.trace) := by
  obtain ⟨third, beside, trace⟩ := third_axis R different
  have least := rotation.neg_one_le_trace
  have total := half_turn_error rotation positive square axis different
  have across : ((2 : K) • vecMulVec w w - 1) k j - R k j = R j k - R k j := by
    have pivot : bisector R k k = 1 + R k k := by simp [bisector, add_comm]
    have coordinate : bisector R k j = R j k := by simp [bisector, different]
    rw [half_turn_apply positive square axis, pivot, coordinate, one_apply_ne different.symm, sub_zero,
      div_mul_cancel₀ _ positive.ne']
  rw [rotation.axial_sq] at beside
  have above := rotation.neg_one_le_diag j
  have smaller := largest third
  by_cases same : i = k
  · rw [same, across, beside]
    have factor : 1 + 2 * R third third - R.trace ≤ 2 := by linarith
    nlinarith
  · -- the entry across is part of the column
    have column := Finset.sum_le_sum_of_subset_of_nonneg (Finset.subset_univ {i, k})
      (f := fun i => (((2 : K) • vecMulVec w w - 1) i j - R i j) ^ 2) fun _ _ _ => sq_nonneg _
    rw [Finset.sum_pair same, across, beside, total] at column
    have room : 2 ≤ (1 + R k k) * (3 + 2 * R third third - R.trace) := by
      by_cases negative : R k k < 0
      · nlinarith [largest j]
      · have sine : 0 ≤ 1 + 2 * R third third - R.trace := by
          by_contra below
          nlinarith [sq_nonneg (axial R third), rotation.axial_sq third, rotation.neg_one_le_diag third]
        nlinarith
    have bound : 2 * (1 + R.trace) / (1 + R k k) ≤ (1 + R.trace) * (3 + 2 * R third third - R.trace) := by
      rw [div_le_iff₀ positive]
      nlinarith
    linarith

end AxbyCore.Rotation
