import Mathlib.Data.Fin.VecNotation
import Mathlib.LinearAlgebra.CrossProduct
import Mathlib.LinearAlgebra.Matrix.NonsingularInverse
import Mathlib.Tactic.LinearCombination

/-! Rotations of space and the matrices of cross products, over any commutative ring. -/

namespace AxbyCore
open Matrix

structure IsRotation {K : Type*} [CommRing K] (R : Matrix (Fin 3) (Fin 3) K) : Prop where
  orthonormal : R * Rᵀ = 1
  det : R.det = 1

namespace Rotation

/-- What the number of an axis is read with. -/
scoped instance three_neZero : NeZero 3 := ⟨by decide⟩

variable {K : Type*} [CommRing K]

/-- The matrix of the cross product with a vector. -/
def hat (w : Fin 3 → K) : Matrix (Fin 3) (Fin 3) K := !![0, -w 2, w 1; w 2, 0, -w 0; -w 1, w 0, 0]

/-- The rotation about a unit vector by the angle with this sine and cosine. -/
def exponential (sine cosine : K) (w : Fin 3 → K) : Matrix (Fin 3) (Fin 3) K :=
  1 + sine • hat w + (1 - cosine) • (hat w * hat w)

theorem hat_add (v w : Fin 3 → K) : hat (v + w) = hat v + hat w := by
  ext i j
  fin_cases i <;> fin_cases j <;> simp [hat, add_comm]

theorem hat_smul (scale : K) (w : Fin 3 → K) : hat (scale • w) = scale • hat w := by
  ext i j
  fin_cases i <;> fin_cases j <;> simp [hat]

theorem hat_zero : hat (0 : Fin 3 → K) = 0 := by simpa using hat_smul (0 : K) 0

theorem hat_mulVec (v w : Fin 3 → K) : hat v *ᵥ w = v ⨯₃ w := by
  ext i
  fin_cases i <;> simp [hat, cross_apply, mulVec, dotProduct, Fin.sum_univ_three] <;> ring

theorem hat_mulVec_comm (v w : Fin 3 → K) : hat v *ᵥ w = -(hat w *ᵥ v) := by
  rw [hat_mulVec, hat_mulVec, cross_anticomm]

theorem hat_transpose (w : Fin 3 → K) : (hat w)ᵀ = -hat w := by
  ext i j
  fin_cases i <;> fin_cases j <;> simp [hat]

/-- What a matrix makes of a cross product, in coordinates. -/
theorem transpose_mul_hat_mul (M : Matrix (Fin 3) (Fin 3) K) (w : Fin 3 → K) :
    Mᵀ * hat (M *ᵥ w) * M = M.det • hat w := by
  ext i j
  fin_cases i <;> fin_cases j <;>
    simp [hat, Matrix.mul_apply, mulVec, dotProduct, Fin.sum_univ_three, det_fin_three] <;> ring

theorem orthonormal_mul {R S : Matrix (Fin 3) (Fin 3) K} (first : R * Rᵀ = 1) (second : S * Sᵀ = 1) :
    R * S * (R * S)ᵀ = 1 := by
  calc R * S * (R * S)ᵀ = R * (S * Sᵀ) * Rᵀ := by simp only [transpose_mul, Matrix.mul_assoc]
    _ = 1 := by rw [second, Matrix.mul_one, first]

theorem unit_of_root {F : Type*} [Field F] {v : Fin 3 → F} {root : F} (square : root * root = v ⬝ᵥ v) (nonzero : root ≠ 0) :
    (root⁻¹ • v) ⬝ᵥ (root⁻¹ • v) = 1 := by
  calc (root⁻¹ • v) ⬝ᵥ (root⁻¹ • v) = root⁻¹ * (root⁻¹ * (root * root)) := by
        rw [smul_dotProduct, dotProduct_smul, square, smul_eq_mul, smul_eq_mul]
    _ = 1 := by rw [inv_mul_cancel_left₀ nonzero, inv_mul_cancel₀ nonzero]

end Rotation

namespace IsRotation

open Rotation
variable {K : Type*} [CommRing K] {R : Matrix (Fin 3) (Fin 3) K}

theorem transpose_mul (rotation : IsRotation R) : Rᵀ * R = 1 := mul_eq_one_comm.mp rotation.orthonormal

theorem about_last {sine cosine : K} (circle : cosine * cosine + sine * sine = 1) :
    IsRotation !![cosine, -sine, 0; sine, cosine, 0; 0, 0, 1] := by
  have swapped : sine * sine + cosine * cosine = 1 := (add_comm _ _).trans circle
  constructor
  · ext i j
    fin_cases i <;> fin_cases j <;> simp [Matrix.mul_apply, Fin.sum_univ_three, circle, swapped, mul_comm]
  · simp [det_fin_three, circle]

theorem transpose (rotation : IsRotation R) : IsRotation Rᵀ :=
  ⟨by rw [transpose_transpose, rotation.transpose_mul], by rw [det_transpose, rotation.det]⟩

theorem one : IsRotation (1 : Matrix (Fin 3) (Fin 3) K) := ⟨by rw [transpose_one, Matrix.mul_one], det_one⟩

theorem mul {S : Matrix (Fin 3) (Fin 3) K} (first : IsRotation R) (second : IsRotation S) : IsRotation (R * S) :=
  ⟨orthonormal_mul first.orthonormal second.orthonormal, by rw [det_mul, first.det, second.det, mul_one]⟩

/-- The cross product turns with its factors. -/
theorem mul_hat (rotation : IsRotation R) (w : Fin 3 → K) : R * hat w = hat (R *ᵥ w) * R := by
  calc R * hat w = R * (Rᵀ * hat (R *ᵥ w) * R) := by rw [transpose_mul_hat_mul, rotation.det, one_smul]
    _ = R * Rᵀ * (hat (R *ᵥ w) * R) := by simp only [Matrix.mul_assoc]
    _ = hat (R *ᵥ w) * R := by rw [rotation.orthonormal, Matrix.one_mul]

theorem conjugate_hat (rotation : IsRotation R) (w : Fin 3 → K) : R * hat w * Rᵀ = hat (R *ᵥ w) := by
  rw [rotation.mul_hat, Matrix.mul_assoc, rotation.orthonormal, Matrix.mul_one]

end IsRotation

namespace Rotation

variable {K : Type*} [CommRing K] {z x : Fin 3 → K}

/-- The right-handed frame of two vectors, with the first as the column of an axis. -/
def frame (z x : Fin 3 → K) (axis : Fin 3) : Matrix (Fin 3) (Fin 3) K := fun i j => ![z, x, z ⨯₃ x] (j - axis) i

theorem frame_axis (z x : Fin 3 → K) (axis : Fin 3) (i : Fin 3) : frame z x axis i axis = z i := by
  rw [frame, sub_self]
  rfl

theorem frame_eq_submatrix (z x : Fin 3 → K) (axis : Fin 3) :
    frame z x axis = (of ![z, x, z ⨯₃ x])ᵀ.submatrix id (Equiv.subRight axis) := rfl

theorem rows_orthonormal (unitZ : z ⬝ᵥ z = 1) (unitX : x ⬝ᵥ x = 1) (normal : z ⬝ᵥ x = 0) :
    of ![z, x, z ⨯₃ x] * (of ![z, x, z ⨯₃ x])ᵀ = 1 := by
  have unitY : z ⨯₃ x ⬝ᵥ z ⨯₃ x = 1 := by
    rw [cross_dot_cross, unitZ, unitX, normal, zero_mul, one_mul, sub_zero]
  have entries (i j : Fin 3) : (of ![z, x, z ⨯₃ x] * (of ![z, x, z ⨯₃ x])ᵀ) i j =
      ![z, x, z ⨯₃ x] i ⬝ᵥ ![z, x, z ⨯₃ x] j := rfl
  ext i j
  rw [entries]
  fin_cases i <;> fin_cases j
  · exact unitZ
  · exact normal
  · exact dot_self_cross z x
  · exact (dotProduct_comm x z).trans normal
  · exact unitX
  · exact dot_cross_self z x
  · exact (dotProduct_comm _ z).trans (dot_self_cross z x)
  · exact (dotProduct_comm _ x).trans (dot_cross_self z x)
  · exact unitY

theorem rows_det (unitZ : z ⬝ᵥ z = 1) (unitX : x ⬝ᵥ x = 1) (normal : z ⬝ᵥ x = 0) : (of ![z, x, z ⨯₃ x]).det = 1 := by
  calc (of ![z, x, z ⨯₃ x]).det = z ⬝ᵥ x ⨯₃ (z ⨯₃ x) := (triple_product_eq_det ..).symm
    _ = z ⨯₃ x ⬝ᵥ z ⨯₃ x := by rw [triple_product_permutation, triple_product_permutation]
    _ = 1 := by rw [cross_dot_cross, unitZ, unitX, normal, zero_mul, one_mul, sub_zero]

theorem isRotation_frame (unitZ : z ⬝ᵥ z = 1) (unitX : x ⬝ᵥ x = 1) (normal : z ⬝ᵥ x = 0) (axis : Fin 3) :
    IsRotation (frame z x axis) := by
  have cyclic : ∀ axis : Fin 3, Equiv.Perm.sign (Equiv.subRight axis) = 1 := by decide
  rw [frame_eq_submatrix]
  constructor
  · rw [transpose_submatrix, submatrix_mul_transpose_submatrix, transpose_transpose]
    exact mul_eq_one_comm.mp (rows_orthonormal unitZ unitX normal)
  · rw [det_permute', cyclic, det_transpose, rows_det unitZ unitX normal]
    simp

end Rotation
end AxbyCore
