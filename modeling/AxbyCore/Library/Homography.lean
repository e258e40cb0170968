import Mathlib.LinearAlgebra.Matrix.NonsingularInverse
import Mathlib.Data.Fin.VecNotation
import Mathlib.Tactic.FieldSimp
import Mathlib.Tactic.LinearCombination

/-! Points of space under a homography of four homogeneous coordinates, over any field.
The image of a point is read off after a division by its weight. -/

namespace AxbyCore
open Matrix

abbrev Homography (K : Type*) := Matrix (Fin 4) (Fin 4) K

namespace Homography

variable {K : Type*} [Field K]

def weight (P : Homography K) (x y z : K) : K := (P *ᵥ ![x, y, z, 1]) 3

def imageX (P : Homography K) (x y z : K) : K := (P *ᵥ ![x, y, z, 1]) 0 / weight P x y z

def imageY (P : Homography K) (x y z : K) : K := (P *ᵥ ![x, y, z, 1]) 1 / weight P x y z

/-- The third image coordinate, a depth that the image does not show. -/
def imageZ (P : Homography K) (x y z : K) : K := (P *ᵥ ![x, y, z, 1]) 2 / weight P x y z

/-- The point is seen, and at these image coordinates. -/
structure ProjectsTo (P : Homography K) (x y z u v : K) : Prop where
  seen : weight P x y z ≠ 0
  imageX : imageX P x y z = u
  imageY : imageY P x y z = v

theorem mulVec_point (M : Homography K) (x y z : K) (i : Fin 4) :
    (M *ᵥ ![x, y, z, 1]) i = M i 0 * x + M i 1 * y + M i 2 * z + M i 3 := by
  simp [mulVec, dotProduct, Fin.sum_univ_four]

/-- The homogeneous image is the affine one times the weight. -/
theorem image_eq {P : Homography K} {x y z : K} (seen : weight P x y z ≠ 0) :
    P *ᵥ ![x, y, z, 1] = weight P x y z • ![imageX P x y z, imageY P x y z, imageZ P x y z, 1] := by
  funext i
  fin_cases i
  · exact (mul_div_cancel₀ _ seen).symm
  · exact (mul_div_cancel₀ _ seen).symm
  · exact (mul_div_cancel₀ _ seen).symm
  · exact (mul_one _).symm

/-- The inverse takes the image back to a multiple of the point. -/
theorem inverse_image {M P : Homography K} (inverse : M * P = 1) {x y z : K} (seen : weight P x y z ≠ 0) :
    M *ᵥ ![imageX P x y z, imageY P x y z, imageZ P x y z, 1] = (weight P x y z)⁻¹ • ![x, y, z, 1] := by
  have back : M *ᵥ (P *ᵥ ![x, y, z, 1]) = ![x, y, z, 1] := by
    rw [mulVec_mulVec, inverse, one_mulVec]
  rw [image_eq seen, mulVec_smul] at back
  calc M *ᵥ ![imageX P x y z, imageY P x y z, imageZ P x y z, 1]
      = (weight P x y z)⁻¹ • weight P x y z • M *ᵥ ![imageX P x y z, imageY P x y z, imageZ P x y z, 1] :=
        (inv_smul_smul₀ seen _).symm
    _ = (weight P x y z)⁻¹ • ![x, y, z, 1] := by rw [back]

/-- A point whose multiple the inverse makes of image coordinates projects to these. -/
theorem projects_of_inverse {M P : Homography K} (inverse : M * P = 1) {x y z u v w tau : K}
    (solved : M *ᵥ ![u, v, w, 1] = tau • ![x, y, z, 1]) : ProjectsTo P x y z u v := by
  have forth : P *ᵥ (tau • ![x, y, z, 1]) = ![u, v, w, 1] := by
    rw [← solved, mulVec_mulVec, mul_eq_one_comm.mp inverse, one_mulVec]
  rw [mulVec_smul] at forth
  have row (i : Fin 4) : tau * (P *ᵥ ![x, y, z, 1]) i = ![u, v, w, 1] i := congrFun forth i
  have last : tau * weight P x y z = 1 := row 3
  have seen : weight P x y z ≠ 0 := right_ne_zero_of_mul_eq_one last
  constructor
  · exact seen
  · apply (div_eq_iff seen).mpr
    calc (P *ᵥ ![x, y, z, 1]) 0 = tau * weight P x y z * (P *ᵥ ![x, y, z, 1]) 0 := by rw [last, one_mul]
      _ = tau * (P *ᵥ ![x, y, z, 1]) 0 * weight P x y z := mul_right_comm _ _ _
      _ = u * weight P x y z := congrArg (· * weight P x y z) (row 0)
  · apply (div_eq_iff seen).mpr
    calc (P *ᵥ ![x, y, z, 1]) 1 = tau * weight P x y z * (P *ᵥ ![x, y, z, 1]) 1 := by rw [last, one_mul]
      _ = tau * (P *ᵥ ![x, y, z, 1]) 1 * weight P x y z := mul_right_comm _ _ _
      _ = v * weight P x y z := congrArg (· * weight P x y z) (row 1)

end Homography
end AxbyCore
