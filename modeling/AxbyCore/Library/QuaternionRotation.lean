import AxbyCore.Library.RotationAngle
import Mathlib.Analysis.SpecialFunctions.Trigonometric.Inverse

/-! The rotation of a unit quaternion, the quaternion of a rotation, and the angle of a rotation
about an axis. -/

namespace AxbyCore.Rotation
open Matrix

/-- A name for the instance that the number is read with. -/
scoped instance two_atLeastTwo : Nat.AtLeastTwo 2 := inferInstance

section
variable {K : Type*} [CommRing K]

/-- The matrix of a quaternion, by its scalar and its vector. It is a rotation if the quaternion is a unit. -/
def ofQuaternion (w : K) (v : Fin 3 → K) : Matrix (Fin 3) (Fin 3) K :=
  (w * w - v ⬝ᵥ v) • 1 + (2 : K) • vecMulVec v v + (2 * w) • hat v

def normSq (w : K) (v : Fin 3 → K) : K := w * w + v ⬝ᵥ v

theorem ofQuaternion_eq {w : K} {v : Fin 3 → K} (unit : normSq w v = 1) :
    ofQuaternion w v = 1 + (2 * w) • hat v + (2 : K) • (hat v * hat v) := by
  have scalar : w * w - v ⬝ᵥ v = 1 - 2 * v ⬝ᵥ v := by
    rw [← unit, normSq]
    ring
  rw [ofQuaternion, hat_mul_hat, scalar]
  module

/-- The matrix of a product of quaternions. -/
theorem ofQuaternion_mul (w z : K) (v u : Fin 3 → K) :
    ofQuaternion w v * ofQuaternion z u = ofQuaternion (w * z - v ⬝ᵥ u) (w • u + z • v + v ⨯₃ u) := by
  ext i j
  fin_cases i <;> fin_cases j <;>
    simp [ofQuaternion, hat, Matrix.mul_apply, vecMulVec, dotProduct, cross_apply, Fin.sum_univ_three] <;> ring

theorem normSq_mul (w z : K) (v u : Fin 3 → K) :
    normSq (w * z - v ⬝ᵥ u) (w • u + z • v + v ⨯₃ u) = normSq w v * normSq z u := by
  simp only [normSq, dotProduct, cross_apply, Fin.sum_univ_three, Pi.add_apply, Pi.smul_apply, smul_eq_mul, cons_val]
  ring

theorem trace_exponential (sine cosine : K) {w : Fin 3 → K} (unit : w ⬝ᵥ w = 1) :
    (exponential sine cosine w).trace = 1 + 2 * cosine := by
  have flat : (hat w).trace = 0 := by simp [hat, trace_fin_three]
  rw [exponential, hat_mul_hat, unit, trace_add, trace_add, trace_smul, trace_smul, trace_sub, trace_vecMulVec, trace_smul,
    trace_one, flat, unit, Fintype.card_fin]
  simp only [smul_eq_mul]
  push_cast
  ring

theorem det_exponential (sine cosine : K) (w : Fin 3 → K) :
    (exponential sine cosine w).det = (1 - (1 - cosine) * w ⬝ᵥ w) ^ 2 + sine ^ 2 * w ⬝ᵥ w := by
  simp [exponential, hat, det_fin_three, dotProduct, Fin.sum_univ_three]
  ring

theorem isRotation_exponential {sine cosine : K} (circle : sine ^ 2 + cosine ^ 2 = 1) {w : Fin 3 → K} (unit : w ⬝ᵥ w = 1) :
    IsRotation (exponential sine cosine w) := by
  refine ⟨exponential_orthonormal circle unit, ?_⟩
  rw [det_exponential, unit]
  linear_combination circle

/-- The half turn about a coordinate axis. -/
def halfTurn (i : Fin 3) : Matrix (Fin 3) (Fin 3) K := ofQuaternion 0 (Pi.single i 1)

theorem single_unit (i : Fin 3) : (Pi.single i 1 : Fin 3 → K) ⬝ᵥ Pi.single i 1 = 1 := by
  rw [single_one_dotProduct, Pi.single_eq_same]

theorem halfTurn_apply (i j k : Fin 3) : (halfTurn i : Matrix (Fin 3) (Fin 3) K) j k =
    if j = k then (if j = i then 1 else -1) else 0 := by
  fin_cases i <;> fin_cases j <;> fin_cases k <;> simp [halfTurn, ofQuaternion, vecMulVec_apply, hat] <;> ring

theorem isRotation_halfTurn (i : Fin 3) : IsRotation (halfTurn i : Matrix (Fin 3) (Fin 3) K) := by
  have about : halfTurn i = exponential 0 (-1) (Pi.single i 1 : Fin 3 → K) := by
    rw [exponential_half (single_unit i), halfTurn, ofQuaternion, single_unit, mul_zero, mul_zero, zero_smul]
    module
  rw [about]
  exact isRotation_exponential (by ring) (single_unit i)

theorem halfTurn_mul_self (i : Fin 3) : (halfTurn i : Matrix (Fin 3) (Fin 3) K) * halfTurn i = 1 := by
  have symmetric : (halfTurn i : Matrix (Fin 3) (Fin 3) K)ᵀ = halfTurn i := by
    ext j k
    rw [transpose_apply, halfTurn_apply, halfTurn_apply]
    by_cases same : j = k
    · rw [same]
    · rw [if_neg same, if_neg (Ne.symm same)]
  have orthonormal : (halfTurn i : Matrix (Fin 3) (Fin 3) K) * (halfTurn i)ᵀ = 1 := (isRotation_halfTurn i).orthonormal
  rwa [symmetric] at orthonormal

theorem mul_halfTurn (R : Matrix (Fin 3) (Fin 3) K) (i j k : Fin 3) : (R * halfTurn i : Matrix (Fin 3) (Fin 3) K) j k = if k = i then R j k else -R j k := by
  rw [Matrix.mul_apply, Finset.sum_eq_single k]
  · rw [halfTurn_apply, if_pos rfl]
    split <;> simp
  · intro other _ different
    rw [halfTurn_apply, if_neg different, mul_zero]
  · simp

end

section
variable {K : Type*} [Field K] [LinearOrder K] [IsStrictOrderedRing K] {R : Matrix (Fin 3) (Fin 3) K}

/-- The quaternion of a rotation, by a root of the trace. -/
theorem ofQuaternion_axial (rotation : IsRotation R) {root : K} (square : root * root = R.trace + 1) (nonzero : root ≠ 0) :
    normSq (1 / 2 * root) ((1 / 2 / root) • axial R) = 1 ∧ ofQuaternion (1 / 2 * root) ((1 / 2 / root) • axial R) = R := by
  have first : 2 * (1 / 2 * root) * (1 / 2 / root) = 1 / 2 := by field_simp
  have second : 2 * (1 / 2 / root * (1 / 2 / root) * (1 + R.trace)) = 1 / 2 := by
    field_simp
    linarith
  have unit : normSq (1 / 2 * root) ((1 / 2 / root) • axial R) = 1 := by
    calc normSq (1 / 2 * root) ((1 / 2 / root) • axial R)
        = 1 / 4 * (root * root) + 1 / 2 / root * (1 / 2 / root) * (1 + R.trace) * (3 - R.trace) := by
          rw [normSq, smul_dotProduct, dotProduct_smul, rotation.axial_dot, smul_eq_mul, smul_eq_mul]
          ring
      _ = 1 := by
        rw [square]
        linear_combination (3 - R.trace) / 2 * second
  refine ⟨unit, ?_⟩
  rw [ofQuaternion_eq unit, hat_smul, Matrix.smul_mul, Matrix.mul_smul, rotation.hat_axial_sq, ← sub_transpose]
  calc _ = 1 + (2 * (1 / 2 * root) * (1 / 2 / root)) • (R - Rᵀ) +
      (2 * (1 / 2 / root * (1 / 2 / root) * (1 + R.trace))) • (R + Rᵀ - (2 : K) • 1) := by module
    _ = R := by
      rw [first, second]
      module

/-- The same by a root that is not small if the entry on the diagonal is large. -/
theorem ofQuaternion_pivot (rotation : IsRotation R) (i : Fin 3) {root : K} (square : root * root = 2 * R i i - R.trace + 1)
    (nonzero : root ≠ 0) {u : Fin 3 → K} (same : u = (1 / 2 / root) • axial (R * halfTurn i)) :
    normSq (-u i) ((1 / 2 * root) • Pi.single i 1 + u ⨯₃ Pi.single i 1) = 1 ∧
      ofQuaternion (-u i) ((1 / 2 * root) • Pi.single i 1 + u ⨯₃ Pi.single i 1) = R := by
  have trace : (R * halfTurn i).trace = 2 * R i i - R.trace := by
    simp only [trace_fin_three, mul_halfTurn]
    fin_cases i <;> simp <;> ring
  obtain ⟨unit, turned⟩ := ofQuaternion_axial (rotation.mul (isRotation_halfTurn i)) (square.trans (by rw [trace])) nonzero
  rw [← same] at unit turned
  have scalar : 1 / 2 * root * 0 - u ⬝ᵥ Pi.single i 1 = -u i := by rw [dotProduct_single_one, mul_zero, zero_sub]
  have vector : (1 / 2 * root) • (Pi.single i 1 : Fin 3 → K) + (0 : K) • u + u ⨯₃ Pi.single i 1 =
      (1 / 2 * root) • Pi.single i 1 + u ⨯₃ Pi.single i 1 := by rw [zero_smul, add_zero]
  rw [← scalar, ← vector, normSq_mul, ← ofQuaternion_mul, unit, turned]
  constructor
  · rw [normSq, single_unit, mul_zero, zero_add, one_mul]
  · rw [← halfTurn, Matrix.mul_assoc, halfTurn_mul_self, Matrix.mul_one]

end

/-- The length of a vector. -/
theorem sqrt_mul_self_dotProduct (v : Fin 3 → ℝ) : √(v ⬝ᵥ v) * √(v ⬝ᵥ v) = v ⬝ᵥ v :=
  Real.mul_self_sqrt (dotProduct_self_nonneg v)

/-! The angle between the identity and a rotation. -/

noncomputable def angle (R : Matrix (Fin 3) (Fin 3) ℝ) : ℝ := Real.arccos ((R.trace - 1) / 2)

theorem angle_transpose (R : Matrix (Fin 3) (Fin 3) ℝ) : angle Rᵀ = angle R := by rw [angle, trace_transpose, angle]

theorem angle_exponential {θ : ℝ} (nonneg : 0 ≤ θ) (le : θ ≤ Real.pi) {w : Fin 3 → ℝ} (unit : w ⬝ᵥ w = 1) :
    angle (exponential (Real.sin θ) (Real.cos θ) w) = θ := by
  have cosine : (1 + 2 * Real.cos θ - 1) / 2 = Real.cos θ := by ring
  rw [angle, trace_exponential _ _ unit, cosine, Real.arccos_cos nonneg le]

end AxbyCore.Rotation
