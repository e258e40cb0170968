import AxbyCore.Math.Spatial
import Mathlib.LinearAlgebra.Matrix.DotProduct

/-! Rigid motions are interpolated from the first to the second. The angle and the axis of a
rotation are exact, so only a turn that is shorter than the vectors taken for zero is left out. -/

namespace AxbyCore.Proofs.RigidInterpolation
open Math Math.Spatial Matrix Rotation RigidMotion Eigen

variable {R : Matrix3 ℝ}

/-- The quaternion is a unit, and that of the rotation. -/
structure Represents (q : Quaternion) (R : Matrix3 ℝ) : Prop where
  unit : normSq q.w q.vec = 1
  matrix : ofQuaternion q.w q.vec = R

theorem half_eq : (0.5 : ℝ) = 1 / 2 := by norm_num

theorem positive_trace (rotation : IsRotation R) (positive : 0 < R.trace) : Represents (Quaternion.ofMatrix R) R := by
  have square : √(R.trace + 1) * √(R.trace + 1) = R.trace + 1 := Real.mul_self_sqrt (by linarith)
  have nonzero : √(R.trace + 1) ≠ 0 := Real.sqrt_ne_zero'.mpr (by linarith)
  have vector : ![(R 2 1 - R 1 2) * (0.5 / √(R.trace + 1)), (R 0 2 - R 2 0) * (0.5 / √(R.trace + 1)),
      (R 1 0 - R 0 1) * (0.5 / √(R.trace + 1))] = (1 / 2 / √(R.trace + 1)) • axial R := by
    ext i
    fin_cases i <;> simp [axial, half_eq, mul_comm]
  obtain ⟨unit, matrix⟩ := ofQuaternion_axial rotation square nonzero
  rw [Quaternion.ofMatrix]
  dsimp only
  rw [if_pos positive, vector, half_eq]
  exact ⟨unit, matrix⟩

theorem largestDiagonal_le (R : Matrix3 ℝ) (i : Fin 3) :
    R i i ≤ R (Quaternion.largestDiagonal R) (Quaternion.largestDiagonal R) := by
  have first : R 0 0 ≤ R (if R 0 0 < R 1 1 then 1 else 0) (if R 0 0 < R 1 1 then 1 else 0) ∧
      R 1 1 ≤ R (if R 0 0 < R 1 1 then 1 else 0) (if R 0 0 < R 1 1 then 1 else 0) := by
    split
    next less => exact ⟨less.le, le_rfl⟩
    next notLess => exact ⟨le_rfl, not_lt.mp notLess⟩
  unfold Quaternion.largestDiagonal
  generalize (if R 0 0 < R 1 1 then 1 else 0 : Fin 3) = i' at *
  dsimp only
  split
  next less => fin_cases i <;> simp <;> linarith
  next notLess => fin_cases i <;> simp <;> linarith

/-- With the coordinates around the chosen one in cyclic order. -/
theorem around (R : Matrix3 ℝ) (i : Fin 3) :
    R i i - R (i + 1) (i + 1) - R (i + 1 + 1) (i + 1 + 1) + 1 = 2 * R i i - R.trace + 1 := by
  rw [trace_fin_three]
  fin_cases i <;> simp <;> ring

theorem negative_trace (rotation : IsRotation R) (notPositive : ¬ 0 < R.trace) : Represents (Quaternion.ofMatrix R) R := by
  have most := largestDiagonal_le R
  rw [Quaternion.ofMatrix, if_neg notPositive]
  dsimp only
  generalize Quaternion.largestDiagonal R = i at most
  have room : 0 < 2 * R i i - R.trace + 1 := by
    have total := trace_fin_three R
    linarith [most 0, most 1, most 2]
  rw [around]
  generalize root_eq : √(2 * R i i - R.trace + 1) = root
  have square : root * root = 2 * R i i - R.trace + 1 := by rw [← root_eq, Real.mul_self_sqrt room.le]
  have nonzero : root ≠ 0 := by
    rw [← root_eq]
    exact Real.sqrt_ne_zero'.mpr room
  obtain ⟨unit, matrix⟩ := ofQuaternion_pivot rotation i square nonzero rfl
  generalize vector : (1 / 2 / root) • axial (R * halfTurn i) = u at unit matrix
  have scalar : (R (i + 1 + 1) (i + 1) - R (i + 1) (i + 1 + 1)) * (0.5 / root) = -u i := by
    rw [← vector, half_eq]
    fin_cases i <;> simp [axial, mul_halfTurn] <;> ring
  have entries : (fun c => if c = i then 0.5 * root else if c = i + 1 then (R (i + 1) i + R i (i + 1)) * (0.5 / root)
      else (R (i + 1 + 1) i + R i (i + 1 + 1)) * (0.5 / root)) = (1 / 2 * root) • Pi.single i 1 + u ⨯₃ Pi.single i 1 := by
    ext c
    rw [← vector, half_eq]
    fin_cases i <;> fin_cases c <;> simp [axial, mul_halfTurn, cross_apply] <;> ring
  rw [scalar, entries]
  exact ⟨unit, matrix⟩

theorem ofMatrix_represents (rotation : IsRotation R) : Represents (Quaternion.ofMatrix R) R := by
  by_cases positive : 0 < R.trace
  · exact positive_trace rotation positive
  · exact negative_trace rotation positive

/-- An angle up to a half turn and a unit vector about which it turns. -/
structure Turns (angleAxis : AngleAxis) (R : Matrix3 ℝ) : Prop where
  nonneg : 0 ≤ angleAxis.angle
  le : angleAxis.angle ≤ Real.pi
  unit : angleAxis.axis ⬝ᵥ angleAxis.axis = 1
  matrix : exponential (Real.sin angleAxis.angle) (Real.cos angleAxis.angle) angleAxis.axis = R

theorem atan2_spec {y x : ℝ} (circle : x * x + y * y = 1) (above : 0 ≤ y) (right : 0 ≤ x) :
    Real.sin (atan2 y x) = y ∧ Real.cos (atan2 y x) = x ∧ 0 ≤ atan2 y x ∧ atan2 y x ≤ Real.pi / 2 := by
  have norm : ‖(⟨x, y⟩ : ℂ)‖ = 1 := by
    rw [Complex.norm_def, Complex.normSq_mk, circle, Real.sqrt_one]
  have nonzero : (⟨x, y⟩ : ℂ) ≠ 0 := by
    rw [← norm_ne_zero_iff, norm]
    exact one_ne_zero
  refine ⟨?_, ?_, Complex.arg_nonneg_iff.mpr above, (abs_le.mp (Complex.abs_arg_le_pi_div_two_iff.mpr right)).2⟩
  · rw [atan2, Complex.sin_arg, norm, div_one]
  · rw [atan2, Complex.cos_arg nonzero, norm, div_one]

theorem ofQuaternion_turns {q : Quaternion} (represents : Represents q R) : Turns (AngleAxis.ofQuaternion q) R := by
  obtain ⟨unit, rfl⟩ := represents
  rw [ofQuaternion_eq unit]
  rw [normSq] at unit
  have square := sqrt_mul_self_dotProduct q.vec
  have nonneg := Real.sqrt_nonneg (q.vec ⬝ᵥ q.vec)
  rw [AngleAxis.ofQuaternion]
  generalize √(q.vec ⬝ᵥ q.vec) = n at square nonneg
  split
  next nonzero =>
    obtain ⟨sine, cosine, least, most⟩ := atan2_spec (by rw [abs_mul_abs_self, square, unit]) nonneg (abs_nonneg q.w)
    obtain ⟨signed, length, scalar⟩ : (if q.w < 0 then -n else n) ≠ 0 ∧
        (if q.w < 0 then -n else n) * (if q.w < 0 then -n else n) = q.vec ⬝ᵥ q.vec ∧
        |q.w| * n = q.w * (if q.w < 0 then -n else n) := by
      split
      next negative => exact ⟨neg_ne_zero.mpr nonzero, by rw [neg_mul_neg, square], by rw [abs_of_neg negative]; ring⟩
      next notNegative => exact ⟨nonzero, square, by rw [abs_of_nonneg (not_lt.mp notNegative)]⟩
    generalize (if q.w < 0 then -n else n) = divisor at signed length scalar
    refine ⟨by positivity, by linarith, unit_of_root length signed, ?_⟩
    have first : 2 * n * |q.w| * divisor⁻¹ = 2 * q.w := by
      rw [mul_inv_eq_iff_eq_mul₀ signed]
      linarith
    have second : (1 - (2 * |q.w| ^ 2 - 1)) * (divisor⁻¹ * divisor⁻¹) = 2 := by
      rw [sq_abs, ← mul_inv, mul_inv_eq_iff_eq_mul₀ (mul_ne_zero signed signed), length]
      linarith
    rw [Real.sin_two_mul, Real.cos_two_mul, sine, cosine, exponential, hat_smul, Matrix.smul_mul, Matrix.mul_smul]
    calc _ = (1 : Matrix3 ℝ) + (2 * n * |q.w| * divisor⁻¹) • hat q.vec +
        ((1 - (2 * |q.w| ^ 2 - 1)) * (divisor⁻¹ * divisor⁻¹)) • (hat q.vec * hat q.vec) := by module
      _ = _ := by rw [first, second]
  next zero =>
    rw [not_not.mp zero, mul_zero] at square
    have still : q.vec = 0 := dotProduct_self_eq_zero.mp square.symm
    refine ⟨le_rfl, Real.pi_pos.le, by simp, ?_⟩
    rw [exponential, still, hat_zero]
    simp

theorem ofMatrix_turns (rotation : IsRotation R) : Turns (AngleAxis.ofMatrix R) R :=
  ofQuaternion_turns (ofMatrix_represents rotation)

/-- What is written entry by entry is the rotation by the angle. -/
theorem toRotationMatrix_eq {angleAxis : AngleAxis} (unit : angleAxis.axis ⬝ᵥ angleAxis.axis = 1) :
    angleAxis.toRotationMatrix = exponential (Real.sin angleAxis.angle) (Real.cos angleAxis.angle) angleAxis.axis := by
  rw [exponential, hat_mul_hat, unit]
  ext i j
  fin_cases i <;> fin_cases j <;> simp [AngleAxis.toRotationMatrix, hat, vecMulVec_apply] <;> ring

theorem vectorToRotation_eq {vec : Vector3 ℝ} (long : ¬ √(vec ⬝ᵥ vec) < 1e-8) :
    (((√(vec ⬝ᵥ vec))⁻¹ • vec) ⬝ᵥ ((√(vec ⬝ᵥ vec))⁻¹ • vec) = 1) ∧
      vectorToRotation vec =
        exponential (Real.sin √(vec ⬝ᵥ vec)) (Real.cos √(vec ⬝ᵥ vec)) ((√(vec ⬝ᵥ vec))⁻¹ • vec) := by
  have positive : (0 : ℝ) < 1e-8 := by norm_num
  have nonzero : √(vec ⬝ᵥ vec) ≠ 0 := (positive.trans_le (not_lt.mp long)).ne'
  have unit := unit_of_root (sqrt_mul_self_dotProduct vec) nonzero
  refine ⟨unit, ?_⟩
  rw [vectorToRotation]
  dsimp only
  rw [if_neg long, toRotationMatrix_eq unit]

theorem isRotation_vectorToRotation (vec : Vector3 ℝ) : IsRotation (vectorToRotation vec) := by
  by_cases short : √(vec ⬝ᵥ vec) < 1e-8
  · rw [vectorToRotation]
    dsimp only
    rw [if_pos short]
    exact .one
  · obtain ⟨unit, same⟩ := vectorToRotation_eq short
    rw [same]
    exact isRotation_exponential (Real.sin_sq_add_cos_sq _) unit

/-- The vector of a rotation has the length of its angle. -/
theorem sqrt_rotationToVector (rotation : IsRotation R) :
    √(rotationToVector R ⬝ᵥ rotationToVector R) = (AngleAxis.ofMatrix R).angle := by
  have turns := ofMatrix_turns rotation
  rw [rotationToVector, smul_dotProduct, dotProduct_smul, turns.unit, smul_eq_mul, smul_eq_mul, mul_one,
    Real.sqrt_mul_self turns.nonneg]

theorem angle_ofMatrix (rotation : IsRotation R) : (AngleAxis.ofMatrix R).angle = angle R := by
  have turns := ofMatrix_turns rotation
  have same := angle_exponential turns.nonneg turns.le turns.unit
  rw [turns.matrix] at same
  exact same.symm

/-- The two conversions are inverse to each other but for short vectors. -/
theorem vectorToRotation_rotationToVector (rotation : IsRotation R) :
    vectorToRotation (rotationToVector R) = if angle R < 1e-8 then 1 else R := by
  have length := (sqrt_rotationToVector rotation).trans (angle_ofMatrix rotation)
  split
  next short =>
    rw [vectorToRotation]
    dsimp only
    rw [if_pos (length.trans_lt short)]
  next long =>
    have turns := ofMatrix_turns rotation
    have positive : (0 : ℝ) < 1e-8 := by norm_num
    have nonzero : (AngleAxis.ofMatrix R).angle ≠ 0 := by
      rw [angle_ofMatrix rotation]
      exact (positive.trans_le (not_lt.mp long)).ne'
    obtain ⟨-, same⟩ := vectorToRotation_eq (by rwa [length])
    rw [same, sqrt_rotationToVector rotation, rotationToVector, inv_smul_smul₀ nonzero, turns.matrix]

theorem lerpTx_eq (A B : Matrix4 ℝ) (progress : ℝ) :
    lerpTx A B progress = affine (lerpRotation A.toBlocks₁₁ B.toBlocks₁₁ progress)
      ((1 - progress) • translation A + progress • translation B) := rfl

theorem lerpRotation_zero (A B : Matrix3 ℝ) : lerpRotation A B 0 = A := by
  have positive : (0 : ℝ) < 1e-8 := by norm_num
  rw [lerpRotation, zero_smul, vectorToRotation]
  dsimp only
  rw [zero_dotProduct, Real.sqrt_zero, if_pos positive, Matrix.one_mul]

theorem lerpRotation_one {A B : Matrix3 ℝ} (rotationA : IsRotation A) (rotationB : IsRotation B) :
    lerpRotation A B 1 = if angle (B * Aᵀ) < 1e-8 then A else B := by
  rw [lerpRotation, one_smul, vectorToRotation_rotationToVector (rotationB.mul rotationA.transpose)]
  split
  next => rw [Matrix.one_mul]
  next => rw [Matrix.mul_assoc, rotationA.transpose_mul, Matrix.mul_one]

/-- From the first at 0 to the second at 1, or at least to its translation and as near to its rotation as the first is. -/
theorem lerp_tx_rigid {A B : Matrix4 ℝ} (rigidA : IsRigid A) (rigidB : IsRigid B) :
    (∀ progress, 0 ≤ progress → progress ≤ 1 → IsRigid (lerpTx A B progress)) ∧
    lerpTx A B 0 = A ∧
    (1e-8 ≤ angle (B.toBlocks₁₁ * A.toBlocks₁₁ᵀ) → lerpTx A B 1 = B) ∧
    (angle (B.toBlocks₁₁ * A.toBlocks₁₁ᵀ) < 1e-8 →
      translation (lerpTx A B 1) = translation B ∧
        angle ((lerpTx A B 1).toBlocks₁₁ * B.toBlocks₁₁ᵀ) ≤ angle (B.toBlocks₁₁ * A.toBlocks₁₁ᵀ)) := by
  have last : (1 - 1 : ℝ) • translation A + (1 : ℝ) • translation B = translation B := by
    rw [sub_self, zero_smul, zero_add, one_smul]
  have turned := lerpRotation_one rigidA.rotation rigidB.rotation
  refine ⟨?_, ?_, ?_, ?_⟩
  · intro progress _ _
    rw [lerpTx_eq]
    exact isRigid_affine ((isRotation_vectorToRotation _).mul rigidA.rotation) _
  · calc lerpTx A B 0 = affine A.toBlocks₁₁ (translation A) := by
          rw [lerpTx_eq, lerpRotation_zero, sub_zero, one_smul, zero_smul, add_zero]
      _ = A := rigidA.eq_affine.symm
  · intro long
    calc lerpTx A B 1 = affine B.toBlocks₁₁ (translation B) := by
          rw [lerpTx_eq, turned, if_neg (not_lt.mpr long), last]
      _ = B := rigidB.eq_affine.symm
  · intro short
    rw [lerpTx_eq, turned, if_pos short, last, affine_translation, affine_toBlocks₁₁]
    refine ⟨rfl, le_of_eq ?_⟩
    rw [← angle_transpose, transpose_mul, transpose_transpose]

/-- To a half turn about the last axis, a step away. -/
theorem lerp_tx_rigid_half : lerpTx (affine 1 0) (affine !![-1, -0, 0; 0, -1, 0; 0, 0, 1] ![1, 0, 0]) 1 =
    affine !![-1, -0, 0; 0, -1, 0; 0, 0, 1] ![1, 0, 0] := by
  have half : IsRotation (!![-1, -0, 0; 0, -1, 0; 0, 0, 1] : Matrix3 ℝ) := .about_last (by norm_num)
  obtain ⟨-, -, reached, -⟩ := lerp_tx_rigid (isRigid_affine .one 0) (isRigid_affine half ![1, 0, 0])
  apply reached
  have straight : ((!![-1, -0, 0; 0, -1, 0; 0, 0, 1] * (1 : Matrix3 ℝ)ᵀ).trace - 1) / 2 = -1 := by
    simp [trace_fin_three]
    norm_num
  rw [affine_toBlocks₁₁, affine_toBlocks₁₁, angle, straight, Real.arccos_neg_one]
  linarith [Real.two_le_pi]

end AxbyCore.Proofs.RigidInterpolation
