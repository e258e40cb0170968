import AxbyCore.Math.Spatial
import Mathlib.LinearAlgebra.Matrix.DotProduct

/-! The rotation that takes an axis to a direction. It starts from the cross product with
the first axis, which degenerates along that axis. -/

namespace AxbyCore.Proofs.DirectionRotation
open Math.Spatial Matrix Rotation

theorem dot_self_pos {vec : Vector3 ℝ} (nonzero : vec ≠ 0) : 0 < vec ⬝ᵥ vec := by
  apply lt_of_le_of_ne
  · exact dotProduct_self_nonneg vec
  · exact fun zero => nonzero (dotProduct_self_eq_zero.mp zero.symm)

theorem normalized_eq {vec : Vector3 ℝ} (nonzero : vec ≠ 0) : normalized vec = (√(vec ⬝ᵥ vec))⁻¹ • vec :=
  if_pos (dot_self_pos nonzero)

theorem normalized_zero : normalized 0 = 0 := by simp [normalized]

theorem normalized_unit {vec : Vector3 ℝ} (nonzero : vec ≠ 0) : normalized vec ⬝ᵥ normalized vec = 1 := by
  have positive := dot_self_pos nonzero
  have root : √(vec ⬝ᵥ vec) ≠ 0 := (Real.sqrt_pos.mpr positive).ne'
  rw [normalized_eq nonzero]
  exact unit_of_root (Real.mul_self_sqrt positive.le) root

/-- The vector that the frame is completed with. -/
theorem cross_first (vec : Vector3 ℝ) : vec ⨯₃ ![1, 0, 0] = ![0, vec 2, -vec 1] := by
  simp [cross_apply]

theorem cross_first_eq_zero {vec : Vector3 ℝ} : vec ⨯₃ ![1, 0, 0] = 0 ↔ vec 1 = 0 ∧ vec 2 = 0 := by
  rw [cross_first]
  constructor
  · intro zero
    have second := congrFun zero 1
    have third := congrFun zero 2
    simp only [cons_val, Pi.zero_apply, neg_eq_zero] at second third
    exact ⟨third, second⟩
  · rintro ⟨second, third⟩
    rw [second, third]
    simp

theorem normalized_apply_eq_zero {vec : Vector3 ℝ} (nonzero : vec ≠ 0) (i : Fin 3) : normalized vec i = 0 ↔ vec i = 0 := by
  have root : (√(vec ⬝ᵥ vec))⁻¹ ≠ 0 := inv_ne_zero (Real.sqrt_pos.mpr (dot_self_pos nonzero)).ne'
  rw [normalized_eq nonzero, Pi.smul_apply, smul_eq_mul, mul_eq_zero_iff_left root]

theorem directionToRotation_eq_frame (direction : Vector3 ℝ) (axis : Fin 3) :
    directionToRotation direction axis = frame (normalized direction) (normalized (normalized direction ⨯₃ ![1, 0, 0])) axis := by
  ext i j
  fin_cases axis <;> fin_cases j <;> rfl

theorem frame_rotation {direction : Vector3 ℝ} (nonzero : direction ≠ 0) (aside : direction 1 ≠ 0 ∨ direction 2 ≠ 0)
    (axis : Fin 3) : IsRotation (directionToRotation direction axis) := by
  have across : normalized direction ⨯₃ ![1, 0, 0] ≠ 0 := by
    intro zero
    obtain ⟨second, third⟩ := cross_first_eq_zero.mp zero
    rcases aside with there | there
    · exact there ((normalized_apply_eq_zero nonzero 1).mp second)
    · exact there ((normalized_apply_eq_zero nonzero 2).mp third)
  rw [directionToRotation_eq_frame]
  apply isRotation_frame (normalized_unit nonzero) (normalized_unit across)
  rw [normalized_eq across, dotProduct_smul, dot_self_cross, smul_zero]

/-- Along the first axis the next column is zero. -/
theorem degenerate {direction : Vector3 ℝ} (second : direction 1 = 0) (third : direction 2 = 0) (axis : Fin 3) :
    directionToRotation direction axis *ᵥ Pi.single (axis + 1) 1 = 0 := by
  have along : normalized direction ⨯₃ ![1, 0, 0] = 0 := by
    apply cross_first_eq_zero.mpr
    unfold normalized
    split <;> simp [second, third]
  have next : axis + 1 - axis = 1 := by rw [add_sub_cancel_left]
  rw [directionToRotation_eq_frame, along, normalized_zero]
  ext i
  simp only [mulVec_single_one, col_apply, frame, next]
  rfl

theorem not_orthonormal {direction : Vector3 ℝ} (second : direction 1 = 0) (third : direction 2 = 0) (axis : Fin 3) :
    ¬ (directionToRotation direction axis)ᵀ * directionToRotation direction axis = 1 := by
  intro orthonormal
  have collapsed := degenerate second third axis
  have kept : (Pi.single (axis + 1) 1 : Vector3 ℝ) = 0 := by
    calc (Pi.single (axis + 1) 1 : Vector3 ℝ)
        = ((directionToRotation direction axis)ᵀ * directionToRotation direction axis) *ᵥ Pi.single (axis + 1) 1 := by
          rw [orthonormal, one_mulVec]
      _ = 0 := by rw [← mulVec_mulVec, collapsed, mulVec_zero]
  exact one_ne_zero (Pi.single_eq_zero_iff.mp kept)

theorem direction_rotation_iff {direction : Vector3 ℝ} (nonzero : direction ≠ 0) (axis : Fin 3) :
    ((directionToRotation direction axis)ᵀ * directionToRotation direction axis = 1 ∧
      (directionToRotation direction axis).det = 1 ∧
      ∀ i, directionToRotation direction axis i axis = direction i / √(direction ⬝ᵥ direction)) ↔
    direction 1 ≠ 0 ∨ direction 2 ≠ 0 := by
  constructor
  · rintro ⟨orthonormal, -, -⟩
    by_contra straight
    push Not at straight
    exact not_orthonormal straight.1 straight.2 axis orthonormal
  · intro aside
    have rotation := frame_rotation nonzero aside axis
    refine ⟨rotation.transpose_mul, rotation.det, fun i => ?_⟩
    rw [directionToRotation_eq_frame, frame_axis, normalized_eq nonzero, Pi.smul_apply, smul_eq_mul, inv_mul_eq_div]

theorem direction_rotation_up : (directionToRotation ![0, 0, 2] 1)ᵀ * directionToRotation ![0, 0, 2] 1 = 1 ∧
    (directionToRotation ![0, 0, 2] 1).det = 1 ∧
    ∀ i, directionToRotation ![0, 0, 2] 1 i 1 = (![0, 0, 2] : Vector3 ℝ) i / √(![0, 0, 2] ⬝ᵥ ![0, 0, 2]) := by
  have nonzero : (![0, 0, 2] : Vector3 ℝ) ≠ 0 := fun zero => two_ne_zero (congrFun zero 2)
  exact (direction_rotation_iff nonzero 1).mpr (.inr two_ne_zero)

/-- The first axis itself has no rotation that takes an axis to it. -/
theorem no_rotation_forward : (![1, 0, 0] : Vector3 ℝ) ≠ 0 ∧
    ¬ (directionToRotation ![1, 0, 0] 0)ᵀ * directionToRotation ![1, 0, 0] 0 = 1 := by
  refine ⟨fun zero => one_ne_zero (congrFun zero 0), ?_⟩
  exact not_orthonormal rfl rfl 0

end AxbyCore.Proofs.DirectionRotation
