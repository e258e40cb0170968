import AxbyCore.Library.Rotation
import Mathlib.Data.Matrix.Block
import Mathlib.LinearAlgebra.Matrix.RowCol

/-! Rigid motions of space as matrices of homogeneous coordinates, in blocks. -/

namespace AxbyCore.RigidMotion
open Matrix

variable {K : Type*}

def translation (T : Matrix (Fin 3 ⊕ Unit) (Fin 3 ⊕ Unit) K) : Fin 3 → K := fun i => T (.inl i) (.inr ())

theorem toBlocks₁₂_eq (T : Matrix (Fin 3 ⊕ Unit) (Fin 3 ⊕ Unit) K) :
    T.toBlocks₁₂ = replicateCol Unit (translation T) := rfl

variable [CommRing K]

/-- Turned by a matrix and then moved by a vector. -/
def affine (R : Matrix (Fin 3) (Fin 3) K) (t : Fin 3 → K) : Matrix (Fin 3 ⊕ Unit) (Fin 3 ⊕ Unit) K :=
  fromBlocks R (replicateCol Unit t) 0 1

@[simp] theorem affine_toBlocks₁₁ (R : Matrix (Fin 3) (Fin 3) K) (t : Fin 3 → K) : (affine R t).toBlocks₁₁ = R :=
  toBlocks_fromBlocks₁₁ ..

@[simp] theorem affine_translation (R : Matrix (Fin 3) (Fin 3) K) (t : Fin 3 → K) : translation (affine R t) = t := rfl

theorem affine_one : affine (1 : Matrix (Fin 3) (Fin 3) K) 0 = 1 := by
  rw [affine, replicateCol_zero, fromBlocks_one]

theorem mul_replicateCol (M : Matrix (Fin 3) (Fin 3) K) (v : Fin 3 → K) :
    M * replicateCol Unit v = replicateCol Unit (M *ᵥ v) := (replicateCol_mulVec M v).symm

theorem affine_mul (R S : Matrix (Fin 3) (Fin 3) K) (t u : Fin 3 → K) :
    affine R t * affine S u = affine (R * S) (R *ᵥ u + t) := by
  rw [affine, affine, affine, fromBlocks_multiply, mul_replicateCol, replicateCol_add]
  simp

structure IsRigid (T : Matrix (Fin 3 ⊕ Unit) (Fin 3 ⊕ Unit) K) : Prop where
  rotation : IsRotation T.toBlocks₁₁
  row : T.toBlocks₂₁ = 0
  corner : T.toBlocks₂₂ = 1

theorem IsRigid.eq_affine {T : Matrix (Fin 3 ⊕ Unit) (Fin 3 ⊕ Unit) K} (rigid : IsRigid T) :
    T = affine T.toBlocks₁₁ (translation T) := by
  calc T = fromBlocks T.toBlocks₁₁ T.toBlocks₁₂ T.toBlocks₂₁ T.toBlocks₂₂ := (fromBlocks_toBlocks T).symm
    _ = affine T.toBlocks₁₁ (translation T) := by rw [rigid.row, rigid.corner, toBlocks₁₂_eq, affine]

theorem isRigid_affine {R : Matrix (Fin 3) (Fin 3) K} (rotation : IsRotation R) (t : Fin 3 → K) : IsRigid (affine R t) := by
  constructor
  · rwa [affine_toBlocks₁₁]
  · exact toBlocks_fromBlocks₂₁ ..
  · exact toBlocks_fromBlocks₂₂ ..

theorem isRigid_iff {T : Matrix (Fin 3 ⊕ Unit) (Fin 3 ⊕ Unit) K} : IsRigid T ↔ ∃ R t, IsRotation R ∧ T = affine R t := by
  constructor
  · intro rigid
    exact ⟨_, _, rigid.rotation, rigid.eq_affine⟩
  · rintro ⟨R, t, rotation, rfl⟩
    exact isRigid_affine rotation t

/-- Moved back and then turned back. -/
def back (R : Matrix (Fin 3) (Fin 3) K) (t : Fin 3 → K) : Matrix (Fin 3 ⊕ Unit) (Fin 3 ⊕ Unit) K :=
  affine Rᵀ (-(Rᵀ *ᵥ t))

theorem back_mul {R : Matrix (Fin 3) (Fin 3) K} (orthonormal : Rᵀ * R = 1) (t : Fin 3 → K) : back R t * affine R t = 1 := by
  rw [back, affine_mul, orthonormal, add_neg_cancel, affine_one]

theorem mul_back {R : Matrix (Fin 3) (Fin 3) K} (orthonormal : Rᵀ * R = 1) (t : Fin 3 → K) : affine R t * back R t = 1 :=
  mul_eq_one_comm.mp (back_mul orthonormal t)

/-- Without the last row, as the velocity of a motion is. -/
def twist (M : Matrix (Fin 3) (Fin 3) K) (u : Fin 3 → K) : Matrix (Fin 3 ⊕ Unit) (Fin 3 ⊕ Unit) K :=
  fromBlocks M (replicateCol Unit u) 0 0

section
variable (M N : Matrix (Fin 3) (Fin 3) K) (u v : Fin 3 → K)

theorem twist_add : twist M u + twist N v = twist (M + N) (u + v) := by
  rw [twist, twist, twist, fromBlocks_add, ← replicateCol_add, add_zero, add_zero]

theorem smul_twist (scale : K) : scale • twist M u = twist (scale • M) (scale • u) := by
  rw [twist, twist, fromBlocks_smul, ← replicateCol_smul, smul_zero, smul_zero]

theorem neg_twist : -twist M u = twist (-M) (-u) := by
  rw [← neg_one_smul K (twist M u), smul_twist, neg_one_smul, neg_one_smul]

theorem twist_mul : twist M u * twist N v = twist (M * N) (M *ᵥ v) := by
  rw [twist, twist, twist, fromBlocks_multiply, mul_replicateCol]
  simp

theorem one_add_twist : 1 + twist M u = affine (1 + M) u := by
  rw [twist, affine, ← fromBlocks_one, fromBlocks_add, zero_add, zero_add, add_zero]

end

end AxbyCore.RigidMotion
