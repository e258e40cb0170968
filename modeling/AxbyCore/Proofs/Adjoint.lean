import AxbyCore.Math.Spatial

/-! The adjoint of rigid motions: a homomorphism, and the change of frame of twists. -/

namespace AxbyCore.Proofs.Adjoint
open Math.Spatial Matrix RigidMotion Rotation

variable {K : Type*} [CommRing K]

theorem so3VecToMat_eq (vec : Vector3 K) : so3VecToMat vec = hat vec := rfl

theorem se3Inv_affine (R : Matrix3 K) (t : Vector3 K) : se3Inv (affine R t) = back R t := by
  rw [se3Inv, affine_toBlocks₁₁, affine_translation, neg_mulVec]
  rfl

theorem se3Adj_affine (R : Matrix3 K) (t : Vector3 K) : se3Adj (affine R t) = adjOf R t := by
  rw [se3Adj, affine_toBlocks₁₁, affine_translation]

theorem adjOf_one : adjOf (1 : Matrix3 K) 0 = 1 := by
  have still : so3VecToMat (0 : Vector3 K) = 0 := hat_zero
  rw [adjOf, still, Matrix.zero_mul, fromBlocks_one]

theorem adjOf_mul {R : Matrix3 K} (rotation : IsRotation R) (S : Matrix3 K) (t u : Vector3 K) :
    adjOf R t * adjOf S u = adjOf (R * S) (R *ᵥ u + t) := by
  have turned : hat t * R * S + R * (hat u * S) = hat (R *ᵥ u + t) * (R * S) := by
    calc hat t * R * S + R * (hat u * S) = R * hat u * S + hat t * R * S := by rw [add_comm, Matrix.mul_assoc R]
      _ = hat (R *ᵥ u) * R * S + hat t * R * S := by rw [rotation.mul_hat]
      _ = hat (R *ᵥ u + t) * (R * S) := by rw [hat_add, Matrix.add_mul, ← Matrix.mul_assoc, ← Matrix.mul_assoc]
  rw [adjOf, adjOf, adjOf, fromBlocks_multiply]
  simp only [so3VecToMat_eq, turned, Matrix.zero_mul, Matrix.mul_zero, add_zero, zero_add]

theorem se3Adj_mul {A B : Matrix4 K} (rigidA : IsRigid A) (rigidB : IsRigid B) :
    se3Adj (A * B) = se3Adj A * se3Adj B := by
  obtain ⟨R, t, rotation, rfl⟩ := isRigid_iff.mp rigidA
  obtain ⟨S, u, _, rfl⟩ := isRigid_iff.mp rigidB
  rw [affine_mul, se3Adj_affine, se3Adj_affine, se3Adj_affine, adjOf_mul rotation]

theorem se3Inv_mul {A : Matrix4 K} (rigid : IsRigid A) : se3Inv A * A = 1 := by
  obtain ⟨R, t, rotation, rfl⟩ := isRigid_iff.mp rigid
  rw [se3Inv_affine, back_mul rotation.transpose_mul]

theorem rigid_se3Inv {A : Matrix4 K} (rigid : IsRigid A) : IsRigid (se3Inv A) := by
  obtain ⟨R, t, rotation, rfl⟩ := isRigid_iff.mp rigid
  rw [se3Inv_affine]
  exact isRigid_affine rotation.transpose _

theorem se3Adj_inv_mul {A : Matrix4 K} (rigid : IsRigid A) : se3Adj (se3Inv A) * se3Adj A = 1 := by
  calc se3Adj (se3Inv A) * se3Adj A = se3Adj (se3Inv A * A) := (se3Adj_mul (rigid_se3Inv rigid) rigid).symm
    _ = se3Adj (affine 1 0) := by rw [se3Inv_mul rigid, affine_one]
    _ = 1 := by rw [se3Adj_affine, adjOf_one]

/-- Twists are read back from their matrices. -/
theorem se3MatToVec_se3VecToMat (xi : Vector6 K) : se3MatToVec (se3VecToMat xi) = xi := by
  funext i
  cases i with
  | inl i => fin_cases i <;> rfl
  | inr i => rfl

/-- The rotation part and the translation part of a twist in another frame. -/
theorem adjOf_mulVec (R : Matrix3 K) (t : Vector3 K) (xi : Vector6 K) :
    adjOf R t *ᵥ xi = Sum.elim (R *ᵥ (xi ∘ .inl)) (hat t *ᵥ R *ᵥ (xi ∘ .inl) + R *ᵥ (xi ∘ .inr)) := by
  rw [adjOf, fromBlocks_mulVec, zero_mulVec, add_zero, mulVec_mulVec, so3VecToMat_eq]

theorem conjugate_twist {R : Matrix3 K} (rotation : IsRotation R) (t w v : Vector3 K) :
    affine R t * fromBlocks (hat w) (replicateCol Unit v) 0 0 * back R t =
      fromBlocks (hat (R *ᵥ w)) (replicateCol Unit (hat t *ᵥ R *ᵥ w + R *ᵥ v)) 0 0 := by
  have moved : (R * hat w) *ᵥ -(Rᵀ *ᵥ t) = hat t *ᵥ R *ᵥ w := by
    calc (R * hat w) *ᵥ -(Rᵀ *ᵥ t) = -(hat (R *ᵥ w) *ᵥ t) := by rw [mulVec_neg, mulVec_mulVec, rotation.conjugate_hat]
      _ = hat t *ᵥ R *ᵥ w := (hat_mulVec_comm t _).symm
  rw [affine, back, affine, fromBlocks_multiply, fromBlocks_multiply]
  simp only [Matrix.mul_zero, Matrix.zero_mul, add_zero, Matrix.mul_one, rotation.conjugate_hat, mul_replicateCol, moved,
    ← replicateCol_add]

theorem se3VecToMat_adj {A : Matrix4 K} (rigid : IsRigid A) (xi : Vector6 K) :
    se3VecToMat (se3Adj A *ᵥ xi) = A * se3VecToMat xi * se3Inv A := by
  obtain ⟨R, t, rotation, rfl⟩ := isRigid_iff.mp rigid
  rw [se3Adj_affine, se3Inv_affine, adjOf_mulVec]
  exact (conjugate_twist rotation t (xi ∘ .inl) (xi ∘ .inr)).symm

/-- The adjoint represents rigid motions. -/
theorem adjoint_representation {A B : Matrix4 K} (rigidA : IsRigid A) (rigidB : IsRigid B) :
    se3Adj (A * B) = se3Adj A * se3Adj B ∧
    se3Adj (se3Inv A) * se3Adj A = 1 ∧ se3Adj A * se3Adj (se3Inv A) = 1 ∧
    se3Inv A * A = 1 ∧
    ∀ xi, se3VecToMat (se3Adj A *ᵥ xi) = A * se3VecToMat xi * se3Inv A :=
  ⟨se3Adj_mul rigidA rigidB, se3Adj_inv_mul rigidA, mul_eq_one_comm.mp (se3Adj_inv_mul rigidA), se3Inv_mul rigidA,
    se3VecToMat_adj rigidA⟩

/-- A quarter turn about the last axis, and a step along the first. -/
def turn : Matrix4 Int := affine !![0, -1, 0; 1, 0, 0; 0, 0, 1] ![1, 0, 0]

theorem turn_rigid : IsRigid turn := by
  apply isRigid_affine
  exact .about_last (by decide)

theorem adjoint_representation_turn : se3Adj (turn * turn) = se3Adj turn * se3Adj turn ∧
    se3Adj (se3Inv turn) * se3Adj turn = 1 ∧ se3Adj turn * se3Adj (se3Inv turn) = 1 ∧ se3Inv turn * turn = 1 ∧
    se3VecToMat (se3Adj turn *ᵥ Sum.elim ![0, 0, 1] ![2, 0, 0]) =
      turn * se3VecToMat (Sum.elim ![0, 0, 1] ![2, 0, 0]) * se3Inv turn := by
  obtain ⟨product, left, right, inverse, twist⟩ := adjoint_representation turn_rigid turn_rigid
  exact ⟨product, left, right, inverse, twist _⟩

end AxbyCore.Proofs.Adjoint
