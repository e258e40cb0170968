import AxbyCore.Library.RotationAngle
import AxbyCore.Math.Spatial

/-! The logarithm of rotations. It is exact but near the identity, which it takes every rotation
for whose diagonal is close to that of the identity, and near half turns, for one of which it takes
every rotation with nearly the trace of one. There it reads the axis off a column, and stays near
the rotation if this is the column with the largest entry on the diagonal. -/

namespace AxbyCore.Proofs.RotationLog
open Math Math.Spatial Matrix Rotation

variable {R : Matrix3 ℝ}

/-- What the angle and the axis stand for. -/
noncomputable def reconstructed (log : So3Log) : Matrix3 ℝ :=
  1 + Real.sin log.theta • log.omegaHat + (1 - Real.cos log.theta) • (log.omegaHat * log.omegaHat)

def NearIdentity (R : Matrix3 ℝ) : Prop := ∀ i, AlmostEquals 1 (R i i)

def NearHalfTurn (R : Matrix3 ℝ) : Prop := AlmostEquals (-1) R.trace

/-- The axis of a half turn is read off the column with the largest entry on the diagonal. -/
def WellPivoted (R : Matrix3 ℝ) : Prop := ¬ NearIdentity R → NearHalfTurn R → ∀ i, R i i ≤ R (pivot R) (pivot R)

/-- How far an entry is off at most. -/
noncomputable def tolerance (R : Matrix3 ℝ) (i j : Fin 3) : ℝ :=
  open Classical in
  if NearIdentity R then if i = j then kTol else √(2 * kTol)
  else if NearHalfTurn R then if j = pivot R then 0 else √(2 * kTol)
  else 0

/-- The result is an angle and the matrix of a unit vector, and stands for a rotation near the one given. -/
structure Represents (log : So3Log) (R : Matrix3 ℝ) : Prop where
  angle : 0 ≤ log.theta ∧ log.theta ≤ Real.pi
  axis : ∃ w, w ⬝ᵥ w = 1 ∧ log.omegaHat = so3VecToMat w
  close : WellPivoted R → ∀ i j, |reconstructed log i j - R i j| ≤ tolerance R i j

theorem identity_represents (rotation : IsRotation R) (near : NearIdentity R) :
    Represents { theta := 0, omegaHat := so3VecToMat ![1, 0, 0], wasIdentity := true } R := by
  refine ⟨⟨le_rfl, Real.pi_pos.le⟩, ⟨_, by simp, rfl⟩, fun _ i j => ?_⟩
  have still : reconstructed { theta := 0, omegaHat := so3VecToMat ![1, 0, 0], wasIdentity := true } = 1 := by
    simp [reconstructed]
  have diagonal (i : Fin 3) : |1 - R i i| < kTol := near i
  rw [still, tolerance, if_pos near]
  split
  next same =>
    subst same
    rw [one_apply_eq]
    exact (diagonal i).le
  next different =>
    rw [one_apply_ne different, zero_sub, abs_neg]
    apply Real.abs_le_sqrt
    have room := rotation.sq_add_sq_le different
    have below := (abs_lt.mp (diagonal j)).2
    have above := rotation.diag_le_one j
    have product : 1 - R j j ^ 2 ≤ 2 * (1 - R j j) := by nlinarith
    linarith

theorem pivot_positive (rotation : IsRotation R) : 0 < 1 + R (pivot R) (pivot R) := by
  have least := rotation.neg_one_le_diag
  have known (i : Fin 3) (off : ¬ AlmostEquals (1 + R i i) 0) : 0 < 1 + R i i := by
    apply lt_of_le_of_ne (by linarith [least i])
    intro zero
    exact off (by simp [AlmostEquals, ← zero, kTol])
  unfold pivot
  split
  next off => exact known 2 off
  next third =>
    split
    next off => exact known 1 off
    next second =>
      have trace := rotation.neg_one_le_trace
      simp only [not_not, AlmostEquals, kTol, sub_zero, abs_lt] at second third
      rw [trace_fin_three] at trace
      linarith

theorem omegaVector_eq (R : Matrix3 ℝ) (k : Fin 3) : omegaVector R k = (√(2 * (1 + R k k)))⁻¹ • bisector R k := by
  ext i
  rw [Pi.smul_apply, smul_eq_mul, inv_mul_eq_div]
  by_cases same : i = k
  · subst same
    simp [omegaVector, bisector, add_comm]
  · simp [omegaVector, bisector, same]

theorem reconstructed_half {w : Fin 3 → ℝ} (unit : w ⬝ᵥ w = 1) :
    reconstructed { theta := Real.pi, omegaHat := so3VecToMat w } = (2 : ℝ) • vecMulVec w w - 1 := by
  rw [reconstructed, Real.sin_pi, Real.cos_pi]
  exact exponential_half unit

theorem half_turn_represents (rotation : IsRotation R) (off : ¬ NearIdentity R) (near : NearHalfTurn R) :
    Represents { theta := Real.pi, omegaHat := so3VecToMat (omegaVector R (pivot R)) } R := by
  have positive := pivot_positive rotation
  have square : √(2 * (1 + R (pivot R) (pivot R))) * √(2 * (1 + R (pivot R) (pivot R))) =
      2 * (1 + R (pivot R) (pivot R)) := Real.mul_self_sqrt (by linarith)
  have axis := omegaVector_eq R (pivot R)
  have unit := half_turn_axis rotation positive square axis
  refine ⟨⟨Real.pi_pos.le, le_rfl⟩, ⟨_, unit, rfl⟩, fun wellPivoted i j => ?_⟩
  rw [reconstructed_half unit, tolerance, if_neg off, if_pos near]
  split
  next same =>
    subst same
    rw [half_turn_column positive square axis, sub_self, abs_zero]
  next different =>
    apply Real.abs_le_sqrt
    have small := (abs_lt.mp near).1
    have near_trace : 2 * (1 + R.trace) ≤ 2 * kTol := by linarith
    exact (half_turn_close rotation positive square axis (wellPivoted off near) different i).trans near_trace

/-- Away from the identity and from half turns the sine is not zero. -/
theorem trace_between (rotation : IsRotation R) (off : ¬ NearIdentity R) (away : ¬ NearHalfTurn R) :
    -1 < R.trace ∧ R.trace < 3 := by
  constructor
  · apply lt_of_le_of_ne rotation.neg_one_le_trace
    intro half
    exact away (by simp [NearHalfTurn, AlmostEquals, ← half, kTol])
  · apply lt_of_le_of_ne rotation.trace_le_three
    intro three
    exact off fun i => by simp [AlmostEquals, rotation.diag_eq_one three i, kTol]

theorem generic_represents (rotation : IsRotation R) (off : ¬ NearIdentity R) (away : ¬ NearHalfTurn R) {cosine sine : ℝ}
    (half : cosine = 1 / 2 * (R.trace - 1)) (root : sine = √(1 - cosine * cosine)) :
    |cosine| ≤ 1 ∧ sine ≠ 0 ∧
      Represents { theta := Real.arccos cosine, omegaHat := (1 / 2 / sine) • (R - Rᵀ) } R := by
  obtain ⟨above, below⟩ := trace_between rotation off away
  have square : 1 - cosine * cosine = (1 + R.trace) * (3 - R.trace) / 4 := by
    rw [half]
    ring
  have product : 0 < (1 + R.trace) * (3 - R.trace) := mul_pos (by linarith) (by linarith)
  have sineSq : sine * sine = (1 + R.trace) * (3 - R.trace) / 4 := by
    rw [root, Real.mul_self_sqrt (by linarith), square]
  have nonzero : sine ≠ 0 := by
    rintro rfl
    linarith
  have sinAngle : Real.sin (Real.arccos cosine) = sine := by rw [Real.sin_arccos, pow_two, root]
  have cosAngle : Real.cos (Real.arccos cosine) = cosine := Real.cos_arccos (by linarith) (by linarith)
  have axis : (1 / 2 / sine) • (R - Rᵀ) = hat ((1 / 2 / sine) • axial R) := by rw [hat_smul, sub_transpose]
  have unit : ((1 / 2 / sine) • axial R) ⬝ᵥ ((1 / 2 / sine) • axial R) = 1 := by
    rw [smul_dotProduct, dotProduct_smul, rotation.axial_dot, smul_eq_mul, smul_eq_mul]
    field_simp
    linarith
  have same : reconstructed { theta := Real.arccos cosine, omegaHat := (1 / 2 / sine) • (R - Rᵀ) } = R := by
    have factor : (1 - cosine) * ((1 / 2 / sine) * ((1 / 2 / sine) * (1 + R.trace))) = 1 / 2 := by
      field_simp
      rw [pow_two, sineSq, half]
      ring
    rw [reconstructed, sinAngle, cosAngle, Matrix.smul_mul, Matrix.mul_smul, sub_transpose, rotation.hat_axial_sq,
      ← sub_transpose]
    calc _ = 1 + (sine * (1 / 2 / sine)) • (R - Rᵀ) +
        ((1 - cosine) * ((1 / 2 / sine) * ((1 / 2 / sine) * (1 + R.trace)))) • (R + Rᵀ - (2 : ℝ) • 1) := by module
      _ = R := by
        rw [factor, mul_div_cancel₀ _ nonzero]
        module
  refine ⟨abs_le.mpr ⟨by linarith, by linarith⟩, nonzero, ?_⟩
  refine ⟨⟨Real.arccos_nonneg _, Real.arccos_le_pi _⟩, ⟨_, unit, axis⟩, fun _ i j => ?_⟩
  rw [same, sub_self, abs_zero, tolerance, if_neg off, if_neg away]

theorem rotation_log {R : Matrix3 ℝ} (rotation : IsRotation R) : ∃ log, so3Log R = .done log ∧ Represents log R := by
  by_cases near : NearIdentity R
  · exact ⟨_, if_pos near, identity_represents rotation near⟩
  · by_cases half : NearHalfTurn R
    · exact ⟨_, (if_neg near).trans (if_pos half), half_turn_represents rotation near half⟩
    · obtain ⟨small, nonzero, represents⟩ := generic_represents rotation near half rfl rfl
      refine ⟨_, (if_neg near).trans ((if_neg half).trans ?_), represents⟩
      simp only [Outcome.check_of small, Outcome.check_of nonzero, Outcome.done_bind]
      rfl

theorem rotation_log_quarter : ∃ log, so3Log !![0, -1, 0; 1, 0, 0; 0, 0, 1] = .done log ∧
    Represents log !![0, -1, 0; 1, 0, 0; 0, 0, 1] :=
  rotation_log (.about_last (by norm_num))

/-- About the last axis, by some hundredth of a radian. -/
noncomputable def slight : Matrix3 ℝ := !![39999 / 40001, -400 / 40001, 0; 400 / 40001, 39999 / 40001, 0; 0, 0, 1]

/-- About the last axis, by some hundredth of a radian less than a half turn. -/
noncomputable def almostHalf : Matrix3 ℝ := !![-39999 / 40001, -400 / 40001, 0; 400 / 40001, -39999 / 40001, 0; 0, 0, 1]

theorem almostHalf_rotation : IsRotation almostHalf := by
  have circle : (-39999 / 40001 : ℝ) * (-39999 / 40001) + 400 / 40001 * (400 / 40001) = 1 := by norm_num
  have turn := IsRotation.about_last circle
  rwa [← neg_div] at turn

/-- The last column is that of the identity. -/
theorem almostHalf_last (i : Fin 3) : almostHalf i 2 = if i = 2 then 1 else 0 := by fin_cases i <;> rfl

theorem almostHalf_trace : almostHalf.trace = -39997 / 40001 := by
  rw [trace_fin_three, almostHalf_last]
  norm_num [almostHalf]

theorem almostHalf_pivot : pivot almostHalf = 2 := by
  apply if_pos
  rw [almostHalf_last]
  norm_num [AlmostEquals, kTol]

/-- The logarithm of a slight rotation is that of the identity, and that of almost a half turn is that of one, read off
the column of the axis itself. Both have an entry off by more than the tolerance. -/
theorem slight_rotations_lost :
    (IsRotation slight ∧ ∃ log, so3Log slight = .done log ∧ kTol < |reconstructed log 1 0 - slight 1 0|) ∧
    (IsRotation almostHalf ∧ WellPivoted almostHalf ∧
      ∃ log, so3Log almostHalf = .done log ∧ kTol < |reconstructed log 1 0 - almostHalf 1 0|) := by
  constructor
  · have near : NearIdentity slight := by
      intro i
      fin_cases i <;> norm_num [slight, AlmostEquals, kTol, abs_lt]
    refine ⟨?_, _, if_pos near, ?_⟩
    · have circle : (39999 / 40001 : ℝ) * (39999 / 40001) + 400 / 40001 * (400 / 40001) = 1 := by norm_num
      have turn := IsRotation.about_last circle
      rwa [← neg_div] at turn
    · norm_num [reconstructed, slight, kTol, abs_of_pos]
  · have off : ¬ NearIdentity almostHalf := by
      intro near
      have first := near 0
      norm_num [almostHalf, AlmostEquals, kTol, abs_lt] at first
    have near : NearHalfTurn almostHalf := by
      rw [NearHalfTurn, almostHalf_trace]
      norm_num [AlmostEquals, kTol, abs_lt]
    have positive := pivot_positive almostHalf_rotation
    have unit := half_turn_axis almostHalf_rotation positive (Real.mul_self_sqrt (by linarith)) (omegaVector_eq almostHalf _)
    refine ⟨almostHalf_rotation, fun _ _ i => ?_, _, (if_neg off).trans (if_pos near), ?_⟩
    · rw [almostHalf_pivot]
      exact (almostHalf_rotation.diag_le_one i).trans_eq (almostHalf_last 2).symm
    · have flat : omegaVector almostHalf 2 0 = 0 := by simp [omegaVector, almostHalf_last]
      rw [reconstructed_half unit, almostHalf_pivot, Matrix.sub_apply, Matrix.smul_apply, vecMulVec_apply, flat]
      norm_num [almostHalf, kTol, abs_of_pos]

end AxbyCore.Proofs.RotationLog
