import AxbyCore.Library.ExponentialSeries
import AxbyCore.Math.Exponential
import AxbyCore.Proofs.Adjoint
import AxbyCore.Library.QuaternionRotation
import Mathlib.LinearAlgebra.Matrix.DotProduct

/-! `se3_exp` is the exponential of matrices but for the slowest turns, for which it is
close to it. So it takes twists to rigid motions, in every frame alike. -/

namespace AxbyCore.Proofs.TwistExponential
open Math Math.Spatial Matrix RigidMotion Rotation ExponentialSeries Proofs.Adjoint NormedSpace

/-- A twist whose turn is summed up by the short polynomials. -/
def Slow (se3 : Vector6 ℝ) : Prop := se3 ∘ .inl ⬝ᵥ se3 ∘ .inl < 1e-8

/-- The motion with these coefficients. -/
noncomputable def screw (coefficients : ExpCoefficients) (w v : Vector3 ℝ) : Matrix4 ℝ :=
  affine (1 + (coefficients.a • hat w + coefficients.b • (hat w * hat w)))
    ((coefficients.b • hat w + coefficients.c • (hat w * hat w)) *ᵥ v + v)

theorem se3Exp_eq (se3 : Vector6 ℝ) :
    se3Exp se3 = screw (expCoefficients (se3 ∘ .inl ⬝ᵥ se3 ∘ .inl)) (se3 ∘ .inl) (se3 ∘ .inr) := rfl

noncomputable def exactCoefficients (theta : ℝ) : ExpCoefficients :=
  { a := Real.sin theta / theta
    b := (1 - Real.cos theta) / theta ^ 2
    c := (theta - Real.sin theta) / theta ^ 3 }

section
variable {w v : Vector3 ℝ} {theta : ℝ}

theorem hat_cubed (w : Vector3 ℝ) : hat w * hat w * hat w = -((w ⬝ᵥ w) • hat w) := by
  ext i j
  fin_cases i <;> fin_cases j <;> simp [hat, Matrix.mul_apply, dotProduct, Fin.sum_univ_three] <;> ring

theorem twist_sq (w v : Vector3 ℝ) : twist (hat w) v ^ 2 = twist (hat w * hat w) (hat w *ᵥ v) := by
  rw [pow_two, twist_mul]

theorem twist_cube (w v : Vector3 ℝ) : twist (hat w) v ^ 3 = twist (-((w ⬝ᵥ w) • hat w)) ((hat w * hat w) *ᵥ v) := by
  rw [pow_succ', twist_sq, twist_mul, ← Matrix.mul_assoc, hat_cubed, mulVec_mulVec]

/-- The matrix of a twist turns its square back. -/
theorem twist_turn (square : w ⬝ᵥ w = theta ^ 2) : twist (hat w) v ^ 4 = -(theta ^ 2 • twist (hat w) v ^ 2) := by
  rw [pow_succ', twist_cube, twist_mul, twist_sq, square, smul_twist, neg_twist, Matrix.mul_neg, Matrix.mul_smul, mulVec_mulVec,
    ← Matrix.mul_assoc, hat_cubed, square, neg_mulVec, smul_mulVec]

theorem exp_twist (square : w ⬝ᵥ w = theta ^ 2) (nonzero : theta ≠ 0) :
    exp (twist (hat w) v) = screw (exactCoefficients theta) w v := by
  have first : 1 - (theta - Real.sin theta) / theta ^ 3 * theta ^ 2 = Real.sin theta / theta := by
    field_simp
    ring
  rw [exp_matrix nonzero (twist_turn square), twist_sq, twist_cube, square, smul_twist, smul_twist, add_assoc, add_assoc,
    twist_add, twist_add, one_add_twist, screw, exactCoefficients, ← first]
  congr 1
  · module
  · rw [add_mulVec, smul_mulVec, smul_mulVec, add_comm]

end

theorem screw_zero (coefficients : ExpCoefficients) (v : Vector3 ℝ) : screw coefficients 0 v = affine 1 v := by
  simp [screw, hat_zero]

/-- A twist that does not turn. -/
theorem exp_twist_zero (v : Vector3 ℝ) : exp (twist (hat 0) v) = affine 1 v := by
  have square : twist (hat 0) v ^ 2 = 0 := by
    rw [twist_sq, hat_zero, Matrix.mul_zero, zero_mulVec]
    simp [twist]
  have turn : twist (hat 0) v ^ 4 = -((1 : ℝ) ^ 2 • twist (hat 0) v ^ 2) := by
    rw [pow_mul _ 2 2, square]
    simp
  have cube : twist (hat 0) v ^ 3 = 0 := by rw [pow_succ, square, zero_mul]
  rw [exp_matrix one_ne_zero turn, square, cube, smul_zero, smul_zero, add_zero, add_zero, hat_zero, one_add_twist, add_zero]

/-- The turn is about the axis of the twist. -/
theorem screw_axis (nonzero : theta ≠ 0) (n v : Vector3 ℝ) : screw (exactCoefficients theta) (theta • n) v =
    affine (exponential (Real.sin theta) (Real.cos theta) n)
      (v + ((1 - Real.cos theta) / theta) • hat n *ᵥ v + (1 - Real.sin theta / theta) • (hat n * hat n) *ᵥ v) := by
  have first : Real.sin theta / theta * theta = Real.sin theta := div_mul_cancel₀ _ nonzero
  have second : (1 - Real.cos theta) / theta ^ 2 * (theta * theta) = 1 - Real.cos theta := by field_simp
  have third : (1 - Real.cos theta) / theta ^ 2 * theta = (1 - Real.cos theta) / theta := by field_simp
  have fourth : (theta - Real.sin theta) / theta ^ 3 * (theta * theta) = 1 - Real.sin theta / theta := by field_simp
  rw [screw, exactCoefficients, hat_smul, smul_mul_smul_comm, smul_smul, smul_smul, smul_smul, smul_smul, first, second, third,
    fourth, exponential, add_mulVec, smul_mulVec, smul_mulVec]
  congr 1
  · rw [add_assoc]
  · module

/-! The short polynomials. -/

section
variable {theta : ℝ}

theorem short_near (positive : 0 < theta) (small : theta ≤ 1e-4) : |theta| / (2 * (4 : ℕ) + 1) ≤ 1 / 2 := by
  rw [abs_of_pos positive]
  norm_num at small ⊢
  linarith

theorem short_sine (positive : 0 < theta) (small : theta ≤ 1e-4) :
    |Real.sin theta - (theta - theta ^ 3 / 6 + theta ^ 5 / 120)| ≤ theta ^ 7 / 4000 := by
  have bound := abs_sin_sub_sinSum (short_near positive small)
  have power : theta ^ 8 ≤ theta ^ 7 := pow_le_pow_of_le_one positive.le (by norm_num at small ⊢; linarith) (by decide)
  have seventh : 0 < theta ^ 7 := pow_pos positive 7
  norm_num [sinSum, Finset.sum_range_succ, Nat.factorial, abs_of_pos positive] at bound
  rw [abs_le] at bound ⊢
  constructor <;> linarith

theorem short_cosine (positive : 0 < theta) (small : theta ≤ 1e-4) :
    |Real.cos theta - (1 - theta ^ 2 / 2 + theta ^ 4 / 24)| ≤ theta ^ 6 / 600 := by
  have bound := abs_cos_sub_cosSum (short_near positive small)
  have power : theta ^ 8 ≤ theta ^ 6 := pow_le_pow_of_le_one positive.le (by norm_num at small ⊢; linarith) (by decide)
  have sixth : 0 < theta ^ 6 := pow_pos positive 6
  norm_num [cosSum, Finset.sum_range_succ, Nat.factorial, abs_of_pos positive] at bound
  rw [abs_le] at bound ⊢
  constructor <;> linarith

structure Close (k l : ExpCoefficients) (slack : ℝ) : Prop where
  a : |k.a - l.a| ≤ slack
  b : |k.b - l.b| ≤ slack
  c : |k.c - l.c| ≤ slack

theorem abs_div_le {x y slack : ℝ} (positive : 0 < y) (bound : |x| ≤ slack * y) : |x / y| ≤ slack := by
  rwa [abs_div, abs_of_pos positive, div_le_iff₀ positive]

theorem short_close (positive : 0 < theta) (small : theta ≤ 1e-4) (slow : theta ^ 2 < 1e-8) :
    Close (expCoefficients (theta ^ 2)) (exactCoefficients theta) 1e-18 := by
  have sine := short_sine positive small
  have cosine := short_cosine positive small
  have fourth : theta ^ 4 ≤ 1e-16 := by
    calc theta ^ 4 ≤ (1e-4) ^ 4 := pow_le_pow_left₀ positive.le small 4
      _ = 1e-16 := by norm_num
  have fifth : theta ^ 5 ≤ 1e-16 * theta := by
    rw [pow_succ]
    exact mul_le_mul_of_nonneg_right fourth positive.le
  have sixth : theta ^ 6 ≤ 1e-16 * theta ^ 2 := by
    rw [pow_add theta 4 2]
    exact mul_le_mul_of_nonneg_right fourth (pow_pos positive 2).le
  have seventh : theta ^ 7 ≤ 1e-16 * theta ^ 3 := by
    rw [pow_add theta 4 3]
    exact mul_le_mul_of_nonneg_right fourth (pow_pos positive 3).le
  have cube : theta ^ 3 ≤ theta := by
    calc theta ^ 3 ≤ theta ^ 1 := pow_le_pow_of_le_one positive.le (by norm_num at small ⊢; linarith) (by decide)
      _ = theta := pow_one theta
  have power := pow_pos positive
  rw [expCoefficients, if_pos slow, exactCoefficients]
  constructor
  · have whole : 1.0 - theta ^ 2 / 6.0 - Real.sin theta / theta = (theta - theta ^ 3 / 6 - Real.sin theta) / theta := by
      field_simp
      norm_num
      ring
    rw [whole]
    apply abs_div_le positive
    rw [abs_le] at sine ⊢
    norm_num at fifth seventh ⊢
    constructor <;> linarith [power 5, power 7]
  · have whole : 0.5 - theta ^ 2 / 24.0 - (1 - Real.cos theta) / theta ^ 2 =
        (Real.cos theta - (1 - theta ^ 2 / 2 + theta ^ 4 / 24)) / theta ^ 2 := by
      field_simp
      norm_num
      ring
    rw [whole]
    apply abs_div_le (power 2)
    apply cosine.trans
    norm_num at sixth ⊢
    linarith [power 2]
  · have whole : 1.0 / 6.0 - theta ^ 2 / 120.0 - (theta - Real.sin theta) / theta ^ 3 =
        (Real.sin theta - (theta - theta ^ 3 / 6 + theta ^ 5 / 120)) / theta ^ 3 := by
      field_simp
      norm_num
      ring
    rw [whole]
    apply abs_div_le (power 3)
    apply sine.trans
    norm_num at seventh ⊢
    linarith [power 3]

end

/-! How far apart the motions of close coefficients are. -/

section
variable {M N : Matrix3 ℝ} {v w : Vector3 ℝ} {s t m : ℝ}

theorem abs_mulVec_le (matrix : ∀ i j, |M i j| ≤ s) (vector : ∀ j, |v j| ≤ m) (i : Fin 3) : |(M *ᵥ v) i| ≤ 3 * (s * m) := by
  have nonneg : 0 ≤ s := (abs_nonneg _).trans (matrix 0 0)
  have each (j : Fin 3) : |M i j * v j| ≤ s * m := by
    rw [abs_mul]
    exact mul_le_mul (matrix i j) (vector j) (abs_nonneg _) nonneg
  calc |(M *ᵥ v) i| ≤ ∑ j, |M i j * v j| := Finset.abs_sum_le_sum_abs (fun j => M i j * v j) Finset.univ
    _ ≤ ∑ _ : Fin 3, s * m := Finset.sum_le_sum fun j _ => each j
    _ = 3 * (s * m) := by simp

theorem abs_mul_le (left : ∀ i j, |M i j| ≤ s) (right : ∀ i j, |N i j| ≤ t) (i j : Fin 3) : |(M * N) i j| ≤ 3 * (s * t) :=
  abs_mulVec_le left (fun k => right k j) i

theorem abs_hat_le (vector : ∀ j, |w j| ≤ s) (i j : Fin 3) : |hat w i j| ≤ s := by
  have nonneg : 0 ≤ s := (abs_nonneg _).trans (vector 0)
  fin_cases i <;> fin_cases j <;> simp [hat, nonneg, vector]

theorem abs_le_length (v : Vector3 ℝ) (j : Fin 3) : |v j| ≤ √(v ⬝ᵥ v) := by
  apply Real.abs_le_sqrt
  rw [pow_two]
  exact Finset.single_le_sum (fun k _ => mul_self_nonneg (v k)) (Finset.mem_univ j)

theorem abs_add_smul_le {a b c d slack : ℝ} (first : |a| ≤ slack) (second : |b| ≤ slack) (left : |c| ≤ s) (right : |d| ≤ t) :
    |a * c + b * d| ≤ slack * (s + t) := by
  have nonneg : 0 ≤ slack := (abs_nonneg a).trans first
  calc |a * c + b * d| ≤ |a| * |c| + |b| * |d| := by
        rw [← abs_mul, ← abs_mul]
        exact abs_add_le _ _
    _ ≤ slack * s + slack * t := by gcongr
    _ = slack * (s + t) := by ring

theorem screw_close {k l : ExpCoefficients} {slack : ℝ} (close : Close k l slack) (turn : ∀ j, |w j| ≤ s) (move : ∀ j, |v j| ≤ m)
    (i j : Fin 3 ⊕ Unit) :
    |screw k w v i j - screw l w v i j| ≤ max (slack * (s + 3 * (s * s))) (slack * (3 * (s * m) + 3 * (3 * (s * s) * m))) := by
  have once := abs_hat_le turn
  have twice := abs_mul_le once once
  cases i with
  | inr i =>
    have same : screw k w v (.inr i) j = screw l w v (.inr i) j := by cases j <;> rfl
    have room : 0 ≤ slack := (abs_nonneg _).trans close.a
    have size : 0 ≤ s := (abs_nonneg _).trans (turn 0)
    rw [same, sub_self, abs_zero]
    apply le_max_of_le_left
    positivity
  | inl i =>
    cases j with
    | inl j =>
      apply le_trans _ (le_max_left _ _)
      have whole : screw k w v (.inl i) (.inl j) - screw l w v (.inl i) (.inl j) =
          (k.a - l.a) * hat w i j + (k.b - l.b) * (hat w * hat w) i j := by
        simp [screw, affine]
        ring
      rw [whole]
      exact abs_add_smul_le close.a close.b (once i j) (twice i j)
    | inr j =>
      apply le_trans _ (le_max_right _ _)
      have whole : screw k w v (.inl i) (.inr j) - screw l w v (.inl i) (.inr j) =
          (k.b - l.b) * (hat w *ᵥ v) i + (k.c - l.c) * ((hat w * hat w) *ᵥ v) i := by
        simp [screw, affine, add_mulVec, smul_mulVec]
        ring
      rw [whole]
      exact abs_add_smul_le close.b close.c (abs_mulVec_le once move i) (abs_mulVec_le twice move i)

end

section
variable {se3 : Vector6 ℝ}

theorem length_sq (w : Vector3 ℝ) : w ⬝ᵥ w = √(w ⬝ᵥ w) ^ 2 := (Real.sq_sqrt (dotProduct_self_nonneg w)).symm

theorem length_pos (fast : ¬ Slow se3) : 0 < √(se3 ∘ .inl ⬝ᵥ se3 ∘ .inl) := by
  apply Real.sqrt_pos_of_pos
  apply lt_of_lt_of_le _ (not_lt.mp fast)
  norm_num

theorem slow_length (slow : Slow se3) : √(se3 ∘ .inl ⬝ᵥ se3 ∘ .inl) ≤ 1e-4 := by
  rw [Real.sqrt_le_iff]
  norm_num [Slow] at slow ⊢
  linarith

theorem expCoefficients_exact {theta : ℝ} (positive : 0 < theta) (fast : ¬ theta ^ 2 < 1e-8) :
    expCoefficients (theta ^ 2) = exactCoefficients theta := by
  rw [expCoefficients, if_neg fast, exactCoefficients, Real.sqrt_sq positive.le]
  field_simp

/-- The exponential of matrices, where the sine and the cosine are taken. -/
theorem se3Exp_fast (fast : ¬ Slow se3) : se3Exp se3 = exp (se3VecToMat se3) := by
  have positive := length_pos fast
  have square := length_sq (se3 ∘ .inl)
  rw [se3Exp_eq, square, expCoefficients_exact positive (square ▸ fast)]
  exact (exp_twist square positive.ne').symm

/-- Nearly the exponential of matrices, where the short polynomials are taken. -/
theorem se3Exp_slow (slow : Slow se3) (i j : Fin 3 ⊕ Unit) :
    |se3Exp se3 i j - exp (se3VecToMat se3) i j| ≤ 1e-21 * (1 + √(se3 ∘ .inr ⬝ᵥ se3 ∘ .inr)) := by
  have square := length_sq (se3 ∘ .inl)
  have nonneg : 0 ≤ √(se3 ∘ .inr ⬝ᵥ se3 ∘ .inr) := Real.sqrt_nonneg _
  have small := slow_length slow
  cases (Real.sqrt_nonneg (se3 ∘ .inl ⬝ᵥ se3 ∘ .inl)).eq_or_lt with
  | inl zero =>
    have still : se3 ∘ .inl = 0 := by
      rw [← dotProduct_self_eq_zero, square, ← zero, zero_pow two_ne_zero]
    have same : se3Exp se3 = exp (se3VecToMat se3) := by
      rw [se3Exp_eq, still, screw_zero]
      exact (congrArg (fun w => exp (twist (hat w) (se3 ∘ .inr))) still).symm ▸ (exp_twist_zero _).symm
    rw [same, sub_self, abs_zero]
    positivity
  | inr positive =>
    rw [Slow, square] at slow
    have exact_exp := exp_twist (v := se3 ∘ .inr) square positive.ne'
    have near := screw_close (short_close positive small slow) (fun j => (abs_le_length _ j).trans small)
      (abs_le_length (se3 ∘ .inr)) i j
    rw [← square, ← exact_exp, ← se3Exp_eq] at near
    apply near.trans
    norm_num
    constructor <;> linarith

/-- The motion about the axis of the twist. -/
theorem se3Exp_axis (fast : ¬ Slow se3) : ∃ theta, ∃ n : Vector3 ℝ, theta = √(se3 ∘ .inl ⬝ᵥ se3 ∘ .inl) ∧ 0 < theta ∧
    n ⬝ᵥ n = 1 ∧ se3 ∘ .inl = theta • n ∧ se3Exp se3 = affine (exponential (Real.sin theta) (Real.cos theta) n)
      (se3 ∘ .inr + ((1 - Real.cos theta) / theta) • hat n *ᵥ (se3 ∘ .inr) +
        (1 - Real.sin theta / theta) • (hat n * hat n) *ᵥ (se3 ∘ .inr)) := by
  have positive := length_pos fast
  have square := length_sq (se3 ∘ .inl)
  have unit := unit_of_root (sqrt_mul_self_dotProduct (se3 ∘ .inl)) positive.ne'
  have axis : se3 ∘ .inl = √(se3 ∘ .inl ⬝ᵥ se3 ∘ .inl) • (√(se3 ∘ .inl ⬝ᵥ se3 ∘ .inl))⁻¹ • (se3 ∘ .inl) := by
    rw [smul_smul, mul_inv_cancel₀ positive.ne', one_smul]
  refine ⟨_, _, rfl, positive, unit, axis, ?_⟩
  rw [← screw_axis positive.ne', ← axis, ← expCoefficients_exact positive (square ▸ fast), ← square, se3Exp_eq]

/-- The result is a rigid motion. -/
theorem isRigid_se3Exp (fast : ¬ Slow se3) : IsRigid (se3Exp se3) := by
  obtain ⟨theta, n, -, -, unit, -, motion⟩ := se3Exp_axis fast
  rw [motion]
  exact isRigid_affine (isRotation_exponential (Real.sin_sq_add_cos_sq _) unit) _

theorem se3VecToMat_smul (t : ℝ) (se3 : Vector6 ℝ) : se3VecToMat (t • se3) = t • se3VecToMat se3 := by
  calc se3VecToMat (t • se3) = twist (hat (t • (se3 ∘ .inl))) (t • (se3 ∘ .inr)) := rfl
    _ = t • twist (hat (se3 ∘ .inl)) (se3 ∘ .inr) := by rw [hat_smul, smul_twist]

theorem se3Exp_inv (fast : ¬ Slow se3) : se3Exp (-se3) = se3Inv (se3Exp se3) := by
  have fastBack : ¬ Slow (-se3) := by
    have same : (-se3) ∘ .inl ⬝ᵥ (-se3) ∘ .inl = se3 ∘ .inl ⬝ᵥ se3 ∘ .inl := neg_dotProduct_neg (se3 ∘ .inl) (se3 ∘ .inl)
    rwa [Slow, same]
  have inverse := inv_eq_left_inv (se3Inv_mul (isRigid_se3Exp fast))
  rw [← inverse, se3Exp_fast fast, se3Exp_fast fastBack, ← neg_one_smul ℝ se3, se3VecToMat_smul, neg_one_smul, Matrix.exp_neg]

theorem se3Exp_add {s t : ℝ} (fastS : ¬ Slow (s • se3)) (fastT : ¬ Slow (t • se3))
    (fastSum : ¬ Slow ((s + t) • se3)) : se3Exp ((s + t) • se3) = se3Exp (s • se3) * se3Exp (t • se3) := by
  have commute : Commute (s • se3VecToMat se3) (t • se3VecToMat se3) :=
    ((Commute.refl _).smul_left s).smul_right t
  rw [se3Exp_fast fastSum, se3Exp_fast fastS, se3Exp_fast fastT, se3VecToMat_smul, se3VecToMat_smul, se3VecToMat_smul, add_smul,
    Matrix.exp_add_of_commute _ _ commute]

/-- Rotations keep the length of the turn. -/
theorem slow_se3Adj {A : Matrix4 ℝ} (rigid : IsRigid A) : Slow (se3Adj A *ᵥ se3) ↔ Slow se3 := by
  have turned : (se3Adj A *ᵥ se3) ∘ .inl = A.toBlocks₁₁ *ᵥ (se3 ∘ .inl) := by
    rw [se3Adj, adjOf_mulVec]
    rfl
  have same : (A.toBlocks₁₁ *ᵥ (se3 ∘ .inl)) ⬝ᵥ (A.toBlocks₁₁ *ᵥ (se3 ∘ .inl)) = se3 ∘ .inl ⬝ᵥ se3 ∘ .inl := by
    rw [dotProduct_mulVec, vecMul_mulVec, ← dotProduct_mulVec, rigid.rotation.transpose_mul, one_mulVec]
  rw [Slow, turned, same, Slow]

theorem se3Exp_adj (fast : ¬ Slow se3) {A : Matrix4 ℝ} (rigid : IsRigid A) :
    se3Exp (se3Adj A *ᵥ se3) = A * se3Exp se3 * se3Inv A := by
  have inverse := inv_eq_left_inv (se3Inv_mul rigid)
  have unit : IsUnit A := IsUnit.of_mul_eq_one_right (se3Inv A) (se3Inv_mul rigid)
  rw [se3Exp_fast (mt (slow_se3Adj rigid).mp fast), se3Exp_fast fast, se3VecToMat_adj rigid, ← inverse, Matrix.exp_conj A _ unit]

theorem se3Exp_close (se3 : Vector6 ℝ) (i j : Fin 3 ⊕ Unit) :
    |se3Exp se3 i j - exp (se3VecToMat se3) i j| ≤ 1e-21 * (1 + √(se3 ∘ .inr ⬝ᵥ se3 ∘ .inr)) := by
  by_cases slow : Slow se3
  · exact se3Exp_slow slow i j
  · rw [se3Exp_fast slow, sub_self, abs_zero]
    positivity

/-- The motion after a unit of time with the velocity of the twist. But for the slowest turns it
is inverted and put together by the twist alone, and seen from another frame by its adjoint. -/
structure Integrated (se3 : Vector6 ℝ) : Prop where
  close : ∀ i j, |se3Exp se3 i j - exp (se3VecToMat se3) i j| ≤ 1e-21 * (1 + √(se3 ∘ .inr ⬝ᵥ se3 ∘ .inr))
  exponential : ¬ Slow se3 → se3Exp se3 = exp (se3VecToMat se3)
  rigid : ¬ Slow se3 → IsRigid (se3Exp se3)
  inverse : ¬ Slow se3 → se3Exp (-se3) = se3Inv (se3Exp se3)
  frame : ¬ Slow se3 → ∀ A, IsRigid A → se3Exp (se3Adj A *ᵥ se3) = A * se3Exp se3 * se3Inv A
  steps : ∀ s t : ℝ, ¬ Slow (s • se3) → ¬ Slow (t • se3) → ¬ Slow ((s + t) • se3) →
    se3Exp ((s + t) • se3) = se3Exp (s • se3) * se3Exp (t • se3)

theorem twist_integrated (se3 : Vector6 ℝ) : Integrated se3 where
  close := se3Exp_close se3
  exponential := se3Exp_fast
  rigid := isRigid_se3Exp
  inverse := se3Exp_inv
  frame fast _ rigid := se3Exp_adj fast rigid
  steps _ _ := se3Exp_add

end

end AxbyCore.Proofs.TwistExponential
