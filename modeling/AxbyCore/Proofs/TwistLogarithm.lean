import AxbyCore.Proofs.RotationLog
import AxbyCore.Proofs.TwistExponential
import Mathlib.Analysis.Real.Pi.Bounds
import Mathlib.Analysis.SpecialFunctions.Trigonometric.Bounds

/-! `SE3_log` undoes `se3_exp` away from the identity and from half turns. The turn is
restored, and the move but for the end of a series. -/

namespace AxbyCore.Proofs.TwistLogarithm
open Math Math.Spatial Matrix RigidMotion Rotation ExponentialSeries RotationLog TwistExponential

/-! The beginning of the series. -/

section
variable {x : ℝ}

theorem xCotx_eq (x : ℝ) : xCotx x = 1 - x ^ 2 / 3 - x ^ 4 / 45 - 2 * x ^ 6 / 945 - x ^ 8 / 4725 - 2 * x ^ 10 / 93555 := by
  unfold xCotx
  norm_num
  ring

theorem even_pow_le (positive : 0 < x) (small : x ≤ 1.58) (n : ℕ) : x ^ (2 * n) ≤ 2.5 ^ n := by
  rw [pow_mul]
  apply pow_le_pow_left₀ (pow_pos positive 2).le
  calc x ^ 2 ≤ 1.58 ^ 2 := pow_le_pow_left₀ positive.le small 2
    _ ≤ 2.5 := by norm_num

/-- What is left of the two sides, as far as their series are written out. -/
theorem sums_close (positive : 0 < x) (small : x ≤ 1.58) :
    |x * cosSum 8 x - xCotx x * sinSum 8 x| ≤ 2.2e-6 * x ^ 13 := by
  have whole : x * cosSum 8 x - xCotx x * sinSum 8 x = x ^ 13 * (-1382 / 638512875 + 271 / 1915538625 * x ^ 2 -
      373 / 100590336000 * x ^ 4 + 9521 / 176536039680000 * x ^ 6 - 19 / 37759097376000 * x ^ 8 +
      667 / 203899125830400000 * x ^ 10 - 1 / 61169737749120000 * x ^ 12) := by
    rw [xCotx_eq]
    norm_num [cosSum, sinSum, Finset.sum_range_succ, Nat.factorial]
    ring
  have power := pow_pos positive
  have second := even_pow_le positive small 1
  have third := even_pow_le positive small 3
  have fourth := even_pow_le positive small 4
  have fifth := even_pow_le positive small 5
  have sixth := even_pow_le positive small 6
  have descent : x ^ 4 ≤ 2.5 * x ^ 2 := by
    rw [pow_add x 2 2]
    exact mul_le_mul_of_nonneg_right (by simpa using second) (power 2).le
  norm_num at second third fourth fifth sixth descent
  rw [whole, abs_mul, abs_of_pos (power 13), mul_comm]
  apply mul_le_mul_of_nonneg_right _ (power 13).le
  rw [abs_le]
  norm_num
  constructor <;> linarith [power 2, power 4, power 6, power 8, power 10, power 12]

theorem abs_xCotx_le (positive : 0 < x) (small : x ≤ 1.58) : |xCotx x| ≤ 1 := by
  have power := pow_pos positive
  have second := even_pow_le positive small 1
  have third := even_pow_le positive small 2
  have fourth := even_pow_le positive small 3
  have fifth := even_pow_le positive small 4
  have sixth := even_pow_le positive small 5
  norm_num at second third fourth fifth sixth
  rw [xCotx_eq, abs_le]
  constructor <;> linarith [power 2, power 4, power 6, power 8, power 10]

/-- The polynomial is near the product with the cotangent up to a right angle. -/
theorem xCotx_close (positive : 0 < x) (acute : x ≤ Real.pi / 2) :
    |x * Real.cos x - xCotx x * Real.sin x| ≤ 4e-6 * x ^ 12 * Real.sin x := by
  have small : x ≤ 1.58 := by linarith [Real.pi_lt_d2]
  have power := pow_pos positive
  have near : |x| / (2 * (8 : ℕ) + 1) ≤ 1 / 2 := by
    rw [abs_of_pos positive]
    norm_num at small ⊢
    linarith
  have cosine := abs_cos_sub_cosSum near
  have sine := abs_sin_sub_sinSum near
  have sums := sums_close positive small
  have bounded := abs_xCotx_le positive small
  rw [abs_of_pos positive] at cosine sine
  have rest : x ^ 16 / (2 * 8).factorial * 2 ≤ 4e-13 * x ^ 13 := by
    have third : x ^ 3 ≤ 1.58 ^ 3 := pow_le_pow_left₀ positive.le small 3
    have product := mul_le_mul_of_nonneg_left third (power 13).le
    rw [← pow_add] at product
    norm_num [Nat.factorial] at product ⊢
    linarith [power 13]
  have split : x * Real.cos x - xCotx x * Real.sin x = x * cosSum 8 x - xCotx x * sinSum 8 x +
      x * (Real.cos x - cosSum 8 x) - xCotx x * (Real.sin x - sinSum 8 x) := by ring
  have first : |x * (Real.cos x - cosSum 8 x)| ≤ 1.58 * (4e-13 * x ^ 13) := by
    rw [abs_mul, abs_of_pos positive]
    exact mul_le_mul small (cosine.trans rest) (abs_nonneg _) (by norm_num)
  have second : |xCotx x * (Real.sin x - sinSum 8 x)| ≤ 1 * (4e-13 * x ^ 13) := by
    rw [abs_mul]
    exact mul_le_mul bounded (sine.trans rest) (abs_nonneg _) zero_le_one
  have steep : 0.63 * x ≤ Real.sin x := by
    apply le_trans _ (Real.mul_le_sin positive.le acute)
    apply mul_le_mul_of_nonneg_right _ positive.le
    rw [le_div_iff₀ Real.pi_pos]
    linarith [Real.pi_lt_d2]
  have lower := mul_le_mul_of_nonneg_left steep (power 12).le
  have joined : x ^ 12 * (0.63 * x) = 0.63 * x ^ 13 := by ring
  rw [joined] at lower
  rw [split]
  calc _ ≤ |x * cosSum 8 x - xCotx x * sinSum 8 x| + |x * (Real.cos x - cosSum 8 x)| +
        |xCotx x * (Real.sin x - sinSum 8 x)| := (abs_sub _ _).trans (add_le_add_left (abs_add_le _ _) _)
    _ ≤ 2.2e-6 * x ^ 13 + 1.58 * (4e-13 * x ^ 13) + 1 * (4e-13 * x ^ 13) := add_le_add (add_le_add sums first) second
    _ ≤ 4e-6 * x ^ 12 * Real.sin x := by
      norm_num at lower ⊢
      linarith [power 13]

end

/-! The turn. -/

section
variable {theta : ℝ} {n v : Vector3 ℝ}

theorem so3Log_exponential (positive : 0 < theta) (below : theta < Real.pi) (unit : n ⬝ᵥ n = 1)
    (off : ¬ NearIdentity (exponential (Real.sin theta) (Real.cos theta) n))
    (away : ¬ NearHalfTurn (exponential (Real.sin theta) (Real.cos theta) n)) :
    so3Log (exponential (Real.sin theta) (Real.cos theta) n) = .done { theta, omegaHat := hat n } := by
  have sine : 0 < Real.sin theta := Real.sin_pos_of_pos_of_lt_pi positive below
  have half : 1 / 2 * ((exponential (Real.sin theta) (Real.cos theta) n).trace - 1) = Real.cos theta := by
    rw [trace_exponential _ _ unit]
    ring
  have root : √(1 - Real.cos theta * Real.cos theta) = Real.sin theta := by
    rw [← pow_two, ← Real.sin_sq, Real.sqrt_sq sine.le]
  have angle : Real.arccos (Real.cos theta) = theta := Real.arccos_cos positive.le below.le
  have skew : exponential (Real.sin theta) (Real.cos theta) n - (exponential (Real.sin theta) (Real.cos theta) n)ᵀ =
      (2 * Real.sin theta) • hat n := by
    rw [exponential_transpose, exponential, exponential]
    module
  have scale : 1 / 2 / Real.sin theta * (2 * Real.sin theta) = 1 := by field_simp
  refine (if_neg off).trans ((if_neg away).trans ?_)
  rw [half]
  dsimp only
  rw [root, angle, skew, Outcome.check_of (Real.abs_cos_le_one theta), Outcome.check_of sine.ne', smul_smul, scale, one_smul]
  rfl

theorem hat_hat_hat (unit : n ⬝ᵥ n = 1) (v : Vector3 ℝ) : hat n *ᵥ (hat n * hat n) *ᵥ v = -(hat n *ᵥ v) := by
  rw [mulVec_mulVec, ← Matrix.mul_assoc, hat_cube unit, neg_mulVec]

variable {b c : ℝ} {p : Vector3 ℝ}

theorem turned_once (unit : n ⬝ᵥ n = 1) (moved : p = v + b • hat n *ᵥ v + c • (hat n * hat n) *ᵥ v) :
    hat n *ᵥ p = (1 - c) • hat n *ᵥ v + b • (hat n * hat n) *ᵥ v := by
  rw [moved, mulVec_add, mulVec_add, mulVec_smul, mulVec_smul, hat_hat_hat unit, mulVec_mulVec]
  module

theorem turned_twice (unit : n ⬝ᵥ n = 1) (moved : p = v + b • hat n *ᵥ v + c • (hat n * hat n) *ᵥ v) :
    (hat n * hat n) *ᵥ p = (1 - c) • (hat n * hat n) *ᵥ v - b • hat n *ᵥ v := by
  rw [← mulVec_mulVec, turned_once unit moved, mulVec_add, mulVec_smul, mulVec_smul, hat_hat_hat unit, mulVec_mulVec]
  module

/-- The translation is turned back as it was turned, with the product with the cotangent. -/
theorem turned_back (unit : n ⬝ᵥ n = 1) (positive : 0 < theta) (below : theta < Real.pi)
    (moved : p = v + ((1 - Real.cos theta) / theta) • hat n *ᵥ v + (1 - Real.sin theta / theta) • (hat n * hat n) *ᵥ v) :
    p - (theta / 2) • hat n *ᵥ p + (1 - theta / 2 * (Real.cos (theta / 2) / Real.sin (theta / 2))) • (hat n * hat n) *ᵥ p = v := by
  have sine : Real.sin (theta / 2) ≠ 0 := (Real.sin_pos_of_pos_of_lt_pi (by linarith) (by linarith)).ne'
  have double : theta = 2 * (theta / 2) := by ring
  have sinDouble : Real.sin theta = 2 * Real.sin (theta / 2) * Real.cos (theta / 2) := by
    rw [← Real.sin_two_mul, ← double]
  have cosDouble : 1 - Real.cos theta = 2 * Real.sin (theta / 2) ^ 2 := by
    have formula := Real.cos_two_mul (theta / 2)
    rw [← double] at formula
    rw [formula, Real.sin_sq]
    ring
  have circle := Real.sin_sq_add_cos_sq (theta / 2)
  have nonzero := positive.ne'
  rw [turned_once unit moved, turned_twice unit moved]
  nth_rewrite 1 [moved]
  rw [sinDouble, cosDouble]
  generalize Real.sin (theta / 2) = s at *
  generalize Real.cos (theta / 2) = k at *
  have first : 2 * s ^ 2 / theta - theta / 2 * (1 - (1 - 2 * s * k / theta)) - (1 - theta / 2 * (k / s)) * (2 * s ^ 2 / theta) = 0 := by
    field_simp
    ring
  have second : 1 - 2 * s * k / theta - theta / 2 * (2 * s ^ 2 / theta) +
      (1 - theta / 2 * (k / s)) * (1 - (1 - 2 * s * k / theta)) = 0 := by
    field_simp
    linear_combination (-2 * s * theta) * circle
  calc _ = v + (2 * s ^ 2 / theta - theta / 2 * (1 - (1 - 2 * s * k / theta)) -
        (1 - theta / 2 * (k / s)) * (2 * s ^ 2 / theta)) • hat n *ᵥ v +
      (1 - 2 * s * k / theta - theta / 2 * (2 * s ^ 2 / theta) +
        (1 - theta / 2 * (k / s)) * (1 - (1 - 2 * s * k / theta))) • (hat n * hat n) *ᵥ v := by module
    _ = v := by rw [first, second, zero_smul, zero_smul, add_zero, add_zero]

theorem cotangent_error (positive : 0 < theta) (below : theta < Real.pi) :
    |theta / 2 * (Real.cos (theta / 2) / Real.sin (theta / 2)) - xCotx (theta / 2)| ≤ 1e-9 * theta ^ 12 := by
  have sine : 0 < Real.sin (theta / 2) := Real.sin_pos_of_pos_of_lt_pi (by linarith) (by linarith)
  have close := xCotx_close (x := theta / 2) (by linarith) (by linarith)
  have whole : theta / 2 * (Real.cos (theta / 2) / Real.sin (theta / 2)) - xCotx (theta / 2) =
      (theta / 2 * Real.cos (theta / 2) - xCotx (theta / 2) * Real.sin (theta / 2)) / Real.sin (theta / 2) := by
    field_simp
  rw [whole]
  apply (abs_div_le sine close).trans
  rw [div_pow]
  norm_num
  linarith [pow_pos positive 12]

/-- The part across the axis is not made longer. -/
theorem twice_turned_le (unit : n ⬝ᵥ n = 1) (positive : 0 < theta)
    (moved : p = v + ((1 - Real.cos theta) / theta) • hat n *ᵥ v + (1 - Real.sin theta / theta) • (hat n * hat n) *ᵥ v) :
    ((hat n * hat n) *ᵥ p) ⬝ᵥ ((hat n * hat n) *ᵥ p) ≤ v ⬝ᵥ v := by
  have again : (hat n * hat n) *ᵥ v = n ⨯₃ (n ⨯₃ v) := by rw [← mulVec_mulVec, hat_mulVec, hat_mulVec]
  have across : (n ⨯₃ v) ⬝ᵥ (n ⨯₃ (n ⨯₃ v)) = 0 := dot_cross_self _ _
  have twice : (n ⨯₃ (n ⨯₃ v)) ⬝ᵥ (n ⨯₃ (n ⨯₃ v)) = (n ⨯₃ v) ⬝ᵥ (n ⨯₃ v) := by
    rw [cross_dot_cross, unit, dot_self_cross, zero_mul, sub_zero, one_mul]
  have once : (n ⨯₃ v) ⬝ᵥ (n ⨯₃ v) ≤ v ⬝ᵥ v := by
    rw [cross_dot_cross, unit, dotProduct_comm v n, one_mul]
    exact sub_le_self _ (mul_self_nonneg _)
  have factor : (Real.sin theta / theta) ^ 2 + ((1 - Real.cos theta) / theta) ^ 2 ≤ 1 := by
    have circle := Real.sin_sq_add_cos_sq theta
    have slow := Real.one_sub_sq_div_two_le_cos (x := theta)
    rw [div_pow, div_pow, ← add_div, div_le_one (pow_pos positive 2)]
    nlinarith
  rw [turned_twice unit moved, again, hat_mulVec, sub_sub_cancel]
  calc _ = ((Real.sin theta / theta) ^ 2 + ((1 - Real.cos theta) / theta) ^ 2) * ((n ⨯₃ v) ⬝ᵥ (n ⨯₃ v)) := by
        simp only [sub_dotProduct, dotProduct_sub, smul_dotProduct, dotProduct_smul, smul_eq_mul, twice, across,
          dotProduct_comm (n ⨯₃ (n ⨯₃ v)) (n ⨯₃ v)]
        ring
    _ ≤ 1 * (v ⬝ᵥ v) := mul_le_mul factor once (dotProduct_self_nonneg _) zero_le_one
    _ = v ⬝ᵥ v := one_mul _

end

section
variable {se3 : Vector6 ℝ}

/-- The slowest turns are taken for the identity. -/
theorem nearIdentity_of_slow (slow : Slow se3) : NearIdentity (se3Exp se3).toBlocks₁₁ := by
  intro i
  have nonneg := dotProduct_self_nonneg (se3 ∘ .inl)
  have entries := abs_hat_le fun j => (abs_le_length (se3 ∘ .inl) j).trans (slow_length slow)
  have twice := abs_mul_le entries entries i i
  have flat : hat (se3 ∘ .inl) i i = 0 := by fin_cases i <;> rfl
  have coefficient : |(expCoefficients (se3 ∘ .inl ⬝ᵥ se3 ∘ .inl)).b| ≤ 1 := by
    rw [Slow] at slow
    rw [expCoefficients, if_pos slow, abs_le]
    norm_num at slow ⊢
    constructor <;> linarith
  have product := mul_le_mul coefficient twice (abs_nonneg _) zero_le_one
  rw [← abs_mul] at product
  rw [se3Exp_eq, screw, affine_toBlocks₁₁, AlmostEquals, Matrix.add_apply, Matrix.add_apply, Matrix.smul_apply, Matrix.smul_apply,
    flat, one_apply_eq,
    smul_zero, zero_add, sub_add_cancel_left, abs_neg, smul_eq_mul]
  apply product.trans_lt
  norm_num [kTol]

theorem trace_se3Exp (fast : ¬ Slow se3) :
    (se3Exp se3).toBlocks₁₁.trace = 1 + 2 * Real.cos √(se3 ∘ .inl ⬝ᵥ se3 ∘ .inl) := by
  obtain ⟨theta, n, length, -, unit, -, motion⟩ := se3Exp_axis fast
  rw [motion, affine_toBlocks₁₁, trace_exponential _ _ unit, length]

/-- The twist that is found, with the turn of the one given. -/
structure Restored (se3 twist : Vector6 ℝ) : Prop where
  turn : twist ∘ .inl = se3 ∘ .inl
  move : √((twist ∘ .inr - se3 ∘ .inr) ⬝ᵥ (twist ∘ .inr - se3 ∘ .inr)) ≤
    1e-9 * √(se3 ∘ .inl ⬝ᵥ se3 ∘ .inl) ^ 12 * √(se3 ∘ .inr ⬝ᵥ se3 ∘ .inr)

theorem log_exp (below : √(se3 ∘ .inl ⬝ᵥ se3 ∘ .inl) < Real.pi) (off : ¬ NearIdentity (se3Exp se3).toBlocks₁₁)
    (away : ¬ NearHalfTurn (se3Exp se3).toBlocks₁₁) : ∃ twist, se3Log (se3Exp se3) = .done twist ∧ Restored se3 twist := by
  obtain ⟨theta, n, length, positive, unit, axis, motion⟩ := se3Exp_axis (mt nearIdentity_of_slow off)
  rw [motion, affine_toBlocks₁₁] at off away
  rw [← length] at below
  have log := so3Log_exponential positive below unit off away
  generalize moved : se3 ∘ .inr + ((1 - Real.cos theta) / theta) • hat n *ᵥ (se3 ∘ .inr) +
    (1 - Real.sin theta / theta) • (hat n * hat n) *ᵥ (se3 ∘ .inr) = p at motion
  rw [motion, se3Log, affine_toBlocks₁₁, log, affine_translation]
  refine ⟨_, rfl, ?_, ?_⟩
  · rw [axis]
    funext i
    fin_cases i <;> simp [hat]
  · have back := turned_back unit positive below moved.symm
    have error : p - (0.5 * theta) • hat n *ᵥ p + ((1.0 - xCotx (theta / 2.0)) • hat n) *ᵥ hat n *ᵥ p - se3 ∘ .inr =
        (theta / 2 * (Real.cos (theta / 2) / Real.sin (theta / 2)) - xCotx (theta / 2)) • (hat n * hat n) *ᵥ p := by
      have halves : (0.5 : ℝ) * theta = theta / 2 := by ring
      have two : (2.0 : ℝ) = 2 := by norm_num
      have one : (1.0 : ℝ) = 1 := by norm_num
      rw [halves, two, one, smul_mulVec, mulVec_mulVec]
      nth_rewrite 1 [← back]
      module
    have across := Real.sqrt_le_sqrt (twice_turned_le unit positive moved.symm)
    have close := cotangent_error positive below
    calc _ = √(((theta / 2 * (Real.cos (theta / 2) / Real.sin (theta / 2)) - xCotx (theta / 2)) • (hat n * hat n) *ᵥ p) ⬝ᵥ
          ((theta / 2 * (Real.cos (theta / 2) / Real.sin (theta / 2)) - xCotx (theta / 2)) • (hat n * hat n) *ᵥ p)) := by
          rw [← error]
          rfl
      _ = |theta / 2 * (Real.cos (theta / 2) / Real.sin (theta / 2)) - xCotx (theta / 2)| *
          √(((hat n * hat n) *ᵥ p) ⬝ᵥ ((hat n * hat n) *ᵥ p)) := by
        rw [smul_dotProduct, dotProduct_smul, smul_eq_mul, smul_eq_mul, ← mul_assoc, Real.sqrt_mul (mul_self_nonneg _),
          Real.sqrt_mul_self_eq_abs]
      _ ≤ _ := by
        rw [← length]
        exact mul_le_mul close across (Real.sqrt_nonneg _) ((abs_nonneg _).trans close)

/-- A turn by one radian about the last axis, with a move. -/
def oneRadian : Vector6 ℝ := Sum.elim ![0, 0, 1] ![1, 0, 1]

theorem oneRadian_length : oneRadian ∘ .inl ⬝ᵥ oneRadian ∘ .inl = 1 := by
  simp [oneRadian]

theorem oneRadian_trace : (se3Exp oneRadian).toBlocks₁₁.trace = 1 + 2 * Real.cos 1 := by
  have fast : ¬ Slow oneRadian := by
    rw [Slow, oneRadian_length]
    norm_num
  rw [trace_se3Exp fast, oneRadian_length, Real.sqrt_one]

theorem log_exp_oneRadian : ∃ twist, se3Log (se3Exp oneRadian) = .done twist ∧ Restored oneRadian twist := by
  have trace := oneRadian_trace
  apply log_exp
  · rw [oneRadian_length, Real.sqrt_one]
    linarith [Real.pi_gt_three]
  · intro near
    have diagonal (i : Fin 3) := (abs_lt.mp (near i)).2
    rw [trace_fin_three] at trace
    have cosine := Real.cos_one_le
    norm_num [kTol] at diagonal
    linarith [diagonal 0, diagonal 1, diagonal 2]
  · intro near
    rw [NearHalfTurn, AlmostEquals, trace, abs_lt, kTol] at near
    linarith [Real.cos_one_pos]

end

end AxbyCore.Proofs.TwistLogarithm
