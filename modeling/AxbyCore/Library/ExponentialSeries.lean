import Mathlib.Analysis.Calculus.MeanValue
import Mathlib.Analysis.Complex.Trigonometric
import Mathlib.Analysis.Normed.Algebra.MatrixExponential
import Mathlib.Analysis.SpecialFunctions.Exponential
import Mathlib.Analysis.SpecialFunctions.Trigonometric.Deriv
import Mathlib.Tactic.Module

/-! The exponential of an element whose fourth power is a negative multiple of its square, in
closed form, and how far the polynomials that stand for sines and cosines are off. -/

namespace AxbyCore.ExponentialSeries
open NormedSpace

section
variable {A : Type*} [NormedRing A] [NormedAlgebra ℝ A] {a : A} {theta : ℝ}

/-- The sum of the series at a multiple of the element. -/
noncomputable def closedForm (a : A) (theta t : ℝ) : A :=
  1 + t • a + ((1 - Real.cos (t * theta)) / theta ^ 2) • a ^ 2 + ((t * theta - Real.sin (t * theta)) / theta ^ 3) • a ^ 3

theorem closedForm_zero (a : A) (theta : ℝ) : closedForm a theta 0 = 1 := by
  simp [closedForm]

theorem mul_closedForm (nonzero : theta ≠ 0) (turn : a ^ 4 = -(theta ^ 2 • a ^ 2)) (t : ℝ) :
    a * closedForm a theta t = a + (Real.sin (t * theta) / theta) • a ^ 2 + ((1 - Real.cos (t * theta)) / theta ^ 2) • a ^ 3 := by
  have second : a * a ^ 2 = a ^ 3 := (pow_succ' a 2).symm
  have third : a * a ^ 3 = -(theta ^ 2 • a ^ 2) := (pow_succ' a 3).symm.trans turn
  have coefficient : t - (t * theta - Real.sin (t * theta)) / theta ^ 3 * theta ^ 2 = Real.sin (t * theta) / theta := by
    field_simp
    ring
  rw [closedForm, mul_add, mul_add, mul_add, mul_one, mul_smul_comm, mul_smul_comm, mul_smul_comm, second, third, ← pow_two,
    ← coefficient]
  module

theorem hasDerivAt_closedForm (nonzero : theta ≠ 0) (turn : a ^ 4 = -(theta ^ 2 • a ^ 2)) (t : ℝ) :
    HasDerivAt (closedForm a theta) (a * closedForm a theta t) t := by
  have scaled : HasDerivAt (fun t : ℝ => t * theta) theta t := by simpa using (hasDerivAt_id t).mul_const theta
  have cosine := ((scaled.cos.const_sub 1).div_const (theta ^ 2)).smul_const (a ^ 2)
  have sine := ((scaled.sub scaled.sin).div_const (theta ^ 3)).smul_const (a ^ 3)
  have linear := ((hasDerivAt_id t).smul_const a).const_add 1
  have whole := (linear.add cosine).add sine
  apply whole.congr_deriv
  have first : -(-Real.sin (t * theta) * theta) / theta ^ 2 = Real.sin (t * theta) / theta := by
    field_simp
  have second : (theta - Real.cos (t * theta) * theta) / theta ^ 3 = (1 - Real.cos (t * theta)) / theta ^ 2 := by
    field_simp
  rw [mul_closedForm nonzero turn, first, second, one_smul]

/-- The quotient by the exponential does not change. -/
theorem exp_eq_closedForm [CompleteSpace A] (nonzero : theta ≠ 0) (turn : a ^ 4 = -(theta ^ 2 • a ^ 2)) :
    exp a = 1 + a + ((1 - Real.cos theta) / theta ^ 2) • a ^ 2 + ((theta - Real.sin theta) / theta ^ 3) • a ^ 3 := by
  have slope (t : ℝ) : HasDerivAt (fun t : ℝ => exp (t • -a) * closedForm a theta t) 0 t := by
    have product := (hasDerivAt_exp_smul_const (-a) t).mul (hasDerivAt_closedForm nonzero turn t)
    apply product.congr_deriv
    rw [mul_neg, neg_mul, mul_assoc, neg_add_cancel]
  have still := is_const_of_deriv_eq_zero (fun t => (slope t).differentiableAt) (fun t => (slope t).deriv) 1 0
  let _ := NormedAlgebra.restrictScalars ℚ ℝ A
  have inverse : exp a * exp (-a) = 1 := by
    rw [← exp_add_of_commute (Commute.neg_right (Commute.refl a)), add_neg_cancel, exp_zero]
  calc exp a = exp a * (exp ((1 : ℝ) • -a) * closedForm a theta 1) := by
        rw [still, zero_smul, exp_zero, closedForm_zero, one_mul, mul_one]
    _ = closedForm a theta 1 := by rw [one_smul, ← mul_assoc, inverse, one_mul]
    _ = _ := by rw [closedForm, one_smul, one_mul]

theorem exp_matrix {n : Type*} [Fintype n] [DecidableEq n] {M : Matrix n n ℝ} (nonzero : theta ≠ 0)
    (turn : M ^ 4 = -(theta ^ 2 • M ^ 2)) :
    exp M = 1 + M + ((1 - Real.cos theta) / theta ^ 2) • M ^ 2 + ((theta - Real.sin theta) / theta ^ 3) • M ^ 3 := by
  -- the topology of matrices is that of a norm
  open scoped Matrix.Norms.Operator in
  with_unfolding_all exact exp_eq_closedForm nonzero turn

end

section
variable {x : ℝ} {n : ℕ}

noncomputable def cosSum (n : ℕ) (x : ℝ) : ℝ := ∑ m ∈ Finset.range n, (-1) ^ m * x ^ (2 * m) / (2 * m).factorial

noncomputable def sinSum (n : ℕ) (x : ℝ) : ℝ := ∑ m ∈ Finset.range n, (-1) ^ m * x ^ (2 * m + 1) / (2 * m + 1).factorial

theorem even_pow (x : ℝ) (m : ℕ) : (x * Complex.I) ^ (2 * m) = (((-1) ^ m * x ^ (2 * m) : ℝ) : ℂ) := by
  rw [pow_mul, mul_pow, Complex.I_sq, mul_neg_one, neg_pow, ← pow_mul]
  push_cast
  rfl

/-- The terms of a turn are by turns real and imaginary. -/
theorem turn_sum (n : ℕ) (x : ℝ) :
    ∑ m ∈ Finset.range (2 * n), (x * Complex.I) ^ m / m.factorial = cosSum n x + sinSum n x * Complex.I := by
  induction n with
  | zero => simp [cosSum, sinSum]
  | succ n ih =>
    rw [mul_add_one, Finset.sum_range_succ, Finset.sum_range_succ, ih, pow_succ, even_pow, cosSum, cosSum, sinSum, sinSum,
      Finset.sum_range_succ, Finset.sum_range_succ, pow_succ x (2 * n)]
    push_cast
    ring

theorem turn_bound (near : |x| / (2 * n + 1) ≤ 1 / 2) :
    ‖Complex.exp (x * Complex.I) - (cosSum n x + sinSum n x * Complex.I)‖ ≤ |x| ^ (2 * n) / (2 * n).factorial * 2 := by
  have size : ‖(x * Complex.I : ℂ)‖ = |x| := by simp
  have bound := @Complex.exp_bound' (x * Complex.I) (2 * n)
  rw [size, Nat.succ_eq_add_one, Nat.cast_add, Nat.cast_one, Nat.cast_mul, Nat.cast_two, turn_sum] at bound
  exact bound near

theorem abs_cos_sub_cosSum (near : |x| / (2 * n + 1) ≤ 1 / 2) :
    |Real.cos x - cosSum n x| ≤ |x| ^ (2 * n) / (2 * n).factorial * 2 := by
  apply le_trans _ (turn_bound near)
  have part := Complex.abs_re_le_norm (Complex.exp (x * Complex.I) - (cosSum n x + sinSum n x * Complex.I))
  rw [Complex.sub_re, Complex.exp_ofReal_mul_I_re] at part
  simpa using part

theorem abs_sin_sub_sinSum (near : |x| / (2 * n + 1) ≤ 1 / 2) :
    |Real.sin x - sinSum n x| ≤ |x| ^ (2 * n) / (2 * n).factorial * 2 := by
  apply le_trans _ (turn_bound near)
  have part := Complex.abs_im_le_norm (Complex.exp (x * Complex.I) - (cosSum n x + sinSum n x * Complex.I))
  rw [Complex.sub_im, Complex.exp_ofReal_mul_I_im] at part
  simpa using part

end

end AxbyCore.ExponentialSeries
