import Mathlib.Algebra.BigOperators.Ring.List
import Mathlib.Algebra.CharZero.Defs
import Mathlib.Tactic.FieldSimp
import Mathlib.Tactic.LinearCombination
import Mathlib.Tactic.Ring

/-! Mean and unbiased variance of a sample, and what one more value does to them. -/

namespace AxbyCore.Sample

variable {K : Type*} [Field K]

def mean (values : List K) : K := values.sum / values.length

/-- The sum of the squared deviations from the mean. -/
def deviations (values : List K) : K := (values.map fun value => (value - mean values) ^ 2).sum

def variance (values : List K) : K := deviations values / (values.length - 1)

@[simp] theorem mean_singleton (value : K) : mean [value] = value := by simp [mean]

@[simp] theorem deviations_singleton (value : K) : deviations [value] = 0 := by simp [deviations]

/-- Squares about any centre. -/
theorem sum_sq_sub (values : List K) (centre : K) :
    (values.map fun value => (value - centre) ^ 2).sum =
      (values.map (· ^ 2)).sum - 2 * centre * values.sum + values.length * centre ^ 2 := by
  induction values with
  | nil => simp
  | cons value values ih =>
    simp only [List.map_cons, List.sum_cons, List.length_cons, Nat.cast_add, Nat.cast_one, ih]
    ring

variable [CharZero K]

theorem length_mul_mean (values : List K) : values.length * mean values = values.sum := by
  cases values with
  | nil => simp
  | cons value values =>
    have count : ((value :: values).length : K) ≠ 0 := Nat.cast_ne_zero.mpr (Nat.succ_ne_zero _)
    exact mul_div_cancel₀ _ count

theorem length_mul_mean_concat (values : List K) (value : K) :
    (values.length + 1) * mean (values ++ [value]) = values.sum + value := by
  simpa using length_mul_mean (values ++ [value])

/-- The mean moves towards the new value by its share. -/
theorem mean_concat (values : List K) (value : K) :
    mean (values ++ [value]) = mean values + (value - mean values) / (values.length + 1) := by
  have count : (values.length + 1 : K) ≠ 0 := Nat.cast_add_one_ne_zero _
  apply mul_left_cancel₀ count
  rw [length_mul_mean_concat, mul_add, mul_div_cancel₀ _ count, ← length_mul_mean]
  ring

/-- The squared deviations grow by the product of those of the new value from the means before and after it. -/
theorem deviations_concat (values : List K) (value : K) :
    deviations (values ++ [value]) =
      deviations values + (value - mean values) * (value - mean (values ++ [value])) := by
  have before := length_mul_mean values
  have after := length_mul_mean_concat values value
  rw [deviations, deviations, sum_sq_sub, sum_sq_sub]
  simp only [List.map_append, List.map_singleton, List.sum_append, List.sum_singleton, List.length_append,
    List.length_singleton, Nat.cast_add, Nat.cast_one]
  linear_combination (mean (values ++ [value]) - mean values) * (after + before)

end AxbyCore.Sample
