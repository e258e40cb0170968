import AxbyCore.Library.Binary64

/-! The values of IEEE 754 bit patterns and the conversion to another format. Every finite
magnitude is counted in units of 2^-1074, which is the smallest of a double. -/

namespace AxbyCore.Ieee754
open Binary64

/-- How wide the fraction and the exponent are; the smallest magnitude is `2 ^ scale` units. -/
structure Format where
  fraction : Nat
  exponent : Nat
  scale : Nat

def binary16 : Format := ⟨10, 5, 1050⟩

def binary32 : Format := ⟨23, 8, 925⟩

def binary64 : Format := ⟨52, 11, 0⟩

inductive Value where
  | nan
  | infinity (negative : Bool)
  | finite (negative : Bool) (magnitude : Nat)
  deriving DecidableEq, Repr

namespace Format

def signBit (format : Format) : Nat := 2 ^ (format.fraction + format.exponent)

/-- The bits of infinity, behind those of the finite magnitudes. -/
def infinityBits (format : Format) : Nat := (2 ^ format.exponent - 1) * 2 ^ format.fraction

/-- The magnitude of a pattern without a sign, in the smallest of the format. -/
def magnitude (format : Format) (bits : Nat) : Nat :=
  let biased := bits / 2 ^ format.fraction
  let fraction := bits % 2 ^ format.fraction
  if biased = 0 then fraction else (2 ^ format.fraction + fraction) * 2 ^ (biased - 1)

/-- The value of a pattern, whose sign is given. -/
def signedValue (format : Format) (negative : Bool) (bits : Nat) : Value :=
  if bits < format.infinityBits then .finite negative (format.magnitude bits * 2 ^ format.scale)
  else if bits = format.infinityBits then .infinity negative
  else .nan

def value (format : Format) (bits : Nat) : Value :=
  format.signedValue (decide (format.signBit ≤ bits)) (bits % format.signBit)

/-- The pattern of the nearest magnitude, ties to even. A carry out of the significand
is one of the exponent. -/
def round (format : Format) (magnitude : Nat) : Nat :=
  let more := magnitude.log2 - (format.fraction + format.scale)
  min (more * 2 ^ format.fraction + nearest magnitude (2 ^ (more + format.scale))) format.infinityBits

def withSign (format : Format) (negative : Bool) (bits : Nat) : Nat := (if negative then format.signBit else 0) + bits

/-- The pattern that a value is converted to. -/
def ofValue (format : Format) : Value → Nat
  | .nan => format.withSign false (format.infinityBits + 2 ^ (format.fraction - 1))
  | .infinity negative => format.withSign negative format.infinityBits
  | .finite negative magnitude => format.withSign negative (format.round magnitude)

section
variable {format : Format}

/-- The magnitudes of the format are not rounded. -/
theorem round_magnitude {bits : Nat} (finite : bits < format.infinityBits) :
    format.round (format.magnitude bits * 2 ^ format.scale) = bits := by
  have parts := Nat.div_add_mod bits (2 ^ format.fraction)
  have low := Nat.mod_lt bits (Nat.two_pow_pos format.fraction)
  unfold magnitude
  dsimp only
  by_cases subnormal : bits / 2 ^ format.fraction = 0
  · rw [subnormal, Nat.mul_zero, Nat.zero_add] at parts
    rw [if_pos subnormal, parts]
    rw [parts] at low
    have few : (bits * 2 ^ format.scale).log2 - (format.fraction + format.scale) = 0 := by
      by_cases zero : bits = 0
      · rw [zero, Nat.zero_mul, Nat.log2_zero, Nat.zero_sub]
      · have positive : bits * 2 ^ format.scale ≠ 0 := Nat.mul_ne_zero zero (Nat.ne_of_gt (Nat.two_pow_pos _))
        have below : bits * 2 ^ format.scale < 2 ^ (format.fraction + format.scale) := by
          rw [Nat.pow_add]
          exact Nat.mul_lt_mul_of_pos_right low (Nat.two_pow_pos _)
        have := (Nat.log2_lt positive).mpr below
        omega
    unfold round
    dsimp only
    rw [few, Nat.zero_mul, Nat.zero_add, Nat.zero_add, nearest_mul _ (Nat.two_pow_pos _)]
    omega
  · rw [if_neg subnormal]
    generalize significand : 2 ^ format.fraction + bits % 2 ^ format.fraction = leading
    obtain ⟨more, biased⟩ := Nat.exists_eq_succ_of_ne_zero subnormal
    rw [biased, Nat.succ_sub_one, Nat.mul_assoc, ← Nat.pow_add]
    have log : (leading * 2 ^ (more + format.scale)).log2 = format.fraction + (more + format.scale) := by
      have positive := Nat.two_pow_pos format.fraction
      have lower : 2 ^ (format.fraction + (more + format.scale)) ≤ leading * 2 ^ (more + format.scale) := by
        rw [Nat.pow_add]
        exact Nat.mul_le_mul_right _ (by omega)
      have upper : leading * 2 ^ (more + format.scale) < 2 ^ (format.fraction + (more + format.scale) + 1) := by
        rw [Nat.add_right_comm, Nat.pow_add _ (format.fraction + 1), Nat.pow_succ]
        exact Nat.mul_lt_mul_of_pos_right (by omega) (Nat.two_pow_pos _)
      have nonzero : leading * 2 ^ (more + format.scale) ≠ 0 := Nat.mul_ne_zero (by omega) (Nat.ne_of_gt (Nat.two_pow_pos _))
      exact (Nat.log2_eq_iff nonzero).mpr ⟨lower, upper⟩
    have exponent : format.fraction + (more + format.scale) - (format.fraction + format.scale) = more := by omega
    rw [biased, Nat.mul_succ, Nat.mul_comm] at parts
    unfold round
    dsimp only
    rw [log, exponent, nearest_mul _ (Nat.two_pow_pos _)]
    omega

/-- What is at least a power of two is so after rounding, unless it becomes infinite. -/
theorem two_pow_le_round {magnitude k : Nat} (le : 2 ^ (format.fraction + format.scale + k) ≤ magnitude)
    (finite : format.round magnitude ≠ format.infinityBits) : (k + 1) * 2 ^ format.fraction ≤ format.round magnitude := by
  have nonzero : magnitude ≠ 0 := Nat.ne_of_gt (Nat.lt_of_lt_of_le (Nat.two_pow_pos _) le)
  have power : format.fraction + format.scale + k ≤ magnitude.log2 := (Nat.le_log2 nonzero).mpr le
  unfold round at finite ⊢
  dsimp only at finite ⊢
  generalize extra : magnitude.log2 - (format.fraction + format.scale) = more at finite ⊢
  have enough : k ≤ more := by omega
  have whole : 2 ^ format.fraction * 2 ^ (more + format.scale) ≤ magnitude := by
    rw [← Nat.pow_add]
    exact Nat.le_trans (Nat.pow_le_pow_right (by decide) (by omega)) (Nat.log2_self_le nonzero)
  have leading : 2 ^ format.fraction ≤ nearest magnitude (2 ^ (more + format.scale)) :=
    Nat.le_trans ((Nat.le_div_iff_mul_le (Nat.two_pow_pos _)).mpr whole) (nearest_bounds _ _).1
  have exponents : k * 2 ^ format.fraction ≤ more * 2 ^ format.fraction := Nat.mul_le_mul_right _ enough
  rw [Nat.succ_mul]
  omega

theorem two_pow_le_magnitude {bits k : Nat} (le : (k + 1) * 2 ^ format.fraction ≤ bits) :
    2 ^ (format.fraction + k) ≤ format.magnitude bits := by
  have biased : k + 1 ≤ bits / 2 ^ format.fraction := (Nat.le_div_iff_mul_le (Nat.two_pow_pos _)).mpr le
  unfold magnitude
  dsimp only
  rw [if_neg (by omega), Nat.pow_add]
  exact Nat.mul_le_mul (Nat.le_add_right _ _) (Nat.pow_le_pow_right (by decide) (by omega))

theorem signBit_eq (format : Format) : format.infinityBits + 2 ^ format.fraction = format.signBit := by
  unfold infinityBits signBit
  have positive := Nat.two_pow_pos format.exponent
  rw [Nat.pow_add, ← Nat.succ_mul, Nat.mul_comm]
  congr 1
  omega

theorem round_le (format : Format) (magnitude : Nat) : format.round magnitude ≤ format.infinityBits := Nat.min_le_right _ _

theorem withSign_lt {negative : Bool} {bits : Nat} (small : bits < format.signBit) :
    format.withSign negative bits < 2 * format.signBit := by
  unfold withSign
  split <;> omega

theorem value_withSign {negative : Bool} {bits : Nat} (small : bits < format.signBit) :
    format.value (format.withSign negative bits) = format.signedValue negative bits := by
  unfold value withSign
  cases negative with
  | false =>
    simp only [Bool.false_eq_true, if_false, Nat.zero_add]
    rw [Nat.mod_eq_of_lt small, decide_eq_false (Nat.not_le_of_lt small)]
  | true =>
    simp only [if_true]
    rw [Nat.add_mod_left, Nat.mod_eq_of_lt small, decide_eq_true (Nat.le_add_right _ _)]

section
variable (positive : 0 < format.fraction)
include positive

theorem quiet_lt : format.infinityBits + 2 ^ (format.fraction - 1) < format.signBit := by
  have half : 2 ^ (format.fraction - 1) < 2 ^ format.fraction := Nat.pow_lt_pow_right (by decide) (by omega)
  rw [← signBit_eq]
  omega

theorem ofValue_lt (value : Value) : format.ofValue value < 2 * format.signBit := by
  have quiet := quiet_lt positive
  have few := Nat.two_pow_pos (format.fraction - 1)
  cases value with
  | nan => exact withSign_lt quiet
  | infinity negative => exact withSign_lt (by omega)
  | finite negative magnitude =>
    have most := format.round_le magnitude
    exact withSign_lt (by omega)

/-- The values of the format are converted to themselves. -/
theorem value_ofValue (bits : Nat) : format.value (format.ofValue (format.value bits)) = format.value bits := by
  have quiet := quiet_lt positive
  have few := Nat.two_pow_pos (format.fraction - 1)
  unfold value
  generalize decide (format.signBit ≤ bits) = negative
  generalize bits % format.signBit = unsigned
  have whole : format.value (format.ofValue (format.signedValue negative unsigned)) = format.signedValue negative unsigned := by
    unfold signedValue
    split
    next finite =>
      rw [ofValue, round_magnitude finite, value_withSign (by omega), signedValue, if_pos finite]
    next notFinite =>
      split
      next infinite => rw [ofValue, value_withSign (by omega), signedValue, if_neg (Nat.lt_irrefl _), if_pos rfl]
      next notInfinite => rw [ofValue, value_withSign quiet, signedValue, if_neg (by omega), if_neg (by omega)]
  exact whole

end

end

end Format

/-- A double converted to a float, to the nearest one. -/
def toFloat (double : BitVec 64) : BitVec 32 := BitVec.ofNat 32 (binary32.ofValue (binary64.value double.toNat))

/-- A double that is a float is converted to it. -/
theorem toFloat_exact {double : BitVec 64} {float : BitVec 32} (same : binary32.value float.toNat = binary64.value double.toNat) :
    binary32.value (toFloat double).toNat = binary64.value double.toNat := by
  have few : binary32.ofValue (binary64.value double.toNat) < 2 ^ 32 := Format.ofValue_lt (by decide) _
  rw [toFloat, BitVec.toNat_ofNat, Nat.mod_eq_of_lt few, ← same, Format.value_ofValue (by decide)]

end AxbyCore.Ieee754
