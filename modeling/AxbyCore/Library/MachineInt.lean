import Mathlib.Algebra.Group.Int.Defs
import Mathlib.Algebra.Group.Nat.Defs
import Mathlib.Tactic.Common

/-! Conversions between 64-bit unsigned and signed integers. Unsigned arithmetic
wraps, a conversion keeps the value modulo 2^64, and signed arithmetic that
overflows has no result. -/

namespace AxbyCore.MachineInt

def toUint64 (value : Int) : Nat := (value % 2 ^ 64).toNat

def toInt64 (value : Nat) : Int := if value % 2 ^ 64 < 2 ^ 63 then (value % 2 ^ 64 : Nat) else (value % 2 ^ 64 : Nat) - 2 ^ 64

def toInt32 (value : Nat) : Int := if value % 2 ^ 32 < 2 ^ 31 then (value % 2 ^ 32 : Nat) else (value % 2 ^ 32 : Nat) - 2 ^ 32

def FitsInt64 (value : Int) : Prop := -2 ^ 63 ≤ value ∧ value < 2 ^ 63

instance (value : Int) : Decidable (FitsInt64 value) := inferInstanceAs (Decidable (_ ∧ _))

def FitsInt32 (value : Int) : Prop := -2 ^ 31 ≤ value ∧ value < 2 ^ 31

instance (value : Int) : Decidable (FitsInt32 value) := inferInstanceAs (Decidable (_ ∧ _))

/-- The result of a signed operation. -/
def signed (value : Int) : Option Int := if FitsInt64 value then some value else none

theorem toUint64_natCast {value : Nat} (small : value < 2 ^ 64) : toUint64 value = value := by
  unfold toUint64
  omega

theorem toUint64_of_nonneg {value : Int} (nonneg : 0 ≤ value) (small : value < 2 ^ 64) :
    (toUint64 value : Int) = value := by
  unfold toUint64
  omega

/-- Going through uint64_t loses nothing of an int64_t. -/
theorem toInt64_toUint64 {value : Int} (fits : FitsInt64 value) : toInt64 (toUint64 value) = value := by
  unfold FitsInt64 at fits
  unfold toInt64 toUint64
  split <;> omega

theorem toInt64_natCast {value : Nat} (small : value < 2 ^ 63) : toInt64 value = value := by
  unfold toInt64
  split <;> omega

theorem toInt32_natCast {value : Nat} (small : value < 2 ^ 31) : toInt32 value = value := by
  unfold toInt32
  split <;> omega

/-- What an int cannot hold does not come back when it is widened. -/
theorem toUint64_toInt32_ne {value : Nat} (large : 2 ^ 31 ≤ value) (small : value < 2 ^ 63) :
    toUint64 (toInt32 value) ≠ value := by
  unfold toUint64 toInt32
  split <;> omega

theorem signed_of_fits {value : Int} (fits : FitsInt64 value) : signed value = some value := if_pos fits

theorem signed_eq_some {value result : Int} : signed value = some result ↔ FitsInt64 value ∧ value = result := by
  unfold signed
  split
  next fits => simp [fits]
  next overflows => simp [overflows]

end AxbyCore.MachineInt
