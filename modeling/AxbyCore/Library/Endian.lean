import Mathlib.Algebra.Group.Nat.Defs
import Mathlib.Tactic.Common

/-! Unsigned integers as bytes, lowest byte first and highest byte first. -/

namespace AxbyCore.Endian

def little : Nat → Nat → List UInt8
  | 0, _ => []
  | count + 1, value => UInt8.ofNat (value % 256) :: little count (value / 256)

def ofLittle : List UInt8 → Nat
  | [] => 0
  | byte :: rest => byte.toNat + 256 * ofLittle rest

def big (count value : Nat) : List UInt8 := (little count value).reverse

def ofBig (bytes : List UInt8) : Nat := ofLittle bytes.reverse

@[simp] theorem little_length (count value : Nat) : (little count value).length = count := by
  induction count generalizing value with
  | zero => rfl
  | succ count ih => simp [little, ih]

@[simp] theorem big_length (count value : Nat) : (big count value).length = count := by simp [big]

theorem ofLittle_little (count value : Nat) : ofLittle (little count value) = value % 256 ^ count := by
  induction count generalizing value with
  | zero => simp [little, ofLittle, Nat.mod_one]
  | succ count ih =>
    have byte : (UInt8.ofNat (value % 256)).toNat = value % 256 := by
      rw [UInt8.toNat_ofNat']
      omega
    rw [little, ofLittle, ih, byte, Nat.pow_succ, Nat.mul_comm (256 ^ count) 256, Nat.mod_mul]

theorem ofLittle_lt (bytes : List UInt8) : ofLittle bytes < 256 ^ bytes.length := by
  induction bytes with
  | nil => exact Nat.one_pos
  | cons byte rest ih =>
    have small := byte.toNat_lt
    rw [ofLittle, List.length_cons, Nat.pow_succ]
    omega

theorem little_take {width count : Nat} (le : width ≤ count) (value : Nat) :
    (little count value).take width = little width value := by
  induction width generalizing count value with
  | zero => rfl
  | succ width ih =>
    cases count with
    | zero => omega
    | succ count => rw [little, little, List.take_succ_cons, ih (by omega)]

theorem little_drop (offset count value : Nat) :
    (little (count + offset) value).drop offset = little count (value / 256 ^ offset) := by
  induction offset generalizing value with
  | zero => simp
  | succ offset ih =>
    rw [← Nat.add_assoc, little, List.drop_succ_cons, ih, Nat.div_div_eq_div_mul, Nat.pow_succ, Nat.mul_comm 256]

/-- The bytes at an offset within an element of an array. -/
theorem array_element {values : List Nat} {index value offset width count : Nat} (inside : values[index]? = some value)
    (within : offset + width ≤ count) :
    ((values.flatMap (little count)).drop (count * index + offset)).take width =
      little width (value / 256 ^ offset) := by
  induction values generalizing index with
  | nil => simp at inside
  | cons first rest ih =>
    cases index with
    | zero =>
      obtain rfl : first = value := by simpa using inside
      have split : little count first = little (count - offset + offset) first := by
        rw [Nat.sub_add_cancel (by omega)]
      rw [Nat.mul_zero, Nat.zero_add, List.flatMap_cons, List.drop_append_of_le_length (by rw [little_length]; omega),
        split, little_drop, List.take_append_of_le_length (by rw [little_length]; omega), little_take (by omega)]
    | succ index =>
      have past : count * (index + 1) + offset = (little count first).length + (count * index + offset) := by
        rw [little_length, Nat.mul_succ]
        omega
      rw [List.flatMap_cons, past, List.drop_length_add_append]
      exact ih (by simpa using inside)

theorem ofLittle_little_of_lt {count value : Nat} (small : value < 256 ^ count) :
    ofLittle (little count value) = value := by
  rw [ofLittle_little, Nat.mod_eq_of_lt small]

theorem ofBig_big_of_lt {count value : Nat} (small : value < 256 ^ count) : ofBig (big count value) = value := by
  rw [ofBig, big, List.reverse_reverse, ofLittle_little_of_lt small]

end AxbyCore.Endian
