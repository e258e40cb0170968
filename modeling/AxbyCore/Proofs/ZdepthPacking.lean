import AxbyCore.Proofs.ZdepthPixels
import AxbyCore.Zdepth.DepthCompressor
import Mathlib.Data.List.Basic

/-! What goes into a file of zdepth comes out of it again, short of what words of 12 bits
have no room for: packed words, the bits of the zeroes, and the sections of the file. -/

namespace AxbyCore.Proofs.Zdepth
open AxbyCore.Zdepth Realsense Endian

/-! Words of 12 bits. -/

theorem packLow_length (data : List UInt16) : (packLow data).length = data.length / 2 := by
  induction data using packLow.induct with
  | case1 x y data ih => simp only [packLow, List.length_cons, ih]; omega
  | case2 data short =>
    match data, short with
    | [], _ => rfl
    | [_], _ => simp [packLow]
    | x :: y :: data, short => exact absurd rfl (short x y data)

theorem nibbles (low high : Nat) :
    (UInt8.ofNat ((low &&& 15) ||| ((high &&& 15) <<< 4))).toNat = low % 16 + high % 16 * 16 := by
  have small : low % 16 < 2 ^ 4 := Nat.mod_lt _ (by decide)
  rw [show (15 : Nat) = 2 ^ 4 - 1 from rfl, Nat.and_two_pow_sub_one_eq_mod, Nat.and_two_pow_sub_one_eq_mod, Nat.or_comm,
    ← Nat.shiftLeft_add_eq_or_of_lt small, Nat.shiftLeft_eq, UInt8.toNat_ofNat']
  omega

theorem word_restored (word : UInt16) {low : Nat} (small : low = word.toNat % 16) :
    UInt16.ofNat (((UInt8.ofNat (word.toNat >>> 4)).toNat <<< 4) ||| low) = twelveBits word := by
  have few : low < 2 ^ 4 := by omega
  rw [← Nat.shiftLeft_add_eq_or_of_lt few, Nat.shiftLeft_eq, UInt8.toNat_ofNat', Nat.shiftRight_eq_div_pow, twelveBits, small]
  congr 1
  omega

theorem unpackPairs_planes (data : List UInt16) (even : data.length % 2 = 0) :
    unpackPairs (data.map fun x => UInt8.ofNat (x.toNat >>> 4)) (packLow data) = data.map twelveBits := by
  induction data using packLow.induct with
  | case1 x y data ih =>
    have rest := ih (by simp only [List.length_cons] at even; omega)
    simp only [packLow, List.map_cons, unpackPairs, rest, nibbles]
    have first : (x.toNat % 16 + y.toNat % 16 * 16) &&& 15 = x.toNat % 16 := by
      rw [show (15 : Nat) = 2 ^ 4 - 1 from rfl, Nat.and_two_pow_sub_one_eq_mod]
      omega
    have second : (x.toNat % 16 + y.toNat % 16 * 16) >>> 4 = y.toNat % 16 := by
      rw [Nat.shiftRight_eq_div_pow]
      omega
    rw [word_restored x first, word_restored y second]
  | case2 data short =>
    match data, short, even with
    | [], _, _ => rfl
    | x :: y :: data, short, _ => exact absurd rfl (short x y data)

theorem pack12_length (data : List UInt16) : (pack12 data).length = data.length + data.length / 2 := by
  rw [pack12, List.length_append, List.length_map, packLow_length]

theorem unpack12_pack12 {data : List UInt16} (even : data.length % 2 = 0) :
    unpack12 (pack12 data) = data.map twelveBits := by
  have count : (pack12 data).length * 2 / 3 = data.length := by
    rw [pack12_length]
    omega
  unfold unpack12
  dsimp only
  rw [count, pack12, List.take_left' (by simp), List.drop_left' (by simp)]
  exact unpackPairs_planes data even

theorem pad12_even (data : List UInt16) : (pad12 data).length % 2 = 0 := by
  unfold pad12
  split
  · rw [List.length_append, List.length_singleton]
    omega
  · omega

/-- The words, and a zero where their number is odd. -/
theorem unpack12_pad12 (data : List UInt16) :
    ∃ padding, unpack12 (pack12 (pad12 data)) = data.map twelveBits ++ padding := by
  rw [unpack12_pack12 (pad12_even data)]
  unfold pad12
  split
  · exact ⟨_, List.map_append⟩
  · exact ⟨[], (List.append_nil _).symm⟩

/-! Zeroes. -/

theorem bits_restored (bits : List Bool) (eight : bits.length = 8) : unpackBits (packBits bits) = bits := by
  match bits, eight with
  | [a, b, c, d, e, f, g, h], _ =>
    revert a b c d e f g h
    decide

theorem packBits_take (bits : List Bool) : packBits (bits.take 8) = packBits bits := by
  have same : ∀ j ∈ List.range 8, (bits.take 8).getD j false = bits.getD j false := by
    intro j inside
    rw [List.getD_eq_getElem?_getD, List.getD_eq_getElem?_getD, List.getElem?_take_of_lt (List.mem_range.mp inside)]
  unfold packBits
  congr 1
  apply List.foldl_ext
  intro sum j inside
  rw [same j inside]

theorem bytes_restored (bits : List Bool) (count : Nat) (inside : 8 * count ≤ bits.length) :
    ((List.range count).map fun i => packBits (bits.drop (8 * i))).flatMap unpackBits = bits.take (8 * count) := by
  induction count with
  | zero => simp
  | succ count ih =>
    have last : ((bits.drop (8 * count)).take 8).length = 8 := by
      rw [List.length_take, List.length_drop]
      omega
    rw [List.range_succ, List.map_append, List.flatMap_append, ih (by omega), List.map_singleton, List.flatMap_singleton,
      ← packBits_take, bits_restored _ last, Nat.mul_succ, List.take_add]

theorem encodeZeroBits_length (prev : Bool) (depth : List UInt16) : (encodeZeroBits prev depth).length = depth.length := by
  induction depth generalizing prev with
  | nil => rfl
  | cons value depth ih => rw [encodeZeroBits, List.length_cons, ih, List.length_cons]

/-- What `DecodeZeroes` writes for a value. -/
def presence (value : UInt16) : UInt16 := if value = 0 then 0 else 1

theorem zeroBits_restored (prev : Bool) (depth : List UInt16) :
    decodeZeroBits prev (encodeZeroBits prev depth) = depth.map presence := by
  induction depth generalizing prev with
  | nil => rfl
  | cons value depth ih =>
    have flipped : (prev ^^ ((value != 0) ^^ prev)) = (value != 0) := by
      cases prev <;> cases value != 0 <;> rfl
    rw [encodeZeroBits, decodeZeroBits, flipped, ih, List.map_cons, presence]
    congr 1
    by_cases zero : value = 0
    · simp [zero]
    · simp [zero]

theorem zeroes_restored {width height : Nat} {depth : List UInt16} (size : depth.length = width * height)
    (bytes : width * height % 8 = 0) : decodeZeroes (encodeZeroes width height depth) = depth.map presence := by
  have length : 8 * (width * height / 8) = (encodeZeroBits false depth).length := by
    rw [encodeZeroBits_length, size]
    omega
  unfold decodeZeroes encodeZeroes
  dsimp only
  rw [← size, List.take_length, size, bytes_restored _ _ (Nat.le_of_eq length), length, List.take_length]
  exact zeroBits_restored false depth

theorem encodeZeroes_length (width height : Nat) (depth : List UInt16) :
    (encodeZeroes width height depth).length = width * height / 8 := by
  simp [encodeZeroes]

end AxbyCore.Proofs.Zdepth
