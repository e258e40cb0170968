import AxbyCore.Zdepth.Image
import Mathlib.Tactic.Common

/-! The arithmetic of a single pixel: its quantisation, and the zig-zag code of its
difference to a prediction. -/

namespace AxbyCore.Proofs.Zdepth
open AxbyCore.Zdepth

/-! Quantisation. -/

/-- The quantised depth as a number. -/
def quantized (depth : Nat) : Nat :=
  if depth ≤ 200 then 0
  else if depth < 750 then depth - 200
  else if depth < 1500 then 550 + (depth - 750) / 2
  else if depth < 3000 then 925 + (depth - 1500) / 4
  else if depth < 6000 then 1300 + (depth - 3000) / 8
  else if depth < 11840 then 1675 + (depth - 6000) / 16
  else 0

def dequantized (quantized : Nat) : Nat :=
  if quantized = 0 then 0
  else if quantized < 550 then quantized + 200
  else if quantized < 925 then 750 + (quantized - 550) * 2
  else if quantized < 1300 then 1500 + (quantized - 925) * 4
  else if quantized < 1675 then 3000 + (quantized - 1300) * 8
  else if quantized < 2040 then 6000 + (quantized - 1675) * 16
  else 0

theorem toNat_quantize (depth : UInt16) : (azureKinectQuantizeDepth depth).toNat = quantized depth.toNat := by
  have small := depth.toNat_lt
  unfold azureKinectQuantizeDepth quantized
  simp only [UInt16.le_iff_toNat_le, UInt16.lt_iff_toNat_lt, UInt16.reduceToNat]
  split_ifs with close first second third fourth fifth
  · rfl
  all_goals
    simp only [UInt16.toNat_add, UInt16.toNat_div, UInt16.toNat_sub, UInt16.reduceToNat]
    try omega

theorem toNat_dequantize (depth : UInt16) : (azureKinectDequantizeDepth depth).toNat = dequantized depth.toNat := by
  have small := depth.toNat_lt
  unfold azureKinectDequantizeDepth dequantized
  simp only [← UInt16.toNat_inj, UInt16.lt_iff_toNat_lt, UInt16.reduceToNat]
  split_ifs with close first second third fourth fifth
  · rfl
  all_goals
    simp only [UInt16.toNat_add, UInt16.toNat_mul, UInt16.toNat_sub, UInt16.reduceToNat]
    try omega

theorem quantized_lt (depth : Nat) : quantized depth < 2040 := by
  unfold quantized
  split_ifs <;> omega

theorem quantize_lt (depth : UInt16) : (azureKinectQuantizeDepth depth).toNat < 2040 := by
  rw [toNat_quantize]
  exact quantized_lt depth.toNat

/-- The images that are decoded are quantised without a loss. -/
theorem quantize_dequantize {depth : UInt16} (valid : depth.toNat < 2040) :
    azureKinectQuantizeDepth (azureKinectDequantizeDepth depth) = depth := by
  apply UInt16.toNat_inj.mp
  rw [toNat_quantize, toNat_dequantize]
  generalize meant : dequantized depth.toNat = length
  unfold dequantized at meant
  unfold quantized
  split_ifs at meant <;> split_ifs <;> omega

/-- A value that stands for a depth is not confused with any other. -/
theorem dequantize_inj {one two : UInt16} (valid : one.toNat < 2040) (present : one ≠ 0)
    (same : azureKinectDequantizeDepth one = azureKinectDequantizeDepth two) : one = two := by
  have numbers := congrArg UInt16.toNat same
  rw [toNat_dequantize, toNat_dequantize] at numbers
  have positive : one.toNat ≠ 0 := fun zero => present (UInt16.toNat_inj.mp zero)
  apply UInt16.toNat_inj.mp
  unfold dequantized at numbers
  split_ifs at numbers <;> omega

/-- The width of the range of depths with the same quantised value. -/
def precision (depth : Nat) : Nat :=
  if depth < 750 then 1 else if depth < 1500 then 2 else if depth < 3000 then 4 else if depth < 6000 then 8 else 16

theorem dequantize_near {depth : UInt16} (far : 200 < depth.toNat) (near : depth.toNat < 11840) :
    (azureKinectDequantizeDepth (azureKinectQuantizeDepth depth)).toNat ≤ depth.toNat ∧
      depth.toNat < (azureKinectDequantizeDepth (azureKinectQuantizeDepth depth)).toNat + precision depth.toNat := by
  rw [toNat_dequantize, toNat_quantize]
  generalize coarse : quantized depth.toNat = value
  unfold quantized at coarse
  unfold dequantized precision
  split_ifs at coarse <;> split_ifs <;> omega

/-! The zig-zag code. -/

theorem zigzag_toNat (delta : BitVec 32) :
    (((delta <<< 1) ^^^ (delta.sshiftRight 31)).toNat : Int) =
      if 0 ≤ delta.toInt then 2 * delta.toInt else -2 * delta.toInt - 1 := by
  have small := delta.isLt
  cases negative : delta.msb with
  | false =>
    have positive := BitVec.msb_eq_false_iff_two_mul_lt.mp negative
    have shifted : delta.sshiftRight 31 = 0#32 := by
      rw [BitVec.sshiftRight_eq_of_msb_false negative]
      apply BitVec.eq_of_toNat_eq
      rw [BitVec.toNat_ushiftRight, Nat.shiftRight_eq_div_pow]
      simp
      omega
    rw [shifted, BitVec.xor_zero, BitVec.toNat_shiftLeft, Nat.shiftLeft_eq, BitVec.toInt_eq_toNat_of_msb negative]
    rw [if_pos (by omega)]
    omega
  | true =>
    have large := BitVec.msb_eq_true_iff_two_mul_ge.mp negative
    have shifted : delta.sshiftRight 31 = BitVec.allOnes 32 := by
      rw [BitVec.sshiftRight_eq_of_msb_true negative]
      apply BitVec.eq_of_toNat_eq
      rw [BitVec.toNat_not, BitVec.toNat_ushiftRight, BitVec.toNat_not, Nat.shiftRight_eq_div_pow]
      simp
      omega
    rw [shifted, BitVec.xor_allOnes, BitVec.toNat_not, BitVec.toNat_shiftLeft, Nat.shiftLeft_eq, BitVec.toInt_eq_toNat_cond]
    rw [if_neg (by omega), if_neg (by omega)]
    omega

theorem unzigzag_toInt (zigzag : BitVec 32) :
    ((zigzag >>> 1) ^^^ -(zigzag &&& 1)).toInt =
      if zigzag.toNat % 2 = 0 then (zigzag.toNat / 2 : Int) else -(zigzag.toNat / 2 : Int) - 1 := by
  have small := zigzag.isLt
  have lowest : zigzag &&& 1 = BitVec.ofNat 32 (zigzag.toNat % 2) := by
    apply BitVec.eq_of_toNat_eq
    rw [BitVec.toNat_and, show (1 : BitVec 32).toNat = 1 from rfl, Nat.and_one_is_mod, BitVec.toNat_ofNat]
    omega
  have half : (zigzag >>> 1).toNat = zigzag.toNat / 2 := by
    rw [BitVec.toNat_ushiftRight, Nat.shiftRight_eq_div_pow]
  rw [lowest]
  cases Nat.mod_two_eq_zero_or_one zigzag.toNat with
  | inl even =>
    rw [even, if_pos rfl, show -BitVec.ofNat 32 0 = 0#32 from rfl, BitVec.xor_zero, BitVec.toInt_eq_toNat_cond, half]
    rw [if_pos (by omega)]
    omega
  | inr odd =>
    rw [odd, if_neg (by decide), show -BitVec.ofNat 32 1 = BitVec.allOnes 32 from rfl, BitVec.xor_allOnes,
      BitVec.toInt_eq_toNat_cond, BitVec.toNat_not, half]
    rw [if_neg (by omega)]
    omega

/-- The values around a pixel of a quantised image. -/
structure Valid (around : Neighbours) : Prop where
  left0 : around.left0.toNat < 2040
  left1 : around.left1.toNat < 2040
  up0 : around.up0.toNat < 2040
  up1 : around.up1.toNat < 2040
  prev0 : around.prev0.toNat < 2040

/-- A trend may lead out of the range of the values. -/
theorem predict_bounds {around : Neighbours} (valid : Valid around) (predictor : Nat) :
    -2040 < around.predict predictor ∧ around.predict predictor < 4080 := by
  obtain ⟨left0, left1, up0, up1, prev0⟩ := valid
  unfold Neighbours.predict
  split <;> simp only [pixelInt, predictUp, predictLeft, predictUpTrend, predictLeftTrend, predictAverage, predictPrevFrame,
    predictLarger] <;> split_ifs <;> omega

/-- What a word of 12 bits keeps. -/
def twelveBits (zigzag : UInt16) : UInt16 := UInt16.ofNat (zigzag.toNat % 4096)

theorem toNat_ofInt (value : Int) : ((UInt16.ofInt value).toNat : Int) = value % 65536 := by
  have small := Int.emod_lt_of_pos value (by decide : (0 : Int) < 65536)
  have nonneg := Int.emod_nonneg value (by decide : (65536 : Int) ≠ 0)
  rw [UInt16.ofInt, UInt16.toNat_ofNat']
  omega

theorem applyPrediction_toNat (value : UInt16) {prediction : Int} (above : -2040 < prediction) (below : prediction < 4080) :
    ((applyPrediction (pixelInt value) prediction).toNat : Int) =
      if 0 ≤ (value.toNat : Int) - prediction then 2 * ((value.toNat : Int) - prediction)
      else -2 * ((value.toNat : Int) - prediction) - 1 := by
  have small := value.toNat_lt
  have delta : (BitVec.ofInt 32 (pixelInt value - prediction)).toInt = pixelInt value - prediction := by
    unfold pixelInt
    rw [BitVec.toInt_ofInt]
    exact Int.bmod_eq_of_le (by omega) (by omega)
  have code := zigzag_toNat (BitVec.ofInt 32 (pixelInt value - prediction))
  rw [delta] at code
  exact code

/-- A difference is restored from 12 bits if and only if its code has no more. -/
theorem restored_iff {value : UInt16} {prediction : Int} (valid : value.toNat < 2040) (above : -2040 < prediction)
    (below : prediction < 4080) :
    UInt16.ofInt (undoPrediction (BitVec.ofNat 32
        (twelveBits (UInt16.ofNat (applyPrediction (pixelInt value) prediction).toNat)).toNat) prediction) = value ↔
      (UInt16.ofNat (applyPrediction (pixelInt value) prediction).toNat).toNat < 4096 := by
  have code := applyPrediction_toNat value above below
  generalize (applyPrediction (pixelInt value) prediction).toNat = zigzag at *
  have few : zigzag < 65536 := by split_ifs at code <;> omega
  have sent : (twelveBits (UInt16.ofNat zigzag)).toNat = zigzag % 4096 := by
    unfold twelveBits
    rw [UInt16.toNat_ofNat', UInt16.toNat_ofNat']
    omega
  rw [UInt16.toNat_ofNat', Nat.mod_eq_of_lt few]
  rw [sent, undoPrediction, ← UInt16.toNat_inj, ← Int.natCast_inj, toNat_ofInt, unzigzag_toInt, BitVec.toNat_ofNat]
  rw [Nat.mod_eq_of_lt (show zigzag % 4096 < 2 ^ 32 by omega)]
  split_ifs at code ⊢ <;> omega

/-! Depths below 1900 millimetres. -/

/-- The quantised value of a depth below 1900 millimetres. -/
def nearest : Nat := 1024

/-- Values around a pixel with no greater depths than that. -/
structure Near (around : Neighbours) : Prop where
  left0 : around.left0.toNat ≤ nearest
  left1 : around.left1.toNat ≤ nearest
  up0 : around.up0.toNat ≤ nearest
  up1 : around.up1.toNat ≤ nearest
  prev0 : around.prev0.toNat ≤ nearest

theorem quantize_near {depth : UInt16} (near : depth.toNat < 1900) :
    (azureKinectQuantizeDepth depth).toNat ≤ nearest := by
  rw [toNat_quantize]
  unfold quantized nearest
  split_ifs <;> omega

theorem predict_near {around : Neighbours} (near : Near around) (predictor : Nat) :
    -1023 < around.predict predictor ∧ around.predict predictor < 2048 := by
  obtain ⟨left0, left1, up0, up1, prev0⟩ := near
  unfold nearest at *
  unfold Neighbours.predict
  split <;> simp only [pixelInt, predictUp, predictLeft, predictUpTrend, predictLeftTrend, predictAverage, predictPrevFrame,
    predictLarger] <;> split_ifs <;> omega

/-- The code of a near depth has room in 12 bits. -/
theorem code_near {value : UInt16} {prediction : Int} (present : value ≠ 0) (near : value.toNat ≤ nearest)
    (above : -1023 < prediction) (below : prediction < 2048) :
    (UInt16.ofNat (applyPrediction (pixelInt value) prediction).toNat).toNat < 4096 := by
  have positive : value.toNat ≠ 0 := fun zero => present (UInt16.toNat_inj.mp zero)
  have code := applyPrediction_toNat value (by omega : -2040 < prediction) (by omega)
  unfold nearest at near
  rw [UInt16.toNat_ofNat']
  split_ifs at code <;> omega

end AxbyCore.Proofs.Zdepth
