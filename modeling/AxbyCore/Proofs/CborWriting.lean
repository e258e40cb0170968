import AxbyCore.Serialization.Encode
import AxbyCore.Serialization.Encoding

/-! What the encoder writes. Each call appends its bytes and counts its items when
there is room for all of them, and reports out of memory when there is not. -/

namespace AxbyCore.Serialization.Proofs
open Tinycbor Rfc8949 Endian

abbrev Call := CborEncoder → CborError × CborEncoder

/-- The encoder with so many more items in its buffer. -/
def wrote (encoder : CborEncoder) (written : Bytes) (left : Nat) (items : Nat) (bytes : Bytes) : CborEncoder :=
  { encoder with
    data := .inside (written ++ bytes) (left - bytes.length)
    remaining := encoder.remaining - items }

theorem wrote_wrote (encoder : CborEncoder) (written : Bytes) (left items more : Nat) (bytes others : Bytes) :
    wrote (wrote encoder written left items bytes) (written ++ bytes) (left - bytes.length) more others =
      wrote encoder written left (items + more) (bytes ++ others) := by
  simp [wrote, Nat.sub_sub]

/-- The call writes the bytes of so many items, if there is room for them. -/
structure Writes (call : Call) (items : Nat) (bytes : Bytes) : Prop where
  fits : ∀ encoder written left, encoder.data = .inside written left → bytes.length ≤ left →
    call encoder = (.noError, wrote encoder written left items bytes)
  overflows : ∀ encoder written left, encoder.data = .inside written left → left < bytes.length →
    (call encoder).1 = .outOfMemory

/-- Without a buffer there is no room for anything. -/
def FailsOnNull (call : Call) : Prop := ∀ encoder needed, encoder.data = .past needed → (call encoder).1 = .outOfMemory

/-- A call that goes on with a second one unless the first one failed. -/
def andThen (first second : Call) : Call := fun encoder =>
  let (err, encoder) := first encoder
  if err ≠ .noError then (err, encoder) else second encoder

theorem Writes.andThen {first second : Call} {items more : Nat} {bytes others : Bytes}
    (one : Writes first items bytes) (two : Writes second more others) :
    Writes (andThen first second) (items + more) (bytes ++ others) := by
  refine ⟨?_, ?_⟩
  · intro encoder written left inside enough
    rw [List.length_append] at enough
    have called := one.fits encoder written left inside (by omega)
    have calledNext := two.fits (wrote encoder written left items bytes) _ _ rfl (by omega)
    rw [wrote_wrote] at calledNext
    simp [Proofs.andThen, called, calledNext]
  · intro encoder written left inside short
    rw [List.length_append] at short
    by_cases early : left < bytes.length
    · simp [Proofs.andThen, one.overflows encoder written left inside early]
    · have called := one.fits encoder written left inside (by omega)
      have late := two.overflows (wrote encoder written left items bytes) _ _ rfl (by omega)
      simp [Proofs.andThen, called, late]

/-- Calls are made on an encoder whose counter has been stepped. -/
theorem Writes.counted {call : Call} {items : Nat} {bytes : Bytes} (writes : Writes call items bytes) :
    Writes (fun encoder => call (saturatedDecrement encoder)) (1 + items) bytes := by
  refine ⟨?_, ?_⟩
  · intro encoder written left inside enough
    have called := writes.fits (saturatedDecrement encoder) written left inside enough
    have same : wrote (saturatedDecrement encoder) written left items bytes =
        wrote encoder written left (1 + items) bytes := by
      simp [wrote, saturatedDecrement, Nat.sub_sub]
    rw [same] at called
    exact called
  · intro encoder written left inside short
    exact writes.overflows (saturatedDecrement encoder) written left inside short

theorem appendToBuffer_writes (bytes : Bytes) : Writes (fun encoder => appendToBuffer encoder bytes) 0 bytes := by
  refine ⟨?_, ?_⟩
  · intro encoder written left inside enough
    have room : ¬ left < bytes.length := by omega
    simp [appendToBuffer, inside, room, wrote]
  · intro encoder written left inside short
    simp [appendToBuffer, inside, short]

theorem appendToBuffer_null {bytes : Bytes} (some : 0 < bytes.length) :
    FailsOnNull fun encoder => appendToBuffer encoder bytes := by
  intro encoder needed null
  have missing : 0 < needed + bytes.length := by omega
  simp [appendToBuffer, null, missing]

/-- The bytes that the encoder builds from the end are the shortest head. -/
theorem numberBytes_eq (major : Nat) {ui : Nat} (fits : ui < 2 ^ 64) : numberBytes ui (shifted major) = head major ui := by
  have type : shifted major = 32 * major := by
    unfold shifted
    omega
  unfold numberBytes head shortHead wideHead value8Bit
  rw [type]
  by_cases one : ui < 24
  · rw [if_pos one, if_pos one, Nat.add_comm]
  rw [if_neg one, if_neg one]
  by_cases two : ui < 2 ^ 8
  · have b0 : ¬ ui > 0xff := by omega
    have b1 : ¬ ui > 0xffff := by omega
    have b2 : ¬ ui > 0xffffffff := by omega
    rw [if_pos two, if_neg b0, if_neg b1, if_neg b2]
  rw [if_neg two, if_pos (by omega : ui > 0xff)]
  by_cases three : ui < 2 ^ 16
  · have b1 : ¬ ui > 0xffff := by omega
    have b2 : ¬ ui > 0xffffffff := by omega
    rw [if_pos three, if_neg b1, if_neg b2]
  rw [if_neg three, if_pos (by omega : ui > 0xffff)]
  by_cases four : ui < 2 ^ 32
  · have b2 : ¬ ui > 0xffffffff := by omega
    rw [if_pos four, if_neg b2]
  · rw [if_neg four, if_pos (by omega : ui > 0xffffffff)]

section
variable {ui : Nat}

theorem encodeNumberNoUpdate_writes (major : Nat) (fits : ui < 2 ^ 64) :
    Writes (fun encoder => encodeNumberNoUpdate encoder ui (shifted major)) 0 (head major ui) := by
  unfold encodeNumberNoUpdate
  rw [numberBytes_eq major fits]
  exact appendToBuffer_writes _

theorem encodeNumber_writes (major : Nat) (fits : ui < 2 ^ 64) :
    Writes (fun encoder => encodeNumber encoder ui (shifted major)) 1 (head major ui) :=
  (encodeNumberNoUpdate_writes major fits).counted

theorem encodeNumberNoUpdate_null (major : Nat) (fits : ui < 2 ^ 64) :
    FailsOnNull fun encoder => encodeNumberNoUpdate encoder ui (shifted major) := by
  unfold encodeNumberNoUpdate
  rw [numberBytes_eq major fits]
  exact appendToBuffer_null (head_pos major ui)

theorem encodeNumber_null (major : Nat) (fits : ui < 2 ^ 64) :
    FailsOnNull fun encoder => encodeNumber encoder ui (shifted major) :=
  fun encoder needed null => encodeNumberNoUpdate_null major fits (saturatedDecrement encoder) needed null

end

/-- The sign is spread over all bits. -/
theorem sshiftRight_sign (value : BitVec 64) : value.sshiftRight 63 = if value.msb then BitVec.allOnes 64 else 0#64 := by
  apply BitVec.eq_of_toNat_eq
  have small := value.isLt
  cases sign : value.msb with
  | true =>
    have high : 2 ^ 63 ≤ value.toNat := by
      have := BitVec.msb_eq_decide value
      rw [sign] at this
      simpa using this.symm
    rw [BitVec.toNat_sshiftRight_of_msb_true sign, Nat.shiftRight_eq_div_pow]
    have none : (2 ^ 64 - 1 - value.toNat) / 2 ^ 63 = 0 := by omega
    rw [none]
    rfl
  | false =>
    have low : value.toNat < 2 ^ 63 := by
      have := BitVec.msb_eq_decide value
      rw [sign] at this
      simpa using this.symm
    rw [BitVec.toNat_sshiftRight_of_msb_false sign, Nat.shiftRight_eq_div_pow]
    have none : value.toNat / 2 ^ 63 = 0 := by omega
    rw [none]
    rfl

/-- Extending the sign and complementing gives the major type and the argument. -/
theorem cborEncodeInt_eq (encoder : CborEncoder) (value : BitVec 64) :
    cborEncodeInt encoder value =
      if value.toInt < 0 then encodeNumber encoder (-value.toInt - 1).toNat (shifted 1)
      else encodeNumber encoder value.toInt.toNat (shifted 0) := by
  have small := value.isLt
  have unsigned := BitVec.toInt_eq_msb_cond value
  unfold cborEncodeInt
  rw [sshiftRight_sign]
  cases sign : value.msb with
  | true =>
    rw [sign, if_pos rfl] at unsigned
    have negative : value.toInt < 0 := by omega
    have complement : (BitVec.allOnes 64 ^^^ value).toNat = (-value.toInt - 1).toNat := by
      rw [BitVec.allOnes_xor, BitVec.toNat_not]
      omega
    rw [if_pos rfl, if_pos negative]
    dsimp only
    rw [complement]
    rfl
  | false =>
    rw [sign, if_neg (by decide)] at unsigned
    have positive : ¬ value.toInt < 0 := by omega
    have same : (0#64 ^^^ value).toNat = value.toInt.toNat := by
      rw [BitVec.zero_xor]
      omega
    rw [if_neg (by decide), if_neg positive]
    dsimp only
    rw [same]
    rfl

theorem cborEncodeUint_writes (value : BitVec 64) :
    Writes (fun encoder => cborEncodeUint encoder value) 1 (uintItem value.toNat) :=
  encodeNumber_writes 0 value.isLt

theorem cborEncodeInt_writes (value : BitVec 64) :
    Writes (fun encoder => cborEncodeInt encoder value) 1 (intItem value.toInt) := by
  have low := BitVec.le_toInt value
  have high := BitVec.toInt_lt (x := value)
  have same := funext fun encoder => cborEncodeInt_eq encoder value
  rw [same]
  unfold intItem
  by_cases negative : value.toInt < 0
  · simp only [if_pos negative]
    exact encodeNumber_writes 1 (by omega)
  · simp only [if_neg negative]
    exact encodeNumber_writes 0 (by omega)

theorem cborEncodeBoolean_writes (value : Bool) :
    Writes (fun encoder => cborEncodeBoolean encoder value) 1 (head 7 (value.toNat + 20)) := by
  have bit := Bool.toNat_lt value
  have legal : ¬ (25 ≤ value.toNat + 20 ∧ value.toNat + 20 ≤ 31) := by omega
  have number : Writes (fun encoder => encodeNumber encoder (value.toNat + 20) (shifted 7)) 1 _ :=
    encodeNumber_writes 7 (by omega)
  simp only [cborEncodeBoolean, cborEncodeSimpleValue, if_neg legal]
  exact number

theorem cborEncodeFloat_writes (value : BitVec 32) :
    Writes (fun encoder => cborEncodeFloat encoder value) 1 (wideHead 7 2 value.toNat) :=
  (appendToBuffer_writes _).counted

theorem cborEncodeDouble_writes (value : BitVec 64) :
    Writes (fun encoder => cborEncodeDouble encoder value) 1 (wideHead 7 3 value.toNat) :=
  (appendToBuffer_writes _).counted

/-- A string is its head and its bytes. When there is no room for the head the bytes
are counted, and the call fails all the same. -/
theorem encodeString_writes (major : Nat) {string : Bytes} (fits : string.length < 2 ^ 64) :
    Writes (fun encoder => encodeString encoder string (shifted major)) 1 (head major string.length ++ string) := by
  have number := encodeNumber_writes major fits
  have both := number.andThen (appendToBuffer_writes string)
  refine ⟨?_, ?_⟩
  · intro encoder written left inside enough
    have whole := both.fits encoder written left inside enough
    rw [List.length_append] at enough
    have called := number.fits encoder written left inside (by omega)
    simp only [andThen, called, ne_eq, not_true_eq_false, if_false] at whole
    simpa [encodeString, called] using whole
  · intro encoder written left inside short
    by_cases early : left < (head major string.length).length
    · have missing : 0 < (head major string.length).length - left + string.length := by omega
      simp [encodeString, encodeNumber, encodeNumberNoUpdate, numberBytes_eq major fits, saturatedDecrement,
        appendToBuffer, inside, early, missing]
    · have whole := both.overflows encoder written left inside short
      have called := number.fits encoder written left inside (by omega)
      simp only [andThen, called, ne_eq, not_true_eq_false, if_false] at whole
      simpa [encodeString, called] using whole

theorem cborEncodeInt_null (value : BitVec 64) : FailsOnNull fun encoder => cborEncodeInt encoder value := by
  have low := BitVec.le_toInt value
  have high := BitVec.toInt_lt (x := value)
  have same := funext fun encoder => cborEncodeInt_eq encoder value
  rw [same]
  by_cases negative : value.toInt < 0
  · simp only [if_pos negative]
    exact encodeNumber_null 1 (by omega)
  · simp only [if_neg negative]
    exact encodeNumber_null 0 (by omega)

theorem cborEncodeBoolean_null (value : Bool) : FailsOnNull fun encoder => cborEncodeBoolean encoder value := by
  have bit := Bool.toNat_lt value
  have legal : ¬ (25 ≤ value.toNat + 20 ∧ value.toNat + 20 ≤ 31) := by omega
  have number : FailsOnNull fun encoder => encodeNumber encoder (value.toNat + 20) (shifted 7) :=
    encodeNumber_null 7 (by omega)
  simp only [cborEncodeBoolean, cborEncodeSimpleValue, if_neg legal]
  exact number

theorem encodeString_null (major : Nat) {string : Bytes} (fits : string.length < 2 ^ 64) :
    FailsOnNull fun encoder => encodeString encoder string (shifted major) := by
  intro encoder needed null
  have nonempty := head_pos major string.length
  have missing : 0 < needed + (head major string.length).length := by omega
  have more : 0 < needed + (head major string.length).length + string.length := by omega
  simp [encodeString, encodeNumber, encodeNumberNoUpdate, numberBytes_eq major fits, saturatedDecrement,
    appendToBuffer, null, missing, more]

/-- A container is opened, filled and closed. -/
def inContainer (create : CborEncoder → CborError × CborEncoder × CborEncoder) (fill : Call) : Call := fun encoder =>
  let (err, encoder, container) := create encoder
  if err ≠ .noError then (err, encoder)
  else
    let (err, container) := fill container
    if err ≠ .noError then (err, encoder) else cborEncoderCloseContainer encoder container

section
variable {major length : Nat} {fill : Call} {bytes : Bytes}

theorem createContainer_eq (known : length < cborIndefiniteLength) (encoder : CborEncoder) :
    createContainer encoder length (shifted major) =
      let (err, container) := encodeNumberNoUpdate
        { data := encoder.data, remaining := (if shifted major = shifted mapType then length + length else length) + 1 }
        length (shifted major)
      (err, saturatedDecrement encoder, container) := by
  have definite : length ≠ cborIndefiniteLength := by omega
  simp [createContainer, definite]

/-- A container that is filled with as many items as it was opened for is one item. -/
theorem inContainer_writes (known : length < cborIndefiniteLength)
    (filled : Writes fill (if shifted major = shifted mapType then length + length else length) bytes) :
    Writes (inContainer (fun encoder => createContainer encoder length (shifted major)) fill) 1
      (head major length ++ bytes) := by
  have number : Writes (fun encoder => encodeNumberNoUpdate encoder length (shifted major)) 0 (head major length) :=
    encodeNumberNoUpdate_writes major (by unfold cborIndefiniteLength at known; omega)
  generalize count : (if shifted major = shifted mapType then length + length else length) = items at filled
  have whole := number.andThen filled
  refine ⟨?_, ?_⟩
  · intro encoder written left inside enough
    have opened : (CborEncoder.mk encoder.data (items + 1) false).data = .inside written left := inside
    have done := whole.fits _ written left opened enough
    rw [List.length_append] at enough
    have head := number.fits _ written left opened (by omega)
    simp only [andThen, head, ne_eq, not_true_eq_false, if_false] at done
    simp only [inContainer, createContainer_eq known, count, head, done, ne_eq, not_true_eq_false, if_false]
    simp [cborEncoderCloseContainer, wrote, saturatedDecrement]
  · intro encoder written left inside short
    have opened : (CborEncoder.mk encoder.data (items + 1) false).data = .inside written left := inside
    have done := whole.overflows _ written left opened short
    by_cases early : left < (head major length).length
    · have head := number.overflows _ written left opened early
      simp [inContainer, createContainer_eq known, count, head]
    · have head := number.fits _ written left opened (by omega)
      simp only [andThen, head, ne_eq, not_true_eq_false, if_false] at done
      simp [inContainer, createContainer_eq known, count, head, done]

theorem inContainer_null (known : length < cborIndefiniteLength) :
    FailsOnNull (inContainer (fun encoder => createContainer encoder length (shifted major)) fill) := by
  intro encoder needed null
  have fails : FailsOnNull fun encoder => encodeNumberNoUpdate encoder length (shifted major) :=
    encodeNumberNoUpdate_null major (by unfold cborIndefiniteLength at known; omega)
  generalize count : (if shifted major = shifted mapType then length + length else length) = items
  have failed := fails (CborEncoder.mk encoder.data (items + 1) false) needed null
  dsimp only at failed
  simp [inContainer, createContainer_eq known, count, failed]

end

end AxbyCore.Serialization.Proofs
