import AxbyCore.Proofs.CborLookup
import AxbyCore.Serialization.Decode
import AxbyCore.Serialization.Encoding

/-! The decoders of numbers, strings and bytes read back what is encoded. -/

namespace AxbyCore.Serialization.Proofs
open Tinycbor Tinycbor.Proofs Rfc8949

theorem assertThat_true : assertThat true = .ok () := rfl

theorem decodeWith_ok {α β : Type} {getter : CborValue → Parse α} {convert : α → β} {it : CborValue} {value : α}
    (got : getter it = .ok value) (out : β) : decodeWith getter convert it out = some (.noError, convert value) := by
  rw [decodeWith, got]
  rfl

section
variable {width : Width}

theorem Width.two_pow_le (width : Width) : 2 ^ width.bits ≤ 2 ^ 64 :=
  Nat.pow_le_pow_right (by decide) (by cases width <;> decide)

theorem setWidth_uint (value : BitVec width.bits) : (BitVec.ofNat 64 value.toNat).setWidth width.bits = value := by
  apply BitVec.eq_of_toNat_eq
  have small := value.isLt
  have le := Width.two_pow_le width
  have exact_ : value.toNat % 2 ^ 64 = value.toNat := Nat.mod_eq_of_lt (by omega)
  rw [BitVec.toNat_setWidth, BitVec.toNat_ofNat, exact_, Nat.mod_eq_of_lt small]

theorem setWidth_signExtend (value : BitVec width.bits) : (value.signExtend 64).setWidth width.bits = value := by
  apply BitVec.eq_of_getLsbD_eq
  intro i inside
  have le : width.bits ≤ 64 := by cases width <;> decide
  have wide : i < 64 := by omega
  rw [BitVec.getLsbD_setWidth, BitVec.getLsbD_signExtend, if_pos inside]
  simp only [inside, wide, decide_true, Bool.true_and]

/-- A negative argument is complemented back into the value. -/
theorem complement_argument (value : BitVec 64) (negative : value.toInt < 0) :
    -BitVec.ofNat 64 (-value.toInt - 1).toNat - 1 = value := by
  have small := value.isLt
  have signed := BitVec.toInt_eq_toNat_cond value
  apply BitVec.eq_of_toNat_eq
  rw [BitVec.toNat_sub, BitVec.toNat_neg, BitVec.toNat_ofNat]
  have one : (1 : BitVec 64).toNat = 1 := rfl
  rw [one]
  split at signed <;> omega

theorem ofNat_argument (value : BitVec 64) (positive : ¬ value.toInt < 0) : BitVec.ofNat 64 value.toInt.toNat = value := by
  have small := value.isLt
  have signed := BitVec.toInt_eq_toNat_cond value
  apply BitVec.eq_of_toNat_eq
  rw [BitVec.toNat_ofNat]
  split at signed <;> omega

end

section
variable {it : CborValue} {tail : Bytes}

theorem getUint64_head {argument size : Nat} (at_ : AtHead 0 argument size it) : it.getUint64 = .ok (BitVec.ofNat 64 argument) := by
  have unsigned : it.isUnsignedInteger = true := by
    simp [CborValue.isUnsignedInteger, at_.type, at_.negative, majorTypeOf]
  rw [CborValue.getUint64, unsigned, assertThat_true, at_.value]
  rfl

theorem decode_uint {width : Width} (value out : BitVec width.bits) (ready : Ready it)
    (rest : it.rest = uintItem value.toNat ++ tail) :
    decodeWith CborValue.getUint64 (BitVec.setWidth width.bits) it out = some (.noError, value) := by
  have fits := Nat.lt_of_lt_of_le value.isLt (Width.two_pow_le width)
  have at_ := ready.atHead (head_isHead 0 fits) (by decide) rest
  rw [decodeWith_ok (getUint64_head at_), setWidth_uint]

theorem getInt64_head {major argument size : Nat} (kind : major ≤ 1) (at_ : AtHead major argument size it) :
    it.getInt64 = .ok (if major = 1 then -BitVec.ofNat 64 argument - 1 else BitVec.ofNat 64 argument) := by
  have type : (it.type == .integer) = true := by
    rw [at_.type]
    obtain rfl | rfl : major = 0 ∨ major = 1 := by omega
    · rfl
    · rfl
  rw [CborValue.getInt64, type, assertThat_true, at_.value, at_.negative]
  simp only [beq_iff_eq]
  rfl

theorem getInt64_item (value : BitVec 64) (ready : Ready it) (rest : it.rest = intItem value.toInt ++ tail) :
    it.getInt64 = .ok value := by
  have low := BitVec.le_toInt value
  have high := BitVec.toInt_lt (x := value)
  unfold intItem at rest
  by_cases negative : value.toInt < 0
  · rw [if_pos negative] at rest
    rw [getInt64_head (Nat.le_refl 1) (ready.atHead (head_isHead 1 (by omega)) (by decide) rest), if_pos rfl,
      complement_argument value negative]
  · rw [if_neg negative] at rest
    rw [getInt64_head (Nat.zero_le 1) (ready.atHead (head_isHead 0 (by omega)) (by decide) rest), if_neg (by decide),
      ofNat_argument value negative]

theorem decode_sint {width : Width} (value out : BitVec width.bits) (ready : Ready it)
    (rest : it.rest = intItem value.toInt ++ tail) :
    decodeWith CborValue.getInt64 (BitVec.setWidth width.bits) it out = some (.noError, value) := by
  have le : width.bits ≤ 64 := by cases width <;> decide
  rw [← BitVec.toInt_signExtend_of_le le] at rest
  rw [decodeWith_ok (getInt64_item _ ready rest), setWidth_signExtend]

theorem getFloat_item {bits : Nat} (fits : bits < 2 ^ 32) (ready : Ready it) (rest : it.rest = wideHead 7 2 bits ++ tail) :
    it.type = .float ∧ it.getFloat = .ok (BitVec.ofNat 32 bits) := by
  obtain ⟨before, same, parsed⟩ := ready
  rw [same.rest] at rest
  obtain ⟨found, again, type, large, number⟩ := preparse_float fits rest
  obtain rfl := Except.ok.inj (parsed.symm.trans again)
  have float : (it.type == .float) = true := by rw [type]; rfl
  refine ⟨type, ?_⟩
  rw [CborValue.getFloat, float, large, assertThat_true, number]
  rfl

theorem decode_float (target : Target) (value out : BitVec 32) (ready : Ready it)
    (rest : it.rest = wideHead 7 2 value.toNat ++ tail) : decodeFloat target it out = some (.noError, value) := by
  obtain ⟨type, number⟩ := getFloat_item value.isLt ready rest
  have notDouble : it.type ≠ .double := by
    rw [type]
    decide
  rw [decodeFloat, if_neg notDouble, decodeWith_ok number, BitVec.ofNat_toNat, BitVec.setWidth_eq]
  rfl

theorem getDouble_item {bits : Nat} (fits : bits < 2 ^ 64) (ready : Ready it) (rest : it.rest = wideHead 7 3 bits ++ tail) :
    it.type = .double ∧ it.getDouble = .ok (BitVec.ofNat 64 bits) := by
  obtain ⟨before, same, parsed⟩ := ready
  rw [same.rest] at rest
  obtain ⟨found, again, type, large, number⟩ := preparse_double fits rest
  obtain rfl := Except.ok.inj (parsed.symm.trans again)
  have double : (it.type == .double) = true := by rw [type]; rfl
  refine ⟨type, ?_⟩
  rw [CborValue.getDouble, double, large, assertThat_true, number]
  rfl

theorem decode_double (value out : BitVec 64) (ready : Ready it) (rest : it.rest = wideHead 7 3 value.toNat ++ tail) :
    decodeWith CborValue.getDouble id it out = some (.noError, value) := by
  rw [decodeWith_ok (getDouble_item value.isLt ready rest).2, BitVec.ofNat_toNat, BitVec.setWidth_eq]
  rfl

end

/-! Strings. -/

section
variable {major : Nat} {content bytes tail : Bytes} {it : CborValue}

theorem getStringLength_string (kind : major = 2 ∨ major = 3) (at_ : AtHead major content.length bytes.length it) :
    it.getStringLength = .ok content.length := by
  have isString := isString_of_type at_.type kind
  rw [CborValue.getStringLength, isString, assertThat_true, at_.value, CborValue.isLengthKnown, at_.known]
  rfl

/-- The extents of a string are those of its only chunk. -/
theorem decodeExtents_string (isKind : CborValue → Bool) (ready : Ready it) (kind : major = 2 ∨ major = 3)
    (isHead : Head major content.length bytes) (rest : it.rest = bytes ++ content ++ tail) (right : isKind it = true)
    (out : Bytes) : decodeExtents isKind it out = some (.noError, content) := by
  have at_ := ready.atHead isHead (by omega) (by rw [rest, List.append_assoc])
  have string := ready.atString kind isHead rest
  have isString : (it.isTextString || it.isByteString) = true := by
    rw [Bool.or_comm]
    exact isString_of_type at_.type kind
  rw [decodeExtents, getStringLength_string kind at_]
  simp [afterParse, isString, at_.iterating, right, assertThat_true, getStringChunk_string string, bind, Except.bind]

theorem decode_text (ready : Ready it) (fits : content.length < 2 ^ 64) (rest : it.rest = textString content ++ tail)
    (out : Bytes) : decodeStringView it out = some (.noError, content) := by
  have isHead := head_isHead 3 fits
  have at_ := ready.atHead isHead (by decide) (by rw [rest, textString, List.append_assoc])
  exact decodeExtents_string _ ready (Or.inr rfl) isHead rest (by simp [CborValue.isTextString, at_.type, majorTypeOf]) out

theorem decode_bytes (ready : Ready it) (fits : content.length < 2 ^ 64) (rest : it.rest = byteString content ++ tail)
    (out : Bytes) : decodeSpan it out = some (.noError, content) := by
  have isHead := head_isHead 2 fits
  have at_ := ready.atHead isHead (by decide) (by rw [rest, byteString, List.append_assoc])
  exact decodeExtents_string _ ready (Or.inl rfl) isHead rest (by simp [CborValue.isByteString, at_.type, majorTypeOf]) out

/-- What follows can be parsed, or nothing is counted behind the item. -/
def Continues (it : CborValue) (tail : Bytes) : Prop :=
  ∀ behind, Behind it tail behind → ∃ next, preparseNextValue behind = .ok next

/-- A `std::string` is copied, which also parses what follows. -/
theorem decode_string (ready : Ready it) (fits : content.length < 2 ^ 64) (rest : it.rest = textString content ++ tail)
    (continues : Continues it tail) (out : Bytes) : decodeString it out = some (.noError, content) := by
  have isHead := head_isHead 3 fits
  have at_ := ready.atHead isHead (by decide) (by rw [rest, textString, List.append_assoc])
  have string := ready.atString (Or.inr rfl) isHead rest
  have isText : it.isTextString = true := by simp [CborValue.isTextString, at_.type, majorTypeOf]
  obtain ⟨next, parsed⟩ := continues _ (pastString_behind string)
  have copied : copyString it content.length = .ok (content, next) := by
    rw [copyString_string string (Nat.le_refl _), parsed]
    rfl
  rw [decodeString, getStringLength_string (Or.inr rfl) at_]
  simp [afterParse, isText, assertThat_true, copied, bind, Except.bind]

end

end AxbyCore.Serialization.Proofs
