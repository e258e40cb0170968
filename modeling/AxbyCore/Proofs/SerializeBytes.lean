import AxbyCore.Proofs.CborWriting

/-! The encoder of every type writes the encoding of its values. -/

namespace AxbyCore.Serialization.Proofs
open Tinycbor Rfc8949 Endian

theorem encodeElements_writes {α : Type} {encode : Encode α} {item : α → Bytes} {items : List α}
    (each : ∀ elem ∈ items, Writes (fun encoder => encode encoder elem) 1 (item elem)) :
    Writes (fun encoder => encodeElements encode encoder items) items.length (items.flatMap item) := by
  induction items with
  | nil =>
    refine ⟨?_, ?_⟩
    · intro encoder written left inside _
      simp [encodeElements, wrote, ← inside]
    · intro encoder written left _ short
      simp at short
  | cons elem rest ih =>
    have first := each elem (by simp)
    have others := ih fun elem member => each elem (by simp [member])
    have both := first.andThen others
    rw [List.length_cons, Nat.add_comm, List.flatMap_cons]
    exact both

theorem encodeRange_writes {α : Type} {encode : Encode α} {item : α → Bytes} {items : List α}
    (each : ∀ elem ∈ items, Writes (fun encoder => encode encoder elem) 1 (item elem))
    (known : items.length < cborIndefiniteLength) :
    Writes (fun encoder => encodeRange encode encoder items) 1 (head 4 items.length ++ items.flatMap item) := by
  have filled : Writes (fun encoder => encodeElements encode encoder items)
      (if shifted 4 = shifted mapType then items.length + items.length else items.length) (items.flatMap item) :=
    encodeElements_writes each
  exact inContainer_writes known filled

theorem encodeClass_eq {α : Type} {names : List Bytes} {encode : Encode α} {value : α} (short : names.length < 2 ^ 31) :
    (fun encoder => encodeClass names encode encoder value) =
      inContainer (fun encoder => createContainer encoder names.length (shifted 5)) (fun encoder => encode encoder value) := by
  have large : ¬ (names.length ≠ cborIndefiniteLength ∧ names.length > (2 ^ 64 - 1) / 2) := by omega
  funext encoder
  simp only [encodeClass, cborEncoderCreateMap, if_neg large]
  rfl

theorem encodeClass_writes {α : Type} {names : List Bytes} {encode : Encode α} {value : α} {bytes : Bytes}
    (short : names.length < 2 ^ 31) (fields : Writes (fun encoder => encode encoder value) (2 * names.length) bytes) :
    Writes (fun encoder => encodeClass names encode encoder value) 1 (head 5 names.length ++ bytes) := by
  have known : names.length < cborIndefiniteLength := by
    unfold cborIndefiniteLength
    omega
  have filled : Writes (fun encoder => encode encoder value)
      (if shifted 5 = shifted mapType then names.length + names.length else names.length) bytes := by
    rw [Nat.two_mul] at fields
    exact fields
  rw [encodeClass_eq short]
  exact inContainer_writes known filled

theorem encodeField_writes {α : Type} {name : Bytes} {encode : Encode α} {value : α} {bytes : Bytes}
    (fits : name.length < 2 ^ 64) (writes : Writes (fun encoder => encode encoder value) 1 bytes) :
    Writes (fun encoder => encodeField name encode encoder value) 2 (textString name ++ bytes) :=
  (encodeString_writes 3 fits).andThen writes

theorem Width.bits_le (width : Width) : width.bits ≤ 64 := by cases width <;> decide

theorem encode_uint_writes {width : Width} (value : BitVec width.bits) :
    Writes (fun encoder => cborEncodeUint encoder (value.setWidth 64)) 1 (uintItem value.toNat) := by
  have writes := cborEncodeUint_writes (value.setWidth 64)
  rwa [BitVec.toNat_setWidth_of_le (Width.bits_le width)] at writes

theorem encode_sint_writes {width : Width} (value : BitVec width.bits) :
    Writes (fun encoder => cborEncodeInt encoder (value.signExtend 64)) 1 (intItem value.toInt) := by
  have writes := cborEncodeInt_writes (value.signExtend 64)
  rwa [BitVec.toInt_signExtend_of_le (Width.bits_le width)] at writes

section
variable {limit size : Nat} {elem : Ty}

theorem fits_array_span {value : (Ty.array elem size).denote} {bytes} (span : asSpan (.array elem size) = some bytes)
    (fits : Fits limit (.array elem size) value) : (bytes value).length < 2 ^ 64 := by
  simpa only [Fits, span] using fits

theorem fits_array {value : (Ty.array elem size).denote} (span : asSpan (.array elem size) = none)
    (fits : Fits limit (.array elem size) value) : value.val.length < limit ∧ ∀ item ∈ value.val, Fits limit elem item := by
  rw [value.property]
  simpa only [Fits, span] using fits

theorem fits_vector_span {value : (Ty.vector elem).denote} {bytes} (span : asSpan (.vector elem) = some bytes)
    (fits : Fits limit (.vector elem) value) : (bytes value).length < 2 ^ 64 := by
  simpa only [Fits, span] using fits

theorem fits_vector {value : List elem.denote} (span : asSpan (.vector elem) = none)
    (fits : Fits limit (.vector elem) value) : value.length < limit ∧ ∀ item ∈ value, Fits limit elem item := by
  simpa only [Fits, span] using fits

end

/-- A range is encoded by the loop exactly where it is no span of bytes. -/
theorem encodeLeaf_range {type : Ty} (overload : encodeOverload type = none) (notEnum : enumName type = none)
    (notText : asStringView type = none) :
    encodeLeaf type = (asSpan type).map fun bytes encoder value => cborEncodeByteString encoder (bytes value) := by
  rw [encodeLeaf, overload, notEnum, notText]
  cases asSpan type with
  | none => rfl
  | some bytes => rfl

theorem encodes_array {elem : Ty} {size : Nat} (none : asSpan (.array elem size) = none)
    (compiles : encodes (.array elem size) = true) : encodes elem = true := by
  rw [encodes, encodeLeaf_range rfl rfl rfl, none] at compiles
  exact compiles

theorem encodes_vector {elem : Ty} (none : asSpan (.vector elem) = none) (compiles : encodes (.vector elem) = true) :
    encodes elem = true := by
  rw [encodes, encodeLeaf_range rfl rfl rfl, none] at compiles
  exact compiles

theorem fieldsEncode_cons {name : Bytes} {type : Ty} {rest : Fields} :
    fieldsEncode (.cons name type rest) = true ↔ encodes type = true ∧ fieldsEncode rest = true := by
  rw [fieldsEncode, Bool.and_eq_true]

mutual

/-- The encoder of a type writes one item, the encoding of the value. -/
theorem encode_writes {limit : Nat} (counted : limit ≤ cborIndefiniteLength) : (type : Ty) → encodes type = true →
    type.Legal → (value : type.denote) → Fits limit type value →
    Writes (fun encoder => encode type encoder value) 1 (encoding type value)
  | .bool, _, _, value, _ => cborEncodeBoolean_writes value
  | .uint _, _, _, value, _ => encode_uint_writes value
  | .sint _, _, _, value, _ => encode_sint_writes value
  | .float, _, _, value, _ => cborEncodeFloat_writes value
  | .double, _, _, value, _ => cborEncodeDouble_writes value
  | .byte, compiles, _, _, _ => by
    simp [encodes, encodeLeaf, encodeOverload, enumName, asSpan, asStringView] at compiles
  | .string, _, _, text, fits => encodeString_writes 3 fits
  | .stringView, _, _, text, fits => encodeString_writes 3 fits
  | .smallString capacity, _, _, text, fits => encodeString_writes 3 fits
  | .byteSpan, _, _, bytes, fits => encodeString_writes 2 fits
  | .uint8Span, _, _, bytes, fits => encodeString_writes 2 fits
  | .enumeration enumerators, _, legal, value, _ =>
    encodeString_writes 3 (legal (enumerators.names.get value) (List.get_mem _ _)).2
  | .array elem size, compiles, legal, value, fits => by
    cases span : asSpan (.array elem size) with
    | some bytes =>
      have small := fits_array_span span fits
      have string := encodeString_writes 2 small
      rw [encode, encodeLeaf_range rfl rfl rfl, encoding, span]
      exact string
    | none =>
      have inner := encodes_array span compiles
      have limits := fits_array span fits
      have known : value.val.length < cborIndefiniteLength := Nat.lt_of_lt_of_le limits.1 counted
      rw [encode, encodeLeaf_range rfl rfl rfl, encoding, span]
      exact encodeRange_writes (fun item member => encode_writes counted elem inner legal item (limits.2 item member)) known
  | .vector elem, compiles, legal, value, fits => by
    cases span : asSpan (.vector elem) with
    | some bytes =>
      have small := fits_vector_span span fits
      have string := encodeString_writes 2 small
      rw [encode, encodeLeaf_range rfl rfl rfl, encoding, span]
      exact string
    | none =>
      have inner := encodes_vector span compiles
      have limits := fits_vector span fits
      have known : List.length value < cborIndefiniteLength := Nat.lt_of_lt_of_le limits.1 counted
      rw [encode, encodeLeaf_range rfl rfl rfl, encoding, span]
      exact encodeRange_writes (fun item member => encode_writes counted elem inner legal item (limits.2 item member)) known
  | .struct fields, compiles, legal, value, fits =>
    encodeClass_writes legal.2.1 (encodeFields_writes counted fields compiles legal.2.2 value fits)

theorem encodeFields_writes {limit : Nat} (counted : limit ≤ cborIndefiniteLength) : (fields : Fields) →
    fieldsEncode fields = true → fields.Legal → (value : fields.denote) → FieldsFit limit fields value →
    Writes (fun encoder => encodeFields fields encoder value) (2 * fields.names.length) (fieldsEncoding fields value)
  | .nil, _, _, _, _ => by
    refine ⟨?_, ?_⟩
    · intro encoder written left inside _
      simp [encodeFields, fieldsEncoding, wrote, Fields.names, ← inside]
    · intro encoder written left _ short
      simp [fieldsEncoding] at short
  | .cons name type rest, compiles, legal, value, fits => by
    have both := fieldsEncode_cons.mp compiles
    have first := encodeField_writes legal.1.2 (encode_writes counted type both.1 legal.2.1 value.1 fits.1)
    have others := encodeFields_writes counted rest both.2 legal.2.2 value.2 fits.2
    have whole := first.andThen others
    have count : 2 * (Fields.cons name type rest).names.length = 2 + 2 * rest.names.length := by
      simp only [Fields.names, List.length_cons]
      omega
    rw [count]
    exact whole

end

theorem headed_pos (major argument : Nat) (bytes : Bytes) : 0 < (head major argument ++ bytes).length := by
  rw [List.length_append]
  exact Nat.add_pos_left (head_pos major argument) _

theorem encodeRange_null {α : Type} {encode : Encode α} {items : List α} (known : items.length < cborIndefiniteLength) :
    FailsOnNull fun encoder => encodeRange encode encoder items := by
  have opened : (fun encoder => encodeRange encode encoder items) =
      inContainer (fun encoder => createContainer encoder items.length (shifted 4))
        (fun encoder => encodeElements encode encoder items) := rfl
  rw [opened]
  exact inContainer_null known

/-- Without a buffer every encoder runs out of memory at its first byte. -/
theorem encode_null {limit : Nat} (counted : limit ≤ cborIndefiniteLength) : (type : Ty) → encodes type = true →
    type.Legal → (value : type.denote) → Fits limit type value → FailsOnNull fun encoder => encode type encoder value
  | .bool, _, _, value, _ => cborEncodeBoolean_null value
  | .uint _, _, _, value, _ => encodeNumber_null 0 (BitVec.isLt _)
  | .sint _, _, _, value, _ => cborEncodeInt_null _
  | .float, _, _, value, _ => fun encoder needed null =>
    appendToBuffer_null (by simp) (saturatedDecrement encoder) needed null
  | .double, _, _, value, _ => fun encoder needed null =>
    appendToBuffer_null (by simp) (saturatedDecrement encoder) needed null
  | .byte, compiles, _, _, _ => by cases compiles
  | .string, _, _, _, fits => encodeString_null 3 fits
  | .stringView, _, _, _, fits => encodeString_null 3 fits
  | .smallString _, _, _, _, fits => encodeString_null 3 fits
  | .byteSpan, _, _, _, fits => encodeString_null 2 fits
  | .uint8Span, _, _, _, fits => encodeString_null 2 fits
  | .enumeration enumerators, _, legal, value, _ => encodeString_null 3 (legal _ (List.get_mem _ value)).2
  | .array elem size, _, _, value, fits => by
    cases span : asSpan (.array elem size) with
    | some bytes =>
      have small := fits_array_span span fits
      rw [encode, encodeLeaf_range rfl rfl rfl, span]
      exact encodeString_null 2 small
    | none =>
      have limits := fits_array span fits
      have known : value.val.length < cborIndefiniteLength := Nat.lt_of_lt_of_le limits.1 counted
      rw [encode, encodeLeaf_range rfl rfl rfl, span]
      exact encodeRange_null known
  | .vector elem, _, _, value, fits => by
    cases span : asSpan (.vector elem) with
    | some bytes =>
      have small := fits_vector_span span fits
      rw [encode, encodeLeaf_range rfl rfl rfl, span]
      exact encodeString_null 2 small
    | none =>
      have limits := fits_vector span fits
      have known : List.length value < cborIndefiniteLength := Nat.lt_of_lt_of_le limits.1 counted
      rw [encode, encodeLeaf_range rfl rfl rfl, span]
      exact encodeRange_null known
  | .struct fields, _, legal, value, _ => by
    have short := legal.2.1
    have known : fields.names.length < cborIndefiniteLength := by
      unfold cborIndefiniteLength
      omega
    have opened : (fun encoder => encode (.struct fields) encoder value) =
        inContainer (fun encoder => createContainer encoder fields.names.length (shifted 5))
          (fun encoder => encodeFields fields encoder value) := encodeClass_eq short
    rw [opened]
    exact inContainer_null known

/-- An encoding begins with a head. -/
theorem encoding_pos : (type : Ty) → encodes type = true → (value : type.denote) → 0 < (encoding type value).length
  | .bool, _, _ => head_pos ..
  | .uint _, _, _ => head_pos ..
  | .sint _, _, value => by
    rw [encoding, intItem]
    split
    · exact head_pos ..
    · exact head_pos ..
  | .float, _, _ => Nat.succ_pos _
  | .double, _, _ => Nat.succ_pos _
  | .byte, compiles, _ => by cases compiles
  | .string, _, _ => headed_pos ..
  | .stringView, _, _ => headed_pos ..
  | .smallString _, _, _ => headed_pos ..
  | .byteSpan, _, _ => headed_pos ..
  | .uint8Span, _, _ => headed_pos ..
  | .enumeration _, _, _ => headed_pos ..
  | .array _ _, _, _ => by
    rw [encoding]
    split
    · exact headed_pos ..
    · exact headed_pos ..
  | .vector _, _, _ => by
    rw [encoding]
    split
    · exact headed_pos ..
    · exact headed_pos ..
  | .struct _, _, _ => headed_pos ..

end AxbyCore.Serialization.Proofs
