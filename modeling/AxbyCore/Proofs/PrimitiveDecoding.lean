import AxbyCore.Library.Ieee754
import AxbyCore.Proofs.CborKinds
import AxbyCore.Proofs.DecodeLeaves

/-! Which items the decoders of numbers, strings and spans accept. They check neither the
kind of an item nor whether its value can be represented, so they return an error or the
value of the item for some items only. -/

namespace AxbyCore.Serialization.Proofs
open Tinycbor Tinycbor.Proofs Rfc8949 Ieee754

/-- The item is an integer of that value. -/
def IntegerOf (value : Int) (item : Bytes) : Prop :=
  (0 ≤ value ∧ Head 0 value.toNat item) ∨ (value < 0 ∧ Head 1 (-value - 1).toNat item)

/-- The item is a floating-point number of that value. -/
inductive FloatOf (value : Value) : Bytes → Prop where
  | half {bits} (fits : bits < 2 ^ 16) (same : binary16.value bits = value) : FloatOf value (wideHead 7 1 bits)
  | float {bits} (fits : bits < 2 ^ 32) (same : binary32.value bits = value) : FloatOf value (wideHead 7 2 bits)
  | double {bits} (fits : bits < 2 ^ 64) (same : binary64.value bits = value) : FloatOf value (wideHead 7 3 bits)

/-- The item is of the kind that a destination of the type is for, and has its value. -/
def Represents (item : Bytes) : (type : Ty) → type.denote → Prop
  | .uint _, value => Head 0 value.toNat item
  | .sint _, value => IntegerOf value.toInt item
  | .float, value => FloatOf (binary32.value value.toNat) item
  | .double, value => FloatOf (binary64.value value.toNat) item
  | .string, text => StringOf 3 text item
  | .stringView, text => StringOf 3 text item
  | .byteSpan, bytes => StringOf 2 bytes item
  | .uint8Span, bytes => StringOf 2 bytes item
  | _, _ => False

/-- The decoder returns no error exactly where there is a value to represent, and then the
destination holds that value. -/
def DecodesExactly {α : Type} (represents : α → Prop) (decode : Decode α) (it : CborValue) (out : α) : Prop :=
  ∃ err result, decode it out = some (err, result) ∧ (err = .noError ↔ ∃ value, represents value) ∧
    (err = .noError → represents result)

/-- A string of definite length. -/
def WholeString (major : Nat) (item : Bytes) : Prop :=
  ∃ bytes content, Head major (List.length content) bytes ∧ item = bytes ++ content

/-- A string of indefinite length. -/
def ChunkedString (major : Nat) (item : Bytes) : Prop :=
  ∃ chunks, Chunked major chunks ∧ item = openByte major :: (chunkBytes chunks ++ [breakByte])

/-- A double that is the value of a float. -/
def Narrow (bits : Nat) : Prop := ∃ float : BitVec 32, binary32.value float.toNat = binary64.value bits

/-- The items that a decoder treats as it should: a number in range that is stored the way the
decoder reads it, a string of definite length, or one of the other kind that is in chunks. -/
def Supported (item : Bytes) : Ty → Prop
  | .uint width => ∃ argument, argument < 2 ^ width.bits ∧ Head 0 argument item
  | .sint width => ∃ major argument, major ≤ 1 ∧ argument < 2 ^ (width.bits - 1) ∧ Head major argument item
  | .float => (∃ bits, bits < 2 ^ 32 ∧ item = wideHead 7 2 bits) ∨ ∃ bits, bits < 2 ^ 64 ∧ item = wideHead 7 3 bits ∧ Narrow bits
  | .double => ∃ bits, bits < 2 ^ 64 ∧ item = wideHead 7 3 bits
  | .string => WholeString 3 item ∨ ChunkedString 2 item
  | .stringView => WholeString 3 item ∨ ChunkedString 2 item
  | .byteSpan => WholeString 2 item ∨ ChunkedString 3 item
  | .uint8Span => WholeString 2 item ∨ ChunkedString 3 item
  | _ => False

namespace DecodesExactly

variable {α : Type} {represents : α → Prop} {decode : Decode α} {it : CborValue} {out result : α} {err : CborError}

theorem accepts (decoded : decode it out = some (.noError, result)) (holds : represents result) :
    DecodesExactly represents decode it out :=
  ⟨.noError, result, decoded, ⟨fun _ => ⟨result, holds⟩, fun _ => rfl⟩, fun _ => holds⟩

theorem rejects (decoded : decode it out = some (err, result)) (failed : err ≠ .noError)
    (nothing : ¬ ∃ value, represents value) : DecodesExactly represents decode it out :=
  ⟨err, result, decoded, ⟨fun none => absurd none failed, fun value => absurd value nothing⟩, fun none => absurd none failed⟩

theorem holds (decodes : DecodesExactly represents decode it out) (decoded : decode it out = some (.noError, result)) :
    represents result := by
  obtain ⟨err, value, same, -, holds⟩ := decodes
  rw [decoded] at same
  cases same
  exact holds rfl

theorem nothing (decodes : DecodesExactly represents decode it out) (decoded : decode it out = some (err, result))
    (failed : err ≠ .noError) : ¬ ∃ value, represents value := by
  obtain ⟨err, value, same, exact_, -⟩ := decodes
  rw [decoded] at same
  cases same
  exact fun value => failed (exact_.mpr value)

/-- A decoder that fails an assert treats no item as it should. -/
theorem not_asserts (decodes : DecodesExactly represents decode it out) : decode it out ≠ none := by
  obtain ⟨err, value, same, -⟩ := decodes
  rw [same]
  nofun

end DecodesExactly

theorem decodeWith_asserts {α β : Type} {getter : CborValue → Parse α} {convert : α → β} {it : CborValue}
    (asserts : getter it = .error .assertion) (out : β) : decodeWith getter convert it out = none := by
  rw [decodeWith, asserts]
  rfl

section
variable {limit depth : Nat} {item : Bytes} {it : CborValue}

/-! Integers. -/

theorem uint_exact {width : Width} (wellFormed : WellFormed limit depth item) (placed : Placed item it)
    (out : BitVec width.bits) :
    DecodesExactly (Represents item (.uint width)) (decodeWith CborValue.getUint64 (BitVec.setWidth width.bits)) it out ↔
      Supported item (.uint width) := by
  obtain ⟨ready, tail, rest, -⟩ := placed
  have number : ∀ {argument}, Head 0 argument item →
      decodeWith CborValue.getUint64 (BitVec.setWidth width.bits) it out =
        some (.noError, (BitVec.ofNat 64 argument).setWidth width.bits) :=
    fun isHead => decodeWith_ok (getUint64_head (ready.atHead isHead (by decide) rest)) out
  constructor
  · intro decodes
    have unsigned : it.isUnsignedInteger = true := by
      by_contra other
      rw [Bool.not_eq_true] at other
      apply decodes.not_asserts
      apply decodeWith_asserts
      rw [CborValue.getUint64, other]
      rfl
    obtain ⟨type, positive⟩ : it.type = .integer ∧ it.flags.negativeInteger = false := by
      simpa [CborValue.isUnsignedInteger] using unsigned
    obtain ⟨major, argument, known, isHead⟩ := ready.integerItem wellFormed rest type
    have sign := (ready.atHead isHead (by omega) rest).negative
    rw [positive] at sign
    obtain rfl : major = 0 := by
      obtain rfl | rfl : major = 0 ∨ major = 1 := by omega
      · rfl
      · cases sign
    have held : Head 0 ((BitVec.ofNat 64 argument).setWidth width.bits).toNat item := decodes.holds (number isHead)
    have same := (ready.atHead isHead (by decide) rest).value.symm.trans (ready.atHead held (by decide) rest).value
    exact ⟨argument, by rw [same]; exact BitVec.isLt _, isHead⟩
  · rintro ⟨argument, small, isHead⟩
    apply DecodesExactly.accepts (number isHead)
    have wide := Width.two_pow_le width
    have value : ((BitVec.ofNat 64 argument).setWidth width.bits).toNat = argument := by
      rw [BitVec.toNat_setWidth, BitVec.toNat_ofNat, Nat.mod_eq_of_lt (Nat.lt_of_lt_of_le small wide), Nat.mod_eq_of_lt small]
    change Head 0 ((BitVec.ofNat 64 argument).setWidth width.bits).toNat item
    rw [value]
    exact isHead

/-- The 64 bits of an integer item. -/
def bitsOf (major argument : Nat) : BitVec 64 :=
  if major = 1 then -BitVec.ofNat 64 argument - 1 else BitVec.ofNat 64 argument

theorem bitsOf_toInt {width : Width} {major argument : Nat} (small : argument < 2 ^ (width.bits - 1)) :
    ((bitsOf major argument).setWidth width.bits).toInt = if major = 1 then -(argument : Int) - 1 else argument := by
  have one : (1 : BitVec 64).toNat = 1 := rfl
  unfold bitsOf
  cases width <;> simp only [Width.bits] at small ⊢
  all_goals
    split
    · rw [BitVec.toInt_eq_toNat_cond, BitVec.toNat_setWidth, BitVec.toNat_sub, BitVec.toNat_neg, BitVec.toNat_ofNat, one]
      split <;> omega
    · rw [BitVec.toInt_eq_toNat_cond, BitVec.toNat_setWidth, BitVec.toNat_ofNat]
      split <;> omega

theorem sint_exact {width : Width} (wellFormed : WellFormed limit depth item) (placed : Placed item it)
    (out : BitVec width.bits) :
    DecodesExactly (Represents item (.sint width)) (decodeWith CborValue.getInt64 (BitVec.setWidth width.bits)) it out ↔
      Supported item (.sint width) := by
  obtain ⟨ready, tail, rest, -⟩ := placed
  have number : ∀ {major argument}, major ≤ 1 → Head major argument item →
      decodeWith CborValue.getInt64 (BitVec.setWidth width.bits) it out =
        some (.noError, (bitsOf major argument).setWidth width.bits) :=
    fun kind isHead => decodeWith_ok (getInt64_head kind (ready.atHead isHead (by omega) rest)) out
  constructor
  · intro decodes
    have type : it.type = .integer := by
      by_contra other
      apply decodes.not_asserts
      apply decodeWith_asserts
      rw [CborValue.getInt64, beq_false_of_ne other]
      rfl
    obtain ⟨major, argument, known, isHead⟩ := ready.integerItem wellFormed rest type
    have held : IntegerOf ((bitsOf major argument).setWidth width.bits).toInt item := decodes.holds (number known isHead)
    have low := BitVec.le_toInt ((bitsOf major argument).setWidth width.bits)
    have high : ((bitsOf major argument).setWidth width.bits).toInt < 2 ^ (width.bits - 1) := BitVec.toInt_lt
    have read := (ready.atHead isHead (by omega) rest).value
    refine ⟨major, argument, known, ?_, isHead⟩
    have exact_ : (argument : Int) < 2 ^ (width.bits - 1) := by
      rcases held with ⟨sign, head⟩ | ⟨sign, head⟩
      · have same := read.symm.trans (ready.atHead head (by decide) rest).value
        omega
      · have same := read.symm.trans (ready.atHead head (by decide) rest).value
        omega
    exact_mod_cast exact_
  · rintro ⟨major, argument, kind, small, isHead⟩
    apply DecodesExactly.accepts (number kind isHead)
    change IntegerOf ((bitsOf major argument).setWidth width.bits).toInt item
    rw [bitsOf_toInt small]
    obtain rfl | rfl : major = 0 ∨ major = 1 := by omega
    · exact .inl ⟨Int.natCast_nonneg _, isHead⟩
    · refine .inr ⟨by simp only [if_true]; omega, ?_⟩
      have back : (-(if (1 : Nat) = 1 then -(argument : Int) - 1 else argument) - 1).toNat = argument := by
        simp only [if_true]
        omega
      rw [back]
      exact isHead

/-! Floating-point numbers. -/

theorem wideHead_inj {major more argument other : Nat} (fits : argument < 256 ^ 2 ^ more) (otherFits : other < 256 ^ 2 ^ more)
    (same : wideHead major more argument = wideHead major more other) : argument = other := by
  have bytes := (List.cons.inj same).2
  rw [← Endian.ofBig_big_of_lt fits, bytes, Endian.ofBig_big_of_lt otherFits]

theorem wideHead_more {major more fewer argument other : Nat}
    (same : wideHead major more argument = wideHead major fewer other) : 2 ^ more = 2 ^ fewer := by
  have lengths := congrArg List.length same
  rw [wideHead_length, wideHead_length] at lengths
  exact Nat.succ.inj lengths

/-- The value of a double is that of its 64 bits. -/
theorem FloatOf.of_double {value : Value} {bits : Nat} (fits : bits < 2 ^ 64) (number : FloatOf value (wideHead 7 3 bits)) :
    value = binary64.value bits := by
  generalize same : wideHead 7 3 bits = item at number
  cases number with
  | half => cases wideHead_more same
  | float => cases wideHead_more same
  | double otherFits holds =>
    obtain rfl := wideHead_inj fits otherFits same
    exact holds.symm

theorem double_exact (wellFormed : WellFormed limit depth item) (placed : Placed item it) (out : BitVec 64) :
    DecodesExactly (Represents item .double) (decodeWith CborValue.getDouble id) it out ↔ Supported item .double := by
  obtain ⟨ready, tail, rest, -⟩ := placed
  constructor
  · intro decodes
    have type : it.type = .double := by
      by_contra other
      apply decodes.not_asserts
      apply decodeWith_asserts
      rw [CborValue.getDouble, beq_false_of_ne other]
      rfl
    exact ready.doubleItem wellFormed rest type
  · rintro ⟨bits, fits, rfl⟩
    apply DecodesExactly.accepts (decodeWith_ok (getDouble_item fits ready rest).2 out)
    exact .double fits (by rw [id, BitVec.toNat_ofNat, Nat.mod_eq_of_lt fits])

theorem float_exact {target : Target}
    (converts : ∀ (double : BitVec 64) (float : BitVec 32), binary32.value float.toNat = binary64.value double.toNat →
      binary32.value (target.toFloat double).toNat = binary64.value double.toNat)
    (wellFormed : WellFormed limit depth item) (placed : Placed item it) (out : BitVec 32) :
    DecodesExactly (Represents item .float) (decodeFloat target) it out ↔ Supported item .float := by
  obtain ⟨ready, tail, rest, -⟩ := placed
  have ofDouble : ∀ {bits}, bits < 2 ^ 64 → item = wideHead 7 3 bits →
      decodeFloat target it out = some (.noError, target.toFloat (BitVec.ofNat 64 bits)) := by
    rintro bits fits rfl
    obtain ⟨type, number⟩ := getDouble_item fits ready rest
    rw [decodeFloat, if_pos type, decodeWith_ok number]
  have back : ∀ {bits}, bits < 2 ^ 64 → (BitVec.ofNat 64 bits).toNat = bits := by
    intro bits fits
    rw [BitVec.toNat_ofNat, Nat.mod_eq_of_lt fits]
  constructor
  · intro decodes
    by_cases isDouble : it.type = .double
    · obtain ⟨bits, fits, rfl⟩ := ready.doubleItem wellFormed rest isDouble
      have held : FloatOf (binary32.value (target.toFloat (BitVec.ofNat 64 bits)).toNat) (wideHead 7 3 bits) :=
        decodes.holds (ofDouble fits rfl)
      exact .inr ⟨bits, fits, rfl, _, held.of_double fits⟩
    · have isFloat : it.type = .float := by
        by_contra other
        apply decodes.not_asserts
        rw [decodeFloat, if_neg isDouble]
        apply decodeWith_asserts
        rw [CborValue.getFloat, beq_false_of_ne other]
        rfl
      exact .inl (ready.floatItem wellFormed rest isFloat)
  · rintro (⟨bits, fits, rfl⟩ | ⟨bits, fits, same, float, narrow⟩)
    · obtain ⟨type, number⟩ := getFloat_item fits ready rest
      have decoded : decodeFloat target it out = some (.noError, BitVec.ofNat 32 bits) := by
        rw [decodeFloat, if_neg (by rw [type]; decide), decodeWith_ok number]
        rfl
      apply DecodesExactly.accepts decoded
      exact .float fits (by rw [BitVec.toNat_ofNat, Nat.mod_eq_of_lt fits])
    · apply DecodesExactly.accepts (ofDouble fits same)
      rw [← back fits] at narrow
      have value := converts _ float narrow
      rw [back fits] at value
      rw [same]
      exact .double fits value.symm

/-! Strings. -/

theorem getStringLength_open {major : Nat} (kind : major = 2 ∨ major = 3) (at_ : AtOpen major it) :
    it.getStringLength = failWith .unknownLength := by
  have isString := isString_of_type at_.type kind
  rw [CborValue.getStringLength, isString, assertThat_true, CborValue.isLengthKnown, at_.unknown]
  rfl

/-- What asking for the length of a string tells about the item. -/
theorem string_cases {tail : Bytes} (ready : Ready it) (wellFormed : WellFormed limit depth item)
    (rest : it.rest = item ++ tail) :
    it.getStringLength = .error .assertion ∨ ∃ major, (major = 2 ∨ major = 3) ∧ it.type = majorTypeOf major ∧
      ((WholeString major item ∧ ∃ len, it.getStringLength = .ok len) ∨
        (ChunkedString major item ∧ it.getStringLength = failWith .unknownLength)) := by
  have found : ∀ {major content}, (major = 2 ∨ major = 3) → StringOf major content item →
      (WholeString major item ∧ ∃ len, it.getStringLength = .ok len) ∨
        (ChunkedString major item ∧ it.getStringLength = failWith .unknownLength) := by
    intro major content kind string
    cases string with
    | @whole bytes isHead =>
      have at_ := ready.atHead isHead (by omega) (by rw [rest, List.append_assoc])
      exact .inl ⟨⟨bytes, content, isHead, rfl⟩, _, getStringLength_string kind at_⟩
    | @chunks chunks each same =>
      exact .inr ⟨⟨chunks, each, rfl⟩, getStringLength_open kind (ready.atOpen (by omega) rest)⟩
  have kind := ready.kindOf wellFormed rest
  by_cases isString : it.type = .byteString ∨ it.type = .textString
  · right
    rcases isString with type | type
    · rw [type] at kind ⊢
      cases kind with
      | simple other => simp at other
      | byteString string short => exact ⟨2, .inl rfl, rfl, found (.inl rfl) string⟩
    · rw [type] at kind ⊢
      cases kind with
      | simple other => simp at other
      | textString string short => exact ⟨3, .inr rfl, rfl, found (.inr rfl) string⟩
  · left
    have neither : (it.isByteString || it.isTextString) = false := by
      simpa [CborValue.isByteString, CborValue.isTextString] using isString
    rw [CborValue.getStringLength, neither]
    rfl

/-- A decoder of strings that asks for the length and then asserts the kind. -/
structure DecodesStrings (major : Nat) (item : Bytes) (it : CborValue) (decode : Decode Bytes) : Prop where
  asserts : ∀ out, it.getStringLength = .error .assertion → decode it out = none
  fails : ∀ out, it.getStringLength = failWith .unknownLength → decode it out = some (.unknownLength, out)
  right : ∀ out bytes content, Head major content.length bytes → item = bytes ++ content →
    decode it out = some (.noError, content)
  wrong : ∀ out len, it.getStringLength = .ok len → it.type ≠ majorTypeOf major → decode it out = none

/-- A `std::string` is copied, which also parses what follows. -/
theorem decodeString_strings (placed : Placed item it) : DecodesStrings 3 item it decodeString := by
  constructor
  · intro out nothing
    rw [decodeString, nothing]
    rfl
  · intro out unknown
    rw [decodeString, unknown]
    rfl
  · rintro out bytes content isHead rfl
    obtain ⟨ready, tail, rest, followed⟩ := placed
    have at_ := ready.atHead isHead (by decide) (by rw [rest, List.append_assoc])
    have string := ready.atString (.inr rfl) isHead rest
    have isText : it.isTextString = true := by simp [CborValue.isTextString, at_.type, majorTypeOf]
    obtain ⟨next, parsed⟩ := followed _ (Past.ofString string)
    have copied : copyString it content.length = .ok (content, next) := by
      rw [copyString_string string (Nat.le_refl _), parsed]
      rfl
    rw [decodeString, getStringLength_string (.inr rfl) at_]
    simp [afterParse, isText, assertThat_true, copied, bind, Except.bind]
  · intro out len length other
    have notText : it.isTextString = false := beq_false_of_ne other
    rw [decodeString, length]
    simp [afterParse, notText, assertThat, bind, Except.bind]
    rfl

/-- The extents of a string are those of its only chunk. -/
theorem decodeExtents_strings {major : Nat} {isKind : CborValue → Bool} (kind : major = 2 ∨ major = 3)
    (asks : ∀ it, isKind it = (it.type == majorTypeOf major)) (placed : Placed item it) :
    DecodesStrings major item it (decodeExtents isKind) := by
  constructor
  · intro out nothing
    rw [decodeExtents, nothing]
    rfl
  · intro out unknown
    rw [decodeExtents, unknown]
    rfl
  · rintro out bytes content isHead rfl
    obtain ⟨ready, tail, rest, -⟩ := placed
    have at_ := ready.atHead isHead (by omega) (by rw [rest, List.append_assoc])
    exact decodeExtents_string isKind ready kind isHead rest (by rw [asks, at_.type, beq_self_eq_true]) out
  · intro out len length other
    have wrong : isKind it = false := by rw [asks, beq_false_of_ne other]
    rw [decodeExtents, length]
    simp only [afterParse, wrong]
    -- whichever of the three asserts fails first
    cases it.isTextString || it.isByteString <;> cases it.flags.iteratingStringChunks <;> rfl

theorem decodeStringView_strings (placed : Placed item it) : DecodesStrings 3 item it decodeStringView :=
  decodeExtents_strings (.inr rfl) (fun _ => rfl) placed

theorem decodeSpan_strings (placed : Placed item it) : DecodesStrings 2 item it decodeSpan :=
  decodeExtents_strings (.inl rfl) (fun _ => rfl) placed

theorem strings_exact {major : Nat} {decode : Decode Bytes} (strings : DecodesStrings major item it decode)
    (kind : major = 2 ∨ major = 3) (wellFormed : WellFormed limit depth item) (placed : Placed item it) (out : Bytes) :
    DecodesExactly (fun content => StringOf major content item) decode it out ↔
      WholeString major item ∨ ChunkedString (5 - major) item := by
  obtain ⟨ready, tail, rest, -⟩ := placed
  constructor
  · intro decodes
    rcases string_cases ready wellFormed rest with nothing | ⟨found, known, type, ⟨whole, len, length⟩ | ⟨chunked, length⟩⟩
    · exact absurd (strings.asserts out nothing) decodes.not_asserts
    · by_cases same : found = major
      · rw [← same]
        exact .inl whole
      · apply absurd (strings.wrong out len length _) decodes.not_asserts
        rw [type]
        rcases kind with rfl | rfl <;> rcases known with rfl | rfl <;> first | contradiction | decide
    · by_cases same : found = major
      · obtain ⟨chunks, each, rfl⟩ := chunked
        rw [same] at each
        apply absurd _ (decodes.nothing (strings.fails out length) (by decide))
        exact ⟨contentOf chunks, by rw [same]; exact .chunks each rfl⟩
      · have other : found = 5 - major := by omega
        rw [← other]
        exact .inr chunked
  · rintro (⟨bytes, content, isHead, rfl⟩ | ⟨chunks, each, rfl⟩)
    · exact DecodesExactly.accepts (strings.right out bytes content isHead rfl) (.whole isHead)
    · have other : 5 - major = 2 ∨ 5 - major = 3 := by omega
      have string : StringOf (5 - major) (contentOf chunks) (openByte (5 - major) :: (chunkBytes chunks ++ [breakByte])) :=
        .chunks each rfl
      have length := getStringLength_open other (ready.atOpen (by omega) rest)
      apply DecodesExactly.rejects (strings.fails out length) (by decide)
      rintro ⟨content, same⟩
      have first := (same.majorOf (by omega)).symm.trans (string.majorOf (by omega))
      have equal := Option.some.inj first
      omega

/-- The decoders of numbers, strings and spans return no error exactly for the items that the
destination represents, and hold the value of the item then, if and only if the item is
supported. A double may only be converted to a float as the language promises. -/
theorem primitive_exact {target : Target} {type : Ty} {decode : Decode type.denote}
    (converts : ∀ (double : BitVec 64) (float : BitVec 32), binary32.value float.toNat = binary64.value double.toNat →
      binary32.value (target.toFloat double).toNat = binary64.value double.toNat)
    (overload : decodeOverload target type = some decode) (wellFormed : WellFormed limit depth item) (placed : Placed item it)
    (out : type.denote) : DecodesExactly (Represents item type) decode it out ↔ Supported item type := by
  cases type with
  | uint width =>
    obtain rfl := Option.some.inj overload
    exact uint_exact wellFormed placed out
  | sint width =>
    obtain rfl := Option.some.inj overload
    exact sint_exact wellFormed placed out
  | float =>
    obtain rfl := Option.some.inj overload
    exact float_exact converts wellFormed placed out
  | double =>
    obtain rfl := Option.some.inj overload
    exact double_exact wellFormed placed out
  | string =>
    obtain rfl := Option.some.inj overload
    exact strings_exact (decodeString_strings placed) (.inr rfl) wellFormed placed out
  | stringView =>
    obtain rfl := Option.some.inj overload
    exact strings_exact (decodeStringView_strings placed) (.inr rfl) wellFormed placed out
  | byteSpan =>
    obtain rfl := Option.some.inj overload
    exact strings_exact (decodeSpan_strings placed) (.inl rfl) wellFormed placed out
  | uint8Span =>
    obtain rfl := Option.some.inj overload
    exact strings_exact (decodeSpan_strings placed) (.inl rfl) wellFormed placed out
  | _ => cases overload

end

/-- A target that value-initializes and rounds to the nearest float. -/
def ieeeTarget : Target := { fresh := Ty.zero, toFloat := toFloat }

/-- The double 1.5 is decoded into a float. -/
theorem primitive_exact_float :
    ∃ val, cborParserInit (wideHead 7 3 0x3ff8000000000000) = .ok val ∧
      DecodesExactly (Represents (wideHead 7 3 0x3ff8000000000000) .float) (decodeFloat ieeeTarget) val 0#32 := by
  have isHead : Head 7 0x3ff8000000000000 (wideHead 7 3 0x3ff8000000000000) := .wide 3 (by decide) (by decide)
  have wellFormed : WellFormed uint32Max 0 (wideHead 7 3 0x3ff8000000000000) := .simple isHead nofun
  obtain ⟨val, parsed, placed⟩ := placed_init wellFormed []
  have narrow : Narrow 0x3ff8000000000000 := ⟨0x3fc00000#32, by decide +kernel⟩
  have supported : Supported (wideHead 7 3 0x3ff8000000000000) .float :=
    .inr ⟨0x3ff8000000000000, by decide, rfl, narrow⟩
  have overload : decodeOverload ieeeTarget .float = some (decodeFloat ieeeTarget) := rfl
  exact ⟨val, parsed, (primitive_exact (fun _ _ => toFloat_exact) overload wellFormed placed 0#32).mpr supported⟩

/-- The number 70000 is decoded into 16 bits as 4464, without an error. -/
theorem uint16_of_70000 :
    ∃ val, cborParserInit [0x1a, 0x00, 0x01, 0x11, 0x70] = .ok val ∧ Placed [0x1a, 0x00, 0x01, 0x11, 0x70] val ∧
      decodeOverload ieeeTarget (.uint .w16) = some (decodeWith CborValue.getUint64 (BitVec.setWidth 16)) ∧
      decodeWith CborValue.getUint64 (BitVec.setWidth 16) val 0#16 = some (.noError, 4464#16) ∧
      ¬ DecodesExactly (Represents [0x1a, 0x00, 0x01, 0x11, 0x70] (.uint .w16))
        (decodeWith CborValue.getUint64 (BitVec.setWidth 16)) val 0#16 := by
  have isHead : Head 0 70000 [0x1a, 0x00, 0x01, 0x11, 0x70] := .wide 2 (by decide) (by decide)
  have wellFormed : WellFormed uint32Max 0 [0x1a, 0x00, 0x01, 0x11, 0x70] := .integer (by decide) isHead
  obtain ⟨val, parsed, placed⟩ := placed_init wellFormed []
  obtain ⟨tail, rest, -⟩ := placed.followed
  have at_ := placed.ready.atHead isHead (by decide) rest
  refine ⟨val, parsed, placed, rfl, decodeWith_ok (getUint64_head at_) 0#16, ?_⟩
  intro decodes
  have held : Head 0 4464 [0x1a, 0x00, 0x01, 0x11, 0x70] := decodes.holds (decodeWith_ok (getUint64_head at_) 0#16)
  have same := at_.value.symm.trans (placed.ready.atHead held (by decide) rest).value
  cases same

end AxbyCore.Serialization.Proofs
