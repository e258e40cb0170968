import AxbyCore.Pubsub.Recorder
import AxbyCore.Proofs.SerializerContract
import Mathlib.Algebra.GroupWithZero.Nat
import Mathlib.Algebra.Ring.Int.Defs

/-! How far `estimate_cbor_size` reaches. It counts the bytes of names, strings and
numbers and leaves out the heads, which the factor of 1.5 has to pay for. -/

namespace AxbyCore.Serialization.Proofs
open Tinycbor Rfc8949 Pubsub

mutual

/-- The bytes that the estimate counts. -/
def payload : (type : Ty) → type.denote → Nat
  | .string, text => List.length text
  | .stringView, text => List.length text
  | .smallString _, text => text.val.length
  | .byteSpan, bytes => List.length bytes
  | .uint8Span, bytes => List.length bytes
  | .enumeration enumerators, value => (enumerators.names.get value).length
  | .array elem size, value =>
    match asSpan (.array elem size) with
    | some bytes => (bytes value).length
    | none => (value.val.map (payload elem)).sum
  | .vector elem, value =>
    match asSpan (.vector elem) with
    | some bytes => (bytes value).length
    | none => (List.map (payload elem) value).sum
  | .struct fields, value => fieldsPayload fields value
  | type, _ => sizeOfScalar type

def fieldsPayload : (fields : Fields) → fields.denote → Nat
  | .nil, _ => 0
  | .cons name type rest, value => name.length + payload type value.1 + fieldsPayload rest value.2

end

/-- What the half of a string leaves of its head, in halves of a byte. -/
def stringCredit (length : Nat) : Int := length - 2 * headLength length

mutual

/-- What the halves of a value's strings and numbers leave of everything that the
encoding adds to them, in halves of a byte. -/
def credit : (type : Ty) → type.denote → Int
  | .bool, _ => 1
  | .uint width, value => 3 * (width.bits / 8 : Nat) - 2 * (uintItem value.toNat).length
  | .sint width, value => 3 * (width.bits / 8 : Nat) - 2 * (intItem value.toInt).length
  | .float, _ => 2
  | .double, _ => 6
  | .byte, _ => 3
  | .string, text => stringCredit (List.length text)
  | .stringView, text => stringCredit (List.length text)
  | .smallString _, text => stringCredit text.val.length
  | .byteSpan, bytes => stringCredit (List.length bytes)
  | .uint8Span, bytes => stringCredit (List.length bytes)
  | .enumeration enumerators, value => stringCredit (enumerators.names.get value).length
  | .array elem size, value =>
    match asSpan (.array elem size) with
    | some bytes => stringCredit (bytes value).length
    | none => (value.val.map (credit elem)).sum - 2 * headLength value.val.length
  | .vector elem, value =>
    match asSpan (.vector elem) with
    | some bytes => stringCredit (bytes value).length
    | none => (List.map (credit elem) value).sum - 2 * headLength (List.length value)
  | .struct fields, value => fieldsCredit fields value - 2 * headLength fields.names.length

def fieldsCredit : (fields : Fields) → fields.denote → Int
  | .nil, _ => 0
  | .cons name type rest, value => stringCredit name.length + credit type value.1 + fieldsCredit rest value.2

end

theorem stringCredit_eq (major : Nat) (bytes : Bytes) :
    stringCredit bytes.length = 3 * bytes.length - 2 * (head major bytes.length ++ bytes).length := by
  rw [stringCredit, List.length_append, head_length]
  omega

theorem credits_eq {α : Type} {items : List α} {part : α → Nat} {left : α → Int} {item : α → Bytes}
    (each : ∀ elem ∈ items, left elem = 3 * part elem - 2 * (item elem).length) :
    (items.map left).sum = 3 * ((items.map part).sum : Nat) - 2 * (items.flatMap item).length := by
  induction items with
  | nil => simp
  | cons elem rest ih =>
    have first := each elem (by simp)
    have others := ih fun elem member => each elem (by simp [member])
    rw [List.map_cons, List.sum_cons, first, others, List.map_cons, List.sum_cons, List.flatMap_cons, List.length_append]
    omega

mutual

/-- Three halves of the payload are the encoding and the credit. -/
theorem credit_eq : (type : Ty) → (value : type.denote) →
    credit type value = 3 * payload type value - 2 * (encoding type value).length
  | .bool, value => by
    cases value
    · rfl
    · rfl
  | .uint _, _ => rfl
  | .sint _, _ => rfl
  | .float, _ => by
    rw [encoding, wideHead_length]
    rfl
  | .double, _ => by
    rw [encoding, wideHead_length]
    rfl
  | .byte, _ => rfl
  | .string, text => stringCredit_eq 3 text
  | .stringView, text => stringCredit_eq 3 text
  | .smallString _, text => stringCredit_eq 3 text.val
  | .byteSpan, bytes => stringCredit_eq 2 bytes
  | .uint8Span, bytes => stringCredit_eq 2 bytes
  | .enumeration enumerators, value => stringCredit_eq 3 (enumerators.names.get value)
  | .array elem size, value => by
    cases span : asSpan (.array elem size) with
    | some bytes =>
      rw [credit, payload, encoding, span]
      exact stringCredit_eq 2 (bytes value)
    | none =>
      have elements := credits_eq fun item (_ : item ∈ value.val) => credit_eq elem item
      rw [credit, payload, encoding, span]
      simp only [List.length_append, head_length]
      omega
  | .vector elem, value => by
    cases span : asSpan (.vector elem) with
    | some bytes =>
      rw [credit, payload, encoding, span]
      exact stringCredit_eq 2 (bytes value)
    | none =>
      have elements : (List.map (credit elem) value).sum =
          3 * ((List.map (payload elem) value).sum : Nat) - 2 * (List.flatMap (encoding elem) value).length :=
        credits_eq fun item _ => credit_eq elem item
      rw [credit, payload, encoding, span]
      simp only [List.length_append, head_length]
      omega
  | .struct fields, value => by
    have parts := fieldsCredit_eq fields value
    rw [credit, payload, encoding, List.length_append, head_length, parts]
    omega

theorem fieldsCredit_eq : (fields : Fields) → (value : fields.denote) →
    fieldsCredit fields value = 3 * fieldsPayload fields value - 2 * (fieldsEncoding fields value).length
  | .nil, _ => rfl
  | .cons name type rest, value => by
    have named := stringCredit_eq 3 name
    have first := credit_eq type value.1
    have others := fieldsCredit_eq rest value.2
    rw [fieldsCredit, fieldsPayload, fieldsEncoding, textString, named, first, others]
    simp only [List.length_append]
    omega

end

theorem estimateRange_eq {α : Type} {estimate part : α → Nat} {items : List α}
    (each : ∀ elem ∈ items, estimate elem = part elem % 2 ^ 64) :
    estimateRange estimate items = (items.map part).sum % 2 ^ 64 := by
  have sofar : ∀ size < 2 ^ 64, items.foldl (fun size elem => (size + estimate elem) % 2 ^ 64) size =
      (size + (items.map part).sum) % 2 ^ 64 := by
    induction items with
    | nil =>
      intro size small
      exact (Nat.mod_eq_of_lt small).symm
    | cons elem rest ih =>
      intro size small
      have first := each elem (by simp)
      have others := ih (fun elem member => each elem (by simp [member])) ((size + estimate elem) % 2 ^ 64)
        (Nat.mod_lt _ (by decide))
      rw [List.foldl_cons, others, List.map_cons, List.sum_cons, first]
      omega
  have whole := sofar 0 (by decide)
  rwa [Nat.zero_add] at whole

theorem estimateLeaf_range {type : Ty} (notEnum : enumName type = none) (notText : asStringView type = none) :
    estimateLeaf type = (asSpan type).map fun bytes value => (bytes value).length := by
  rw [estimateLeaf, notEnum, notText]
  cases asSpan type with
  | none => rfl
  | some bytes => rfl

theorem sizeOfScalar_lt (type : Ty) : sizeOfScalar type < 2 ^ 64 := by
  have widths : ∀ width : Width, width.bits / 8 < 2 ^ 64 := by
    intro width
    cases width <;> decide
  cases type <;> first | exact widths _ | exact Nat.two_pow_pos 64 | decide

mutual

/-- The estimate is the payload, counted in a `size_t`. -/
theorem estimate_eq {limit : Nat} : (type : Ty) → type.Legal → (value : type.denote) → Fits limit type value →
    estimateCborSize type value = payload type value % 2 ^ 64
  | .bool, _, _, _ => rfl
  | .uint width, _, _, _ => (Nat.mod_eq_of_lt (sizeOfScalar_lt (.uint width))).symm
  | .sint width, _, _, _ => (Nat.mod_eq_of_lt (sizeOfScalar_lt (.sint width))).symm
  | .float, _, _, _ => rfl
  | .double, _, _, _ => rfl
  | .byte, _, _, _ => rfl
  | .string, _, _, fits => (Nat.mod_eq_of_lt fits).symm
  | .stringView, _, _, fits => (Nat.mod_eq_of_lt fits).symm
  | .smallString _, _, _, fits => (Nat.mod_eq_of_lt fits).symm
  | .byteSpan, _, _, fits => (Nat.mod_eq_of_lt fits).symm
  | .uint8Span, _, _, fits => (Nat.mod_eq_of_lt fits).symm
  | .enumeration enumerators, legal, value, _ => (Nat.mod_eq_of_lt (legal _ (List.get_mem _ value)).2).symm
  | .array elem size, legal, value, fits => by
    cases span : asSpan (.array elem size) with
    | some bytes =>
      have small := fits_array_span span fits
      rw [estimateCborSize, estimateLeaf_range rfl rfl, payload, span]
      exact (Nat.mod_eq_of_lt small).symm
    | none =>
      have limits := fits_array span fits
      rw [estimateCborSize, estimateLeaf_range rfl rfl, payload, span]
      exact estimateRange_eq fun item member => estimate_eq elem legal item (limits.2 item member)
  | .vector elem, legal, value, fits => by
    cases span : asSpan (.vector elem) with
    | some bytes =>
      have small := fits_vector_span span fits
      rw [estimateCborSize, estimateLeaf_range rfl rfl, payload, span]
      exact (Nat.mod_eq_of_lt small).symm
    | none =>
      have limits := fits_vector span fits
      rw [estimateCborSize, estimateLeaf_range rfl rfl, payload, span]
      exact estimateRange_eq fun item member => estimate_eq elem legal item (limits.2 item member)
  | .struct fields, legal, value, fits => by
    have whole := estimateFields_eq fields legal.2.2 value fits 0 (by decide)
    rwa [Nat.zero_add] at whole

theorem estimateFields_eq {limit : Nat} : (fields : Fields) → fields.Legal → (value : fields.denote) →
    FieldsFit limit fields value → ∀ size < 2 ^ 64,
    estimateFields fields size value = (size + fieldsPayload fields value) % 2 ^ 64
  | .nil, _, _, _, _, small => (Nat.mod_eq_of_lt small).symm
  | .cons name type rest, legal, value, fits, size, _ => by
    have first := estimate_eq type legal.2.1 value.1 fits.1
    have others := estimateFields_eq rest legal.2.2 value.2 fits.2
      (((size + name.length) % 2 ^ 64 + payload type value.1 % 2 ^ 64) % 2 ^ 64) (Nat.mod_lt _ (by decide))
    have next : estimateFields (.cons name type rest) size value = estimateFields rest
        (((size + name.length) % 2 ^ 64 + estimateCborSize type value.1) % 2 ^ 64) value.2 := rfl
    rw [next, first, others, fieldsPayload]
    omega

end

/-- Sizes below 2^51 are exact in the product with 1.5. -/
theorem oneAndAHalf_small {size : Nat} (small : size < 2 ^ 51) : oneAndAHalf size = 3 * size / 2 := by
  have same : Binary64.round size = size := Binary64.round_exact (by omega)
  have product : Binary64.round (3 * size) = 3 * size := Binary64.round_exact (by omega)
  rw [oneAndAHalf, same, product]

/-- The room that the vector is given. -/
def room (type : Ty) (value : type.denote) : Nat := oneAndAHalf (payload type value % 2 ^ 64)

/-- The credit covers what is lost when the half is taken in a double and cut off. -/
def Roomy (type : Ty) (value : type.denote) : Prop :=
  3 * (payload type value : Int) - 2 * room type value ≤ credit type value ∧ room type value ≤ maxSize

theorem roomy_iff (type : Ty) (value : type.denote) :
    Roomy type value ↔ (encoding type value).length ≤ room type value ∧ room type value ≤ maxSize := by
  have whole := credit_eq type value
  unfold Roomy
  omega

theorem roomy_small {type : Ty} {value : type.denote} (small : payload type value < 2 ^ 51) :
    Roomy type value ↔ 0 ≤ credit type value := by
  have whole := credit_eq type value
  have exact_ : room type value = 3 * payload type value / 2 := by
    rw [room, Nat.mod_eq_of_lt (by omega), oneAndAHalf_small small]
  rw [roomy_iff, exact_, maxSize]
  omega

section
variable {type : Ty} {value : type.denote}

/-- The serializer returns true with the encoding when the vector has room for it. -/
theorem serializeCborVector_eq (encodable : encodes type = true) (legal : type.Legal) (fits : Fits (2 ^ 63) type value)
    (allocated : Bool) :
    serializeCborVector type value allocated =
      if maxSize < room type value then none
      else if (encoding type value).length ≤ room type value then some (true, encoding type value)
      else some (false, []) := by
  have size : oneAndAHalf (estimateCborSize type value) = room type value := by
    rw [estimate_eq type legal value fits]
    rfl
  have data : (if allocated || room type value != 0 then some (room type value) else none).getD 0 = room type value := by
    by_cases null : room type value = 0
    · cases allocated <;> simp [null]
    · simp [null]
  rw [serializeCborVector, size]
  dsimp only
  rw [serializeCbor_eq (by decide) encodable legal fits, data]
  by_cases enough : (encoding type value).length ≤ room type value
  · simp only [if_pos enough]
  · simp only [if_neg enough]

theorem serializeCborVector_roomy (encodable : encodes type = true) (legal : type.Legal) (fits : Fits (2 ^ 63) type value)
    (roomy : Roomy type value) (allocated : Bool) :
    serializeCborVector type value allocated = some (true, encoding type value) := by
  obtain ⟨enough, small⟩ := (roomy_iff type value).mp roomy
  rw [serializeCborVector_eq encodable legal fits, if_neg (by omega), if_pos enough]

theorem serializeCborVector_fails (encodable : encodes type = true) (legal : type.Legal) (fits : Fits (2 ^ 63) type value)
    (short : ¬ Roomy type value) (allocated : Bool) :
    serializeCborVector type value allocated = none ∨ serializeCborVector type value allocated = some (false, []) := by
  rw [roomy_iff] at short
  rw [serializeCborVector_eq encodable legal fits]
  by_cases large : maxSize < room type value
  · exact Or.inl (if_pos large)
  · right
    rw [if_neg large, if_neg (by omega)]

theorem roomy_of_serialized (encodable : encodes type = true) (legal : type.Legal) (fits : Fits (2 ^ 63) type value)
    {allocated : Bool} {bytes : Bytes} (written : serializeCborVector type value allocated = some (true, bytes)) :
    Roomy type value := by
  apply Classical.byContradiction
  intro short
  rcases serializeCborVector_fails encodable legal fits short allocated with failed | failed
  · rw [failed] at written
    cases written
  · rw [failed] at written
    cases written

/-- The vector gets what a buffer that is large enough gets. -/
def AgreesWithBuffer (type : Ty) (value : type.denote) (allocated : Bool) : Prop :=
  ∃ bytes, serializeCborVector type value allocated = some (true, bytes) ∧
    ∃ enough, ∀ size, enough ≤ size → serializeCbor type value (some size) = some bytes

theorem agrees_iff (encodable : encodes type = true) (legal : type.Legal) (fits : Fits (2 ^ 63) type value)
    (allocated : Bool) : AgreesWithBuffer type value allocated ↔ Roomy type value := by
  constructor
  · rintro ⟨bytes, written, -⟩
    exact roomy_of_serialized encodable legal fits written
  · intro roomy
    refine ⟨encoding type value, serializeCborVector_roomy encodable legal fits roomy allocated,
      (encoding type value).length, ?_⟩
    intro size le
    rw [serializeCbor_eq (by decide) encodable legal fits]
    exact if_pos le

/-- `add_cbor` adds a frame that is not empty exactly where the serializer succeeds. -/
theorem addCbor_iff (encodable : encodes type = true) (legal : type.Legal) (fits : Fits (2 ^ 63) type value)
    (frames : List Bytes) :
    (∃ frame, frame ≠ [] ∧ addCbor frames type value = some (frames ++ [frame])) ↔ Roomy type value := by
  constructor
  · rintro ⟨frame, nonempty, added⟩
    apply Classical.byContradiction
    intro short
    rcases serializeCborVector_fails encodable legal fits short false with failed | failed
    · rw [addCbor, failed] at added
      cases added
    · rw [addCbor, failed] at added
      have same : frames ++ [[]] = frames ++ [frame] := Option.some.inj added
      exact nonempty (by simpa using same.symm)
  · intro roomy
    refine ⟨encoding type value, List.ne_nil_of_length_pos (encoding_pos type encodable value), ?_⟩
    rw [addCbor, serializeCborVector_roomy encodable legal fits roomy]
    rfl

end

theorem frameSpans_legal : frameSpans.Legal := trivial

/-- A message is appended, with its frames encoded, exactly where the serializer succeeds. -/
theorem append_eq (recorder : Recorder) {message : Message} (processTimeUs : UInt64)
    (fits : Fits (2 ^ 63) frameSpans message.frames) (roomy : Roomy frameSpans message.frames) :
    recorder.append message processTimeUs = some
      { messageId := recorder.messageId + 1
        allocated := true
        rows := recorder.rows ++
          [{ topic := message.topic, header := message.header, thisProcessTimeUs := processTimeUs.toNat
             messageId := recorder.messageId.toNat, frames := encoding frameSpans message.frames }] } := by
  rw [Recorder.append, serializeCborVector_roomy rfl frameSpans_legal fits roomy]
  rfl

theorem append_iff (recorder : Recorder) {message : Message} (processTimeUs : UInt64)
    (fits : Fits (2 ^ 63) frameSpans message.frames) :
    (recorder.append message processTimeUs).isSome = true ↔ Roomy frameSpans message.frames := by
  constructor
  · intro appended
    unfold Recorder.append at appended
    dsimp only at appended
    split at appended
    next written => exact roomy_of_serialized rfl frameSpans_legal fits written
    next => cases appended
  · intro roomy
    rw [append_eq recorder processTimeUs fits roomy]
    rfl

/-- Serializing into a vector succeeds, with the bytes that a large buffer gets, exactly
where the value's parts pay for the heads; so do `add_cbor` and the recorder's CHECK. -/
theorem vector_serializer_contract (type : Ty) (encodable : encodes type = true) (legal : type.Legal)
    (value : type.denote) (fits : Fits (2 ^ 63) type value) :
    (∀ allocated, AgreesWithBuffer type value allocated ↔ Roomy type value) ∧
      (∀ frames, (∃ frame, frame ≠ [] ∧ addCbor frames type value = some (frames ++ [frame])) ↔ Roomy type value) ∧
      (∀ (recorder : Recorder) (message : Message) (processTimeUs : UInt64), Fits (2 ^ 63) frameSpans message.frames →
        ((recorder.append message processTimeUs).isSome = true ↔ Roomy frameSpans message.frames)) ∧
      (payload type value < 2 ^ 51 → (Roomy type value ↔ 0 ≤ credit type value)) := by
  refine ⟨agrees_iff encodable legal fits, addCbor_iff encodable legal fits, ?_, roomy_small⟩
  intro recorder message processTimeUs fits
  exact append_iff recorder processTimeUs fits

/-- Henry's names pay for his heads. -/
theorem vector_serializer_contract_person : AgreesWithBuffer person henry false ∧
    ∃ frame, frame ≠ [] ∧ addCbor [] person henry = some [frame] := by
  have legal : person.Legal := by
    simp only [person, pet, Ty.Legal, Fields.Legal, Fields.names, Identifier]
    decide +kernel
  have fits : Fits (2 ^ 63) person henry := by
    simp only [person, pet, henry, Fits, FieldsFit, asSpan]
    decide +kernel
  obtain ⟨agrees, adds, -, small⟩ := vector_serializer_contract person (by decide +kernel) legal henry fits
  have roomy : Roomy person henry := (small (by decide +kernel)).mpr (by decide +kernel)
  exact ⟨(agrees false).mpr roomy, (adds []).mpr roomy⟩

/-- An empty string is estimated at no bytes and has a head; and a message with one
frame of one byte is estimated at one byte and needs three. -/
theorem empty_string_fails : ¬ AgreesWithBuffer .string ([] : Bytes) false ∧ encoding .string ([] : Bytes) ≠ [] ∧
    addCbor [] .string ([] : Bytes) = some [[]] ∧
    Recorder.append {} { topic := ascii "status", header := {}, frames := [[7]] } 0 = none := by
  refine ⟨?_, by decide +kernel, by decide +kernel, ?_⟩
  · rintro ⟨bytes, written, -⟩
    have failed : serializeCborVector .string ([] : Bytes) false = some (false, []) := rfl
    rw [failed] at written
    cases written
  · rfl

end AxbyCore.Serialization.Proofs
