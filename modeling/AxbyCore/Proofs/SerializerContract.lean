import AxbyCore.Proofs.RoundTrip

/-! The contract of serialize_cbor and deserialize_cbor. -/

namespace AxbyCore.Serialization.Proofs
open Tinycbor Tinycbor.Proofs Rfc8949

section
variable {type : Ty}

/-- The serializer returns the encoding when the buffer can take it, and false otherwise. -/
theorem serializeCbor_eq {limit : Nat} (counted : limit ≤ cborIndefiniteLength) (compiles : encodes type = true)
    (legal : type.Legal) {value : type.denote} (fits : Fits limit type value) (buffer : Option Nat) :
    serializeCbor type value buffer =
      if (encoding type value).length ≤ buffer.getD 0 then some (encoding type value) else none := by
  have writes := encode_writes counted type compiles legal value fits
  cases buffer with
  | none =>
    have failed : (encode type (cborEncoderInit none) value).1 = .outOfMemory :=
      encode_null counted type compiles legal value fits (cborEncoderInit none) 0 rfl
    have nonempty := encoding_pos type compiles value
    have none : ¬ (encoding type value).length ≤ 0 := by omega
    rw [serializeCbor]
    simp only [failed, ne_eq, reduceCtorEq, not_false_eq_true, if_true, Option.getD_none, if_neg none]
  | some size =>
    by_cases enough : (encoding type value).length ≤ size
    · have done : encode type (cborEncoderInit (some size)) value = _ :=
        writes.fits (cborEncoderInit (some size)) [] size rfl enough
      rw [serializeCbor, done]
      simp [wrote, enough]
    · have failed : (encode type (cborEncoderInit (some size)) value).1 = .outOfMemory :=
        writes.overflows (cborEncoderInit (some size)) [] size rfl (by omega)
      rw [serializeCbor]
      simp [failed, enough]

theorem deserializeCbor_parsed {target : Target} {item : type.denote} {buf : Bytes} {val : CborValue}
    (parsed : cborParserInit buf = .ok val) :
    deserializeCbor target type item buf =
      (decode target type val item).map fun (error, item) => (error == .noError, item) := by
  rw [deserializeCbor, parsed]

/-- Whatever follows the encoding in the buffer, the value is read back. -/
theorem deserializeCbor_encoding (target : Target) (encodable : encodes type = true)
    (decodable : decodes target type = true) (legal : type.Legal) (deep : type.depth ≤ cborParserMaxRecursions)
    {value : type.denote} (fits : Fits uint32Max type value) (trailing : Bytes) (item : type.denote) :
    deserializeCbor target type item (encoding type value ++ trailing) = some (true, value) := by
  have isItem := encoding_item type encodable legal value fits
  obtain ⟨val, parsed, same⟩ : ∃ val, cborParserInit (encoding type value ++ trailing) = .ok val ∧ SamePlace _ val :=
    preparse_item isItem rfl
  have continues : Continues val trailing := by
    intro behind past
    have one : behind.remaining = 1 := past.remaining.trans same.remaining
    refine ⟨{ behind with remaining := 0, type := .invalid, flags := { behind.flags with unknownLength := false } }, ?_⟩
    rw [preparseNextValue, past.notTag, one]
    rfl
  have decoded := decode_encoding type encodable decodable legal deep value fits val trailing item
    (ready_of_preparse same parsed) same.rest continues
  rw [deserializeCbor_parsed parsed, decoded]
  rfl

end

/-- Serializing succeeds exactly where the encoding fits into the buffer, and what it
wrote is deserialized to the value, whatever the buffer has behind it. -/
theorem serializer_contract (target : Target) (type : Ty) (encodable : encodes type = true)
    (decodable : decodes target type = true) (legal : type.Legal) (deep : type.depth ≤ cborParserMaxRecursions)
    (value : type.denote) (fits : Fits uint32Max type value) (buffer : Option Nat) :
    ((serializeCbor type value buffer).isSome = true ↔ (encoding type value).length ≤ buffer.getD 0) ∧
      ∀ written, serializeCbor type value buffer = some written → ∀ trailing item,
        deserializeCbor target type item (written ++ trailing) = some (true, value) := by
  rw [serializeCbor_eq (by decide) encodable legal fits]
  by_cases enough : (encoding type value).length ≤ buffer.getD 0
  · rw [if_pos enough]
    refine ⟨by simp [enough], ?_⟩
    rintro written same trailing item
    obtain rfl := Option.some.inj same
    exact deserializeCbor_encoding target encodable decodable legal deep fits trailing item
  · rw [if_neg enough]
    refine ⟨by simp [enough], ?_⟩
    intro written none
    cases none

def gender : Enumerators := ⟨[ascii "NONBINARY", ascii "MALE", ascii "FEMALE"], by decide +kernel, by decide⟩

def pet : Ty := .struct (.cons (ascii "name") .string .nil)

def person : Ty :=
  .struct (.cons (ascii "gender") (.enumeration gender) (.cons (ascii "age") (.uint .w16)
    (.cons (ascii "pets") (.vector pet) .nil)))

def henry : person.denote :=
  ((⟨1, by decide⟩ : Fin 3), 25#16, [(ascii "Fido", ()), (ascii "Romeo", ())], ())

/-- Forty-eight bytes are enough for Henry and his pets, and come back as they were. -/
theorem serializer_contract_person : ∃ written, serializeCbor person henry (some 48) = some written ∧
    ∀ trailing item, deserializeCbor ⟨Ty.zero, fun _ => 0⟩ person item (written ++ trailing) = some (true, henry) := by
  have legal : person.Legal := by
    simp only [person, pet, Ty.Legal, Fields.Legal, Fields.names, Identifier]
    decide +kernel
  have fits : Fits uint32Max person henry := by
    simp only [person, pet, henry, Fits, FieldsFit, asSpan]
    decide +kernel
  obtain ⟨succeeds, back⟩ := serializer_contract ⟨Ty.zero, fun _ => 0⟩ person (by decide +kernel) (by decide +kernel) legal
    (by decide) henry fits (some 48)
  obtain ⟨written, same⟩ := Option.isSome_iff_exists.mp (succeeds.mpr (by decide +kernel))
  exact ⟨written, same, back written same⟩

end AxbyCore.Serialization.Proofs
