import AxbyCore.Serialization.Types
import AxbyCore.Tinycbor.Encoder

/-! The encoding half of serialization/primitives.cpp and make_serializable.hpp. -/

namespace AxbyCore.Serialization
open Tinycbor

abbrev Encode (α : Type) := CborEncoder → α → CborError × CborEncoder

/-- The overloads of `cbor_encode` in primitives.h. -/
def encodeOverload : (type : Ty) → Option (Encode type.denote)
  | .bool => some cborEncodeBoolean
  | .uint _ => some fun encoder value => cborEncodeUint encoder (value.setWidth 64)
  | .sint _ => some fun encoder value => cborEncodeInt encoder (value.signExtend 64)
  | .float => some cborEncodeFloat
  | .double => some cborEncodeDouble
  | .stringView => some cborEncodeTextString
  | .byteSpan => some cborEncodeByteString
  | _ => none

/-- The overloads, and the branches of the template in front of the one for ranges. -/
def encodeLeaf (type : Ty) : Option (Encode type.denote) :=
  match encodeOverload type with
  | some encode => some encode
  | none =>
    match enumName type with
    | some name => some fun encoder value => cborEncodeTextString encoder (name value)
    | none =>
      match asSpan type with
      | some bytes => some fun encoder value => cborEncodeByteString encoder (bytes value)
      | none =>
        match asStringView type with
        | some view => some fun encoder value => cborEncodeTextString encoder (view value)
        | none => none

/-- The loop over the elements of a range. -/
def encodeElements {α : Type} (encode : Encode α) (listEncoder : CborEncoder) : List α → CborError × CborEncoder
  | [] => (.noError, listEncoder)
  | elem :: rest =>
    let (err, listEncoder) := encode listEncoder elem
    if err ≠ .noError then (err, listEncoder) else encodeElements encode listEncoder rest

def encodeRange {α : Type} (encode : Encode α) (encoder : CborEncoder) (listLike : List α) : CborError × CborEncoder :=
  let (err, encoder, listEncoder) := cborEncoderCreateArray encoder listLike.length
  if err ≠ .noError then (err, encoder)
  else
    let (err, listEncoder) := encodeElements encode listEncoder listLike
    if err ≠ .noError then (err, encoder) else cborEncoderCloseContainer encoder listEncoder

def encodeClass {α : Type} (fieldNames : List Bytes) (encodeFields : Encode α) (encoder : CborEncoder) (value : α) :
    CborError × CborEncoder :=
  let (err, encoder, mapEncoder) := cborEncoderCreateMap encoder fieldNames.length
  if err ≠ .noError then (err, encoder)
  else
    let (err, mapEncoder) := encodeFields mapEncoder value
    if err ≠ .noError then (err, encoder) else cborEncoderCloseContainer encoder mapEncoder

/-- One call of the lambda in `for_each_field`. -/
def encodeField {α : Type} (name : Bytes) (encode : Encode α) (mapEncoder : CborEncoder) (value : α) :
    CborError × CborEncoder :=
  let (err, mapEncoder) := cborEncodeTextString mapEncoder name
  if err ≠ .noError then (err, mapEncoder) else encode mapEncoder value

mutual

/-- `cbor_encode` -/
def encode : (type : Ty) → Encode type.denote
  | .array elem size => (encodeLeaf (.array elem size)).getD fun encoder value =>
    encodeRange (encode elem) encoder value.val
  | .vector elem => (encodeLeaf (.vector elem)).getD (encodeRange (encode elem))
  | .struct fields => (encodeLeaf (.struct fields)).getD (encodeClass fields.names (encodeFields fields))
  -- the static_assert, which lets nothing else compile
  | type => (encodeLeaf type).getD fun encoder _ => (.unknownError, encoder)

/-- `for_each_field`; behind a field that failed the lambda returns at once. -/
def encodeFields : (fields : Fields) → Encode fields.denote
  | .nil => fun mapEncoder _ => (.noError, mapEncoder)
  | .cons name type rest => fun mapEncoder value =>
    let (err, mapEncoder) := encodeField name (encode type) mapEncoder value.1
    if err ≠ .noError then (err, mapEncoder) else encodeFields rest mapEncoder value.2

end

mutual

/-- Whether `cbor_encode` compiles. -/
def encodes : Ty → Bool
  | .array elem size => (encodeLeaf (.array elem size)).isSome || encodes elem
  | .vector elem => (encodeLeaf (.vector elem)).isSome || encodes elem
  | .struct fields => fieldsEncode fields
  | type => (encodeLeaf type).isSome

def fieldsEncode : Fields → Bool
  | .nil => true
  | .cons _ type rest => encodes type && fieldsEncode rest

end

/-- `serialize_cbor` into a buffer of the given size, or a null pointer. The bytes
written are the result; without them it returns false. -/
def serializeCbor (type : Ty) (item : type.denote) (buffer : Option Nat) : Option Bytes :=
  let (result, encoder) := encode type (cborEncoderInit buffer) item
  if result ≠ .noError then none
  else match encoder.data with
    | .inside written _ => some written
    | .past _ => some []

end AxbyCore.Serialization
