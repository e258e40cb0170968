import AxbyCore.Tinycbor.Cbor

/-! The functions of third_party/tinycbor/src/cborencoder.c that the serializer uses. -/

namespace AxbyCore.Tinycbor
open Endian

/-- The union `data` with `end`: the bytes written and the room left, or, once the
end is a null pointer, the bytes that were missing. -/
inductive Cursor where
  | inside (written : Bytes) (left : Nat)
  | past (bytesNeeded : Nat)
  deriving DecidableEq, Repr

structure CborEncoder where
  data : Cursor
  remaining : Nat
  unknownLength : Bool := false
  deriving DecidableEq, Repr

/-- A buffer of the given size, or a null pointer. -/
def cborEncoderInit (buffer : Option Nat) : CborEncoder where
  data := match buffer with
    | some size => .inside [] size
    | none => .past 0
  remaining := 2

def appendToBuffer (encoder : CborEncoder) (data : Bytes) : CborError × CborEncoder :=
  match encoder.data with
  | .inside written left =>
    if left < data.length then (.outOfMemory, { encoder with data := .past (data.length - left) })
    else (.noError, { encoder with data := .inside (written ++ data) (left - data.length) })
  | .past bytesNeeded =>
    if 0 < bytesNeeded + data.length then (.outOfMemory, { encoder with data := .past (bytesNeeded + data.length) })
    else (.noError, encoder)

def unsignedIntegerType : Nat := 0
def byteStringType : Nat := 2
def textStringType : Nat := 3
def arrayType : Nat := 4
def mapType : Nat := 5
def simpleTypesType : Nat := 7

/-- `<< MajorTypeShift` -/
def shifted (majorType : Nat) : Nat := majorType * 2 ^ 5

def value8Bit : Nat := 24

/-- The bytes of `buf` from `bufstart` on. -/
def numberBytes (ui shiftedMajorType : Nat) : Bytes :=
  if ui < value8Bit then [UInt8.ofNat (ui + shiftedMajorType)]
  else
    let more := (if ui > 0xff then 1 else 0) + (if ui > 0xffff then 1 else 0) + (if ui > 0xffffffff then 1 else 0)
    UInt8.ofNat (shiftedMajorType + value8Bit + more) :: big (2 ^ more) ui

def encodeNumberNoUpdate (encoder : CborEncoder) (ui shiftedMajorType : Nat) : CborError × CborEncoder :=
  appendToBuffer encoder (numberBytes ui shiftedMajorType)

def saturatedDecrement (encoder : CborEncoder) : CborEncoder := { encoder with remaining := encoder.remaining - 1 }

def encodeNumber (encoder : CborEncoder) (ui shiftedMajorType : Nat) : CborError × CborEncoder :=
  encodeNumberNoUpdate (saturatedDecrement encoder) ui shiftedMajorType

def cborEncodeUint (encoder : CborEncoder) (value : BitVec 64) : CborError × CborEncoder :=
  encodeNumber encoder value.toNat (shifted unsignedIntegerType)

def cborEncodeInt (encoder : CborEncoder) (value : BitVec 64) : CborError × CborEncoder :=
  let ui := value.sshiftRight 63
  let majorType := ui &&& 0x20#64
  encodeNumber encoder (ui ^^^ value).toNat majorType.toNat

def cborEncodeSimpleValue (encoder : CborEncoder) (value : Nat) : CborError × CborEncoder :=
  if 25 ≤ value ∧ value ≤ 31 then (.illegalSimpleType, encoder)
  else encodeNumber encoder value (shifted simpleTypesType)

def cborEncodeBoolean (encoder : CborEncoder) (value : Bool) : CborError × CborEncoder :=
  cborEncodeSimpleValue encoder (value.toNat + 20)

/-- `cbor_encode_floating_point` for a float. -/
def cborEncodeFloat (encoder : CborEncoder) (value : BitVec 32) : CborError × CborEncoder :=
  appendToBuffer (saturatedDecrement encoder) (0xfa :: big 4 value.toNat)

/-- `cbor_encode_floating_point` for a double. -/
def cborEncodeDouble (encoder : CborEncoder) (value : BitVec 64) : CborError × CborEncoder :=
  appendToBuffer (saturatedDecrement encoder) (0xfb :: big 8 value.toNat)

def encodeString (encoder : CborEncoder) (string : Bytes) (shiftedMajorType : Nat) : CborError × CborEncoder :=
  let (err, encoder) := encodeNumber encoder string.length shiftedMajorType
  -- when there is no room for the head, the string still counts as needed
  if err ≠ .noError ∧ err ≠ .outOfMemory then (err, encoder) else appendToBuffer encoder string

def cborEncodeByteString (encoder : CborEncoder) (string : Bytes) : CborError × CborEncoder :=
  encodeString encoder string (shifted byteStringType)

def cborEncodeTextString (encoder : CborEncoder) (string : Bytes) : CborError × CborEncoder :=
  encodeString encoder string (shifted textStringType)

def cborIndefiniteLength : Nat := 2 ^ 64 - 1

/-- The encoders of the parent and of the container. -/
def createContainer (encoder : CborEncoder) (length shiftedMajorType : Nat) : CborError × CborEncoder × CborEncoder :=
  let (err, container) :=
    if length = cborIndefiniteLength then
      appendToBuffer { data := encoder.data, remaining := 0, unknownLength := true } [UInt8.ofNat (shiftedMajorType + 31)]
    else
      let items := if shiftedMajorType = shifted mapType then length + length else length
      encodeNumberNoUpdate { data := encoder.data, remaining := items + 1 } length shiftedMajorType
  (err, saturatedDecrement encoder, container)

def cborEncoderCreateArray (parent : CborEncoder) (length : Nat) : CborError × CborEncoder × CborEncoder :=
  createContainer parent length (shifted arrayType)

def cborEncoderCreateMap (parent : CborEncoder) (length : Nat) : CborError × CborEncoder × CborEncoder :=
  if length ≠ cborIndefiniteLength ∧ length > (2 ^ 64 - 1) / 2 then (.dataTooLarge, parent, parent)
  else createContainer parent length (shifted mapType)

/-- The parent's encoder once a container is closed. -/
def cborEncoderCloseContainer (parent container : CborEncoder) : CborError × CborEncoder :=
  let parent := { parent with data := container.data }
  if container.unknownLength then appendToBuffer parent [0xff]
  else if container.remaining ≠ 1 then
    (if container.remaining = 0 then .tooManyItems else .tooFewItems, parent)
  else match parent.data with
    | .past _ => (.outOfMemory, parent)
    | .inside _ _ => (.noError, parent)

end AxbyCore.Tinycbor
