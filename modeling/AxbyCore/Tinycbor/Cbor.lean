import AxbyCore.Library.Endian
import AxbyCore.Pubsub.Message

/-! The types and inline functions of third_party/tinycbor/src/cbor.h that the
serializer uses. A pointer into a parsed buffer is the bytes from it to the end. -/

namespace AxbyCore.Tinycbor
open Endian

inductive CborError where
  | noError
  | unknownError
  | unknownLength
  | advancePastEOF
  | unexpectedEOF
  | unexpectedBreak
  | unknownType
  | illegalType
  | illegalNumber
  | illegalSimpleType
  | noMoreStringChunks
  | tooManyItems
  | tooFewItems
  | dataTooLarge
  | nestingTooDeep
  | outOfMemory
  deriving DecidableEq, Repr

/-- What ends a call: an error code, or a failed assert, behind which the library
promises nothing. -/
inductive Fault where
  | error (code : CborError)
  | assertion
  deriving DecidableEq, Repr

abbrev Parse := Except Fault

def failWith {α : Type} (code : CborError) : Parse α := throw (.error code)

/-- `cbor_assert`, which ends only programs that are built without `NDEBUG`. In the others the library goes on with a
value that it promises nothing of. -/
def assertThat (condition : Bool) : Parse Unit := if condition then pure () else throw .assertion

inductive CborType where
  | integer
  | byteString
  | textString
  | array
  | map
  | tag
  | simple
  | boolean
  | null
  | undefined
  | halfFloat
  | float
  | double
  | invalid
  deriving DecidableEq, Repr

/-- `CborParserIteratorFlags` -/
structure Flags where
  integerValueIs64Bit : Bool := false
  integerValueTooLarge : Bool := false
  /-- The bit is `BeforeFirstStringChunk` while a string is iterated. -/
  negativeInteger : Bool := false
  iteratingStringChunks : Bool := false
  unknownLength : Bool := false
  containerIsMap : Bool := false
  nextIsMapKey : Bool := false
  deriving DecidableEq, Repr

structure CborValue where
  rest : Bytes
  remaining : Nat := 0
  extra : Nat := 0
  type : CborType := .invalid
  flags : Flags := {}
  deriving DecidableEq, Repr

def uint32Max : Nat := 2 ^ 32 - 1

namespace CborValue

def atEnd (it : CborValue) : Bool := it.remaining == 0

def isValid (it : CborValue) : Bool := it.type != .invalid

def isContainer (it : CborValue) : Bool := it.type == .array || it.type == .map

def isLengthKnown (it : CborValue) : Bool := !it.flags.unknownLength

def isTag (it : CborValue) : Bool := it.type == .tag

def isByteString (it : CborValue) : Bool := it.type == .byteString

def isTextString (it : CborValue) : Bool := it.type == .textString

def isArray (it : CborValue) : Bool := it.type == .array

def isMap (it : CborValue) : Bool := it.type == .map

def isUnsignedInteger (it : CborValue) : Bool := it.type == .integer && !it.flags.negativeInteger

/-- `read_uint8` to `read_uint64` -/
def readUint (it : CborValue) (offset size : Nat) : Nat := ofBig ((it.rest.drop offset).take size)

/-- `_cbor_value_decode_int64_internal` -/
def decodeInt64Internal (it : CborValue) : Nat :=
  if it.flags.integerValueIs64Bit then it.readUint 1 8 else it.readUint 1 4

/-- `_cbor_value_extract_int64_helper` -/
def extractInt64Helper (it : CborValue) : Nat :=
  if it.flags.integerValueTooLarge then it.decodeInt64Internal else it.extra

def getUint64 (it : CborValue) : Parse (BitVec 64) := do
  assertThat it.isUnsignedInteger
  return BitVec.ofNat 64 it.extractInt64Helper

def getInt64 (it : CborValue) : Parse (BitVec 64) := do
  assertThat (it.type == .integer)
  let result := BitVec.ofNat 64 it.extractInt64Helper
  return if it.flags.negativeInteger then -result - 1 else result

def getFloat (it : CborValue) : Parse (BitVec 32) := do
  assertThat (it.type == .float)
  assertThat it.flags.integerValueTooLarge
  return BitVec.ofNat 32 it.decodeInt64Internal

def getDouble (it : CborValue) : Parse (BitVec 64) := do
  assertThat (it.type == .double)
  assertThat it.flags.integerValueTooLarge
  return BitVec.ofNat 64 it.decodeInt64Internal

def getStringLength (it : CborValue) : Parse Nat := do
  assertThat (it.isByteString || it.isTextString)
  if it.isLengthKnown then return it.extractInt64Helper else failWith .unknownLength

def getArrayLength (it : CborValue) : Parse Nat := do
  assertThat it.isArray
  if it.isLengthKnown then return it.extractInt64Helper else failWith .unknownLength

end CborValue
end AxbyCore.Tinycbor
