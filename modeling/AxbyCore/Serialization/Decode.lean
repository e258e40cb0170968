import AxbyCore.Serialization.Types
import AxbyCore.Tinycbor.Parser

/-! The decoding half of serialization/primitives.cpp and make_serializable.hpp. A
decoder is given the value that its destination holds and returns an error code with
what the destination holds then, or nothing when a CHECK or an assert fails. -/

namespace AxbyCore.Serialization
open Tinycbor

abbrev Decode (α : Type) := CborValue → α → Option (CborError × α)

/-- What the compiler adds: the elements that `resize` makes, which are indeterminate
in a `FastResizableVector`, and the conversion of a double to a float. -/
structure Target where
  fresh : (type : Ty) → type.denote
  toFloat : BitVec 64 → BitVec 32

mutual

/-- What value-initialization leaves, as `std::vector::resize` does. -/
def Ty.zero : (type : Ty) → type.denote
  | .bool => false
  | .uint width => BitVec.zero width.bits
  | .sint width => BitVec.zero width.bits
  | .float => 0#32
  | .double => 0#64
  | .byte => (0 : UInt8)
  | .string => ([] : Bytes)
  | .stringView => ([] : Bytes)
  | .smallString _ => ⟨[], Nat.zero_le _⟩
  | .byteSpan => ([] : Bytes)
  | .uint8Span => ([] : Bytes)
  | .enumeration enumerators => ⟨0, enumerators.nonempty⟩
  | .array elem size => ⟨List.replicate size elem.zero, List.length_replicate⟩
  | .vector elem => ([] : List elem.denote)
  | .struct fields => fields.zero

def Fields.zero : (fields : Fields) → fields.denote
  | .nil => ()
  | .cons _ type rest => (type.zero, rest.zero)

end

/-- `CBOR_RETURN_IF_ERROR` on a call of the parser. -/
def afterParse {α β : Type} (parsed : Parse α) (out : β) (next : α → Option (CborError × β)) : Option (CborError × β) :=
  match parsed with
  | .ok value => next value
  | .error (.error code) => some (code, out)
  | .error .assertion => none

/-- A getter and the assignment of what it gets. -/
def decodeWith {α β : Type} (getter : CborValue → Parse α) (convert : α → β) : Decode β := fun cborValue out =>
  afterParse (getter cborValue) out fun value => some (.noError, convert value)

def decodeFloat (target : Target) : Decode (BitVec 32) := fun cborValue out =>
  if cborValue.type = .double then decodeWith CborValue.getDouble target.toFloat cborValue out
  else decodeWith CborValue.getFloat id cborValue out

/-- What a copy that ends in an error has left in the string. One of known length is a single chunk, which an error
behind it leaves copied. -/
def copiedChunk (cborValue : CborValue) (str : Bytes) : Bytes :=
  match getStringChunk (beginStringIteration cborValue) with
  | .ok (chunk, _) => if chunk.length ≤ str.length then chunk ++ str.drop chunk.length else str
  | .error _ => str

/-- `cbor_decode` into a `std::string`. -/
def decodeString : Decode Bytes := fun cborValue out =>
  afterParse cborValue.getStringLength out fun len =>
    let str := out.take len ++ List.replicate (len - out.length) 0
    afterParse (do
      assertThat cborValue.isTextString
      copyString cborValue len) (copiedChunk cborValue str) fun (data, _) => some (.noError, data)

/-- The contents of a string whose payload is one chunk of the right kind. -/
def decodeExtents (isKind : CborValue → Bool) : Decode Bytes := fun cborValue out =>
  afterParse cborValue.getStringLength out fun length =>
    afterParse (do
      assertThat (cborValue.isTextString || cborValue.isByteString)
      assertThat (!cborValue.flags.iteratingStringChunks)
      assertThat (isKind cborValue)
      getStringChunk (beginStringIteration cborValue)) out fun (chunk, _) =>
        if chunk.length = length then some (.noError, chunk) else none

/-- `cbor_decode` into a `std::string_view`. -/
def decodeStringView : Decode Bytes := decodeExtents CborValue.isTextString

/-- `cbor_decode` into a span, by `cbor_get_span_extents`. -/
def decodeSpan : Decode Bytes := decodeExtents CborValue.isByteString

/-- The overloads of `cbor_decode` in primitives.h. -/
def decodeOverload (target : Target) : (type : Ty) → Option (Decode type.denote)
  | .uint width => some (decodeWith CborValue.getUint64 (BitVec.setWidth width.bits))
  | .sint width => some (decodeWith CborValue.getInt64 (BitVec.setWidth width.bits))
  | .float => some (decodeFloat target)
  | .double => some (decodeWith CborValue.getDouble id)
  | .string => some decodeString
  | .stringView => some decodeStringView
  | .byteSpan => some decodeSpan
  | .uint8Span => some decodeSpan
  | _ => none

/-- A branch that decodes a view of the payload and assigns it; `assign` is nothing
where it fails a CHECK or is fatal. -/
def decodeAs {α : Type} (view : Decode Bytes) (assign : Bytes → Option α) : Decode α := fun cborValue out =>
  match view cborValue [] with
  | none => none
  | some (err, payload) =>
    if err ≠ .noError then some (err, out) else (assign payload).map fun out => (.noError, out)

/-- `magic_enum::enum_cast` -/
def enumCast : (type : Ty) → Option (Bytes → Option type.denote)
  | .enumeration enumerators => some fun name => enumerators.names.finIdxOf? name
  | _ => none

/-- Resizing to the bytes, where that is possible, and copying them. A `std::byte`
cannot be assigned to a `uint8_t`. -/
def assignBytes : (type : Ty) → Option (Bytes → Option type.denote)
  | .vector .byte => some some
  | .array .byte size => some fun bytes => if same : bytes.length = size then some ⟨bytes, same⟩ else none
  | _ => none

/-- Assigning a view. A view cannot be assigned to a class that is no string. -/
def assignView : (type : Ty) → Option (Bytes → Option type.denote)
  | .string => some some
  | .stringView => some some
  | .smallString capacity => some fun view => if fits : view.length ≤ capacity then some ⟨view, fits⟩ else none
  | _ => none

/-- Whether `cbor_decode` is an overload, or takes a branch of the template in front
of the one for ranges. -/
def isDecodeLeaf (target : Target) (type : Ty) : Bool :=
  (decodeOverload target type).isSome || (enumCast type).isSome || (asSpan type).isSome || constructibleFromStringView type

/-- The overloads and these branches, where they compile. -/
def decodeLeaf (target : Target) (type : Ty) : Option (Decode type.denote) :=
  match decodeOverload target type with
  | some decode => some decode
  | none =>
    match enumCast type with
    | some cast => some (decodeAs decodeStringView cast)
    | none =>
      if (asSpan type).isSome then (assignBytes type).map (decodeAs decodeSpan)
      else if constructibleFromStringView type then (assignView type).map (decodeAs decodeStringView)
      else none

/-- In the place of what does not compile. -/
def uncompiled {α : Type} : Decode α := fun _ out => some (.unknownError, out)

/-- `std::is_integral_v<Elem> || std::is_floating_point_v<Elem>` -/
def isFixedSize : Ty → Bool
  | .bool => true
  | .uint _ => true
  | .sint _ => true
  | .float => true
  | .double => true
  | _ => false

/-- The loop over the elements; those behind an error keep what they hold. -/
def decodeElements {α : Type} (fixedSize : Bool) (decode : Decode α) : CborValue → List α → Option (CborError × List α)
  | _, [] => some (.noError, [])
  | valueIt, elem :: rest =>
    match decode valueIt elem with
    | none => none
    | some (err, elem) =>
      if err ≠ .noError then some (err, elem :: rest)
      else afterParse (if fixedSize then cborValueAdvanceFixed valueIt else cborValueAdvance valueIt) (elem :: rest)
        fun valueIt => (decodeElements fixedSize decode valueIt rest).map fun (err, rest) => (err, elem :: rest)

/-- The branch for ranges; `resize` is the identity where a range has none. -/
def decodeRange {α : Type} (fixedSize : Bool) (resize : Nat → List α → List α) (decode : Decode α) : Decode (List α) :=
  fun cborValue out =>
    if !cborValue.isArray then none
    else afterParse cborValue.getArrayLength out fun listLength =>
      let out := resize listLength out
      if out.length ≠ listLength then none
      else afterParse (cborValueEnterContainer cborValue) out fun valueIt => decodeElements fixedSize decode valueIt out

/-- `resize` of a vector. -/
def resizeTo {α : Type} (fresh : α) (size : Nat) (items : List α) : List α :=
  items.take size ++ List.replicate (size - items.length) fresh

/-- One call of the lambda in `for_each_field`. -/
def decodeField {α : Type} (name : Bytes) (decode : Decode α) : Decode α := fun cborValue f =>
  afterParse (cborValueMapFindValue1 cborValue name) f fun element =>
    if !element.isValid then some (.unknownError, f) else decode element f

mutual

/-- `cbor_decode` -/
def decode (target : Target) : (type : Ty) → Decode type.denote
  | .array elem size =>
    if isDecodeLeaf target (.array elem size) then (decodeLeaf target (.array elem size)).getD uncompiled
    else fun cborValue out =>
      match decodeRange (isFixedSize elem) (fun _ items => items) (decode target elem) cborValue out.val with
      | none => none
      -- the loop assigns elements, so the size is the same
      | some (err, items) => if same : items.length = size then some (err, ⟨items, same⟩) else none
  | .vector elem =>
    if isDecodeLeaf target (.vector elem) then (decodeLeaf target (.vector elem)).getD uncompiled
    else decodeRange (isFixedSize elem) (resizeTo (target.fresh elem)) (decode target elem)
  | .struct fields =>
    if isDecodeLeaf target (.struct fields) then (decodeLeaf target (.struct fields)).getD uncompiled
    else fun cborValue out =>
      if !cborValue.isMap then none
      -- the lambda has the error code, and the branch returns CborNoError
      else (decodeFields target fields cborValue out).map fun (_, out) => (.noError, out)
  | type => (decodeLeaf target type).getD uncompiled

/-- `for_each_field`; behind a field that failed the lambda returns at once. -/
def decodeFields (target : Target) : (fields : Fields) → Decode fields.denote
  | .nil => fun _ out => some (.noError, out)
  | .cons name type rest => fun cborValue out =>
    match decodeField name (decode target type) cborValue out.1 with
    | none => none
    | some (err, f) =>
      if err ≠ .noError then some (err, (f, out.2))
      else (decodeFields target rest cborValue out.2).map fun (err, others) => (err, (f, others))

end

mutual

/-- Whether `cbor_decode` compiles. -/
def decodes (target : Target) : Ty → Bool
  | .array elem size =>
    if isDecodeLeaf target (.array elem size) then (decodeLeaf target (.array elem size)).isSome else decodes target elem
  | .vector elem =>
    if isDecodeLeaf target (.vector elem) then (decodeLeaf target (.vector elem)).isSome else decodes target elem
  | .struct fields =>
    if isDecodeLeaf target (.struct fields) then (decodeLeaf target (.struct fields)).isSome
    else fieldsDecode target fields
  | type => (decodeLeaf target type).isSome

def fieldsDecode (target : Target) : Fields → Bool
  | .nil => true
  | .cons _ type rest => decodes target type && fieldsDecode target rest

end

/-- `deserialize_cbor` -/
def deserializeCbor (target : Target) (type : Ty) (item : type.denote) (buf : Bytes) : Option (Bool × type.denote) :=
  match cborParserInit buf with
  | .error _ => none
  | .ok val => (decode target type val item).map fun (error, item) => (error == .noError, item)

end AxbyCore.Serialization
