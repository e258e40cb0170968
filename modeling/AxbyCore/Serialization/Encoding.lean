import AxbyCore.Library.Rfc8949
import AxbyCore.Serialization.Types

/-! What the encoding of a value is, as items of RFC 8949, and which types and values
the language and the library's limits leave. -/

namespace AxbyCore.Serialization
open Rfc8949

def byteString (bytes : Bytes) : Bytes := head 2 bytes.length ++ bytes

def textString (text : Bytes) : Bytes := head 3 text.length ++ text

def uintItem (value : Nat) : Bytes := head 0 value

def intItem (value : Int) : Bytes := if value < 0 then head 1 (-value - 1).toNat else head 0 value.toNat

mutual

def encoding : (type : Ty) → type.denote → Bytes
  | .bool, value => head 7 (value.toNat + 20)
  | .uint _, value => uintItem value.toNat
  | .sint _, value => intItem value.toInt
  | .float, value => wideHead 7 2 value.toNat
  | .double, value => wideHead 7 3 value.toNat
  | .byte, _ => []
  | .string, text => textString text
  | .stringView, text => textString text
  | .smallString _, text => textString text.val
  | .byteSpan, bytes => byteString bytes
  | .uint8Span, bytes => byteString bytes
  | .enumeration enumerators, value => textString (enumerators.names.get value)
  | .array elem size, value =>
    match asSpan (.array elem size) with
    | some bytes => byteString (bytes value)
    | none => head 4 value.val.length ++ value.val.flatMap (encoding elem)
  | .vector elem, value =>
    match asSpan (.vector elem) with
    | some bytes => byteString (bytes value)
    | none => head 4 (List.length value) ++ List.flatMap (encoding elem) value
  | .struct fields, value => head 5 fields.names.length ++ fieldsEncoding fields value

def fieldsEncoding : (fields : Fields) → fields.denote → Bytes
  | .nil, _ => []
  | .cons name type rest, value => textString name ++ encoding type value.1 ++ fieldsEncoding rest value.2

end

mutual

/-- How deep the arrays and maps of an encoding nest. -/
def Ty.depth : Ty → Nat
  | .array elem size => if (asSpan (.array elem size)).isSome then 0 else elem.depth + 1
  | .vector elem => if (asSpan (.vector elem)).isSome then 0 else elem.depth + 1
  | .struct fields => fields.depth + 1
  | _ => 0

def Fields.depth : Fields → Nat
  | .nil => 0
  | .cons _ type rest => max type.depth rest.depth

end

/-- A name in the source text, which has no zero byte. -/
def Identifier (name : Bytes) : Prop := 0 ∉ name ∧ name.length < 2 ^ 64

mutual

/-- What the language promises of a type: the names in a struct differ. -/
def Ty.Legal : Ty → Prop
  | .enumeration enumerators => ∀ name ∈ enumerators.names, Identifier name
  | .array elem _ => elem.Legal
  | .vector elem => elem.Legal
  | .struct fields => fields.names.Nodup ∧ fields.names.length < 2 ^ 31 ∧ fields.Legal
  | _ => True

def Fields.Legal : Fields → Prop
  | .nil => True
  | .cons name type rest => Identifier name ∧ type.Legal ∧ rest.Legal

end

mutual

/-- Lists are shorter than the limit, and the bytes of a string can be counted in a `size_t`. -/
def Fits (limit : Nat) : (type : Ty) → type.denote → Prop
  | .string, text => List.length text < 2 ^ 64
  | .stringView, text => List.length text < 2 ^ 64
  | .smallString _, text => text.val.length < 2 ^ 64
  | .byteSpan, bytes => List.length bytes < 2 ^ 64
  | .uint8Span, bytes => List.length bytes < 2 ^ 64
  | .array elem size, value =>
    match asSpan (.array elem size) with
    | some bytes => (bytes value).length < 2 ^ 64
    | none => size < limit ∧ ∀ item ∈ value.val, Fits limit elem item
  | .vector elem, value =>
    match asSpan (.vector elem) with
    | some bytes => (bytes value).length < 2 ^ 64
    | none => List.length value < limit ∧ ∀ item ∈ (show List elem.denote from value), Fits limit elem item
  | .struct fields, value => FieldsFit limit fields value
  | _, _ => True

def FieldsFit (limit : Nat) : (fields : Fields) → fields.denote → Prop
  | .nil, _ => True
  | .cons _ type rest, value => Fits limit type value.1 ∧ FieldsFit limit rest value.2

end

end AxbyCore.Serialization
