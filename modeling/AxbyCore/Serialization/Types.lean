import AxbyCore.Pubsub.Message

/-! The C++ types that serialization/make_serializable.hpp is instantiated at, with
their values and the compile-time tests that its templates make. -/

namespace AxbyCore.Serialization

inductive Width where
  | w8
  | w16
  | w32
  | w64
  deriving DecidableEq, Repr

def Width.bits : Width → Nat
  | w8 => 8
  | w16 => 16
  | w32 => 32
  | w64 => 64

/-- The names of the enumerators of an enum, in the order of their values. -/
structure Enumerators where
  names : List Bytes
  distinct : names.Nodup
  nonempty : 0 < names.length

mutual

inductive Ty where
  | bool
  | uint (width : Width)
  | sint (width : Width)
  | float
  | double
  /-- `std::byte` -/
  | byte
  /-- `std::string` -/
  | string
  /-- `std::string_view` -/
  | stringView
  /-- `SmallString<capacity + 1>` -/
  | smallString (capacity : Nat)
  /-- `std::span<const std::byte>` -/
  | byteSpan
  /-- `std::span<const uint8_t>` -/
  | uint8Span
  | enumeration (enumerators : Enumerators)
  /-- `std::array<elem, size>` -/
  | array (elem : Ty) (size : Nat)
  /-- `std::vector<elem>` and `FastResizableVector<elem>` -/
  | vector (elem : Ty)
  | struct (fields : Fields)

inductive Fields where
  | nil
  | cons (name : Bytes) (type : Ty) (rest : Fields)

end

mutual

/-- The values of a type. Floating-point numbers are bit patterns, strings and spans
are their contents, and the value of an enum is one of its enumerators. -/
def Ty.denote : Ty → Type
  | .bool => Bool
  | .uint width => BitVec width.bits
  | .sint width => BitVec width.bits
  | .float => BitVec 32
  | .double => BitVec 64
  | .byte => UInt8
  | .string => Bytes
  | .stringView => Bytes
  | .smallString capacity => { content : Bytes // content.length ≤ capacity }
  | .byteSpan => Bytes
  | .uint8Span => Bytes
  | .enumeration enumerators => Fin enumerators.names.length
  | .array elem size => { items : List elem.denote // items.length = size }
  | .vector elem => List elem.denote
  | .struct fields => fields.denote

def Fields.denote : Fields → Type
  | .nil => Unit
  | .cons _ type rest => type.denote × rest.denote

end

def Fields.names : Fields → List Bytes
  | .nil => []
  | .cons name _ rest => name :: rest.names

/-! The compile-time tests. -/

/-- `std::is_constructible_v<std::span<const std::byte>, T>`, or of `const uint8_t`,
with the bytes of the span. -/
def asSpan : (type : Ty) → Option (type.denote → Bytes)
  | .byteSpan => some id
  | .uint8Span => some id
  | .vector .byte => some id
  | .vector (.uint .w8) => some (List.map UInt8.ofBitVec)
  | .array .byte _ => some Subtype.val
  | .array (.uint .w8) _ => some fun value => value.val.map UInt8.ofBitVec
  | _ => none

/-- `std::is_constructible_v<std::string_view, T>`, with the view. -/
def asStringView : (type : Ty) → Option (type.denote → Bytes)
  | .string => some id
  | .stringView => some id
  | .smallString _ => some Subtype.val
  | _ => none

/-- `is_enum<T>`, with `magic_enum::enum_name`. A `std::byte` has no enumerators that
it could name. -/
def enumName : (type : Ty) → Option (type.denote → Bytes)
  | .enumeration enumerators => some enumerators.names.get
  | _ => none

/-- Whether a string view converts to the type without a cast. -/
def convertsFromStringView : Ty → Bool
  | .stringView => true
  | .smallString _ => true
  | _ => false

/-- `std::is_constructible_v<T, std::string_view>`. In C++20 an aggregate can be
constructed from what its first member converts from. -/
def constructibleFromStringView : Ty → Bool
  | .string => true
  | .stringView => true
  | .smallString _ => true
  | .struct (.cons _ type _) => convertsFromStringView type
  | _ => false

end AxbyCore.Serialization
