import AxbyCore.Library.Binary64
import AxbyCore.Serialization.Encode

/-! `estimate_cbor_size` of serialization/make_serializable.hpp, and `serialize_cbor`
into a vector that it resizes. -/

namespace AxbyCore.Serialization

/-- The branches of `estimate_cbor_size` in front of the one for ranges. -/
def estimateLeaf (type : Ty) : Option (type.denote → Nat) :=
  match enumName type with
  | some name => some fun value => (name value).length
  | none =>
    match asSpan type with
    | some bytes => some fun value => (bytes value).length
    | none =>
      match asStringView type with
      | some view => some fun value => (view value).length
      | none => none

/-- `sizeof` of the types that get to the last branch. -/
def sizeOfScalar : Ty → Nat
  | .bool => 1
  | .uint width => width.bits / 8
  | .sint width => width.bits / 8
  | .float => 4
  | .double => 8
  | .byte => 1
  | _ => 0

def estimateRange {α : Type} (estimate : α → Nat) (listLike : List α) : Nat :=
  listLike.foldl (fun estimatedListSize elem => (estimatedListSize + estimate elem) % 2 ^ 64) 0

mutual

/-- `estimate_cbor_size` -/
def estimateCborSize : (type : Ty) → type.denote → Nat
  | .array elem size => (estimateLeaf (.array elem size)).getD fun value => estimateRange (estimateCborSize elem) value.val
  | .vector elem => (estimateLeaf (.vector elem)).getD (estimateRange (estimateCborSize elem))
  | .struct fields => (estimateLeaf (.struct fields)).getD fun value => estimateFields fields 0 value
  | type => (estimateLeaf type).getD fun _ => sizeOfScalar type

/-- `for_each_field`, which adds to the size so far. -/
def estimateFields : (fields : Fields) → Nat → fields.denote → Nat
  | .nil => fun estimatedObjSize _ => estimatedObjSize
  | .cons name type rest => fun estimatedObjSize value =>
    let estimatedObjSize := (estimatedObjSize + name.length) % 2 ^ 64
    let estimatedObjSize := (estimatedObjSize + estimateCborSize type value.1) % 2 ^ 64
    estimateFields rest estimatedObjSize value.2

end

/-- `1.5 * size`, taken in double and converted back; the product is a multiple of a half. -/
def oneAndAHalf (size : Nat) : Nat := Binary64.round (3 * Binary64.round size) / 2

/-- `max_size` of a vector of bytes; resizing beyond it throws. -/
def maxSize : Nat := 2 ^ 63 - 1

/-- `serialize_cbor` into a vector, which has memory already or not; nothing when
`resize` throws. A vector without memory has a null pointer. -/
def serializeCborVector (type : Ty) (item : type.denote) (allocated : Bool) : Option (Bool × Bytes) :=
  let estimatedCborSize := oneAndAHalf (estimateCborSize type item)
  if maxSize < estimatedCborSize then none
  else
    let data := if allocated || estimatedCborSize != 0 then some estimatedCborSize else none
    match serializeCbor type item data with
    | some written => some (true, written)
    | none => some (false, [])

end AxbyCore.Serialization
