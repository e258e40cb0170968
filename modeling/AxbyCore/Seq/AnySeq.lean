import AxbyCore.Library.Endian
import AxbyCore.Library.Outcome

/-! The typed views of seq/any_seq.h and seq/float_or_double_seq.h on a memory of bytes,
and the copies between them. A view is known by its constness. -/

namespace AxbyCore
open Endian

/-- A type of elements, without qualifiers. -/
inductive ElementType where
  | void
  | float
  | double
  | other (name size : Nat)
  deriving DecidableEq, Repr

/-- `sizeof` -/
def ElementType.size : ElementType → Nat
  | .void => 1
  | .float => 4
  | .double => 8
  | .other _ size => size

structure Span where
  address : Nat
  numBytes : Nat
  deriving DecidableEq, Repr

def Span.Overlaps (one two : Span) : Prop :=
  one.address < two.address + two.numBytes ∧ two.address < one.address + one.numBytes

instance (one two : Span) : Decidable (one.Overlaps two) := inferInstanceAs (Decidable (_ ∧ _))

/-- `AnySeqImpl<IsConst>` -/
structure AnySeq (isConst : Bool) where
  logicalSize : Nat := 0
  valueTypeNocv : ElementType := .void
  span : Span := ⟨0, 0⟩
  deriving DecidableEq, Repr

namespace AnySeq
variable {isConst : Bool}

/-- The constructor from a sequence of so many elements in memory. -/
def ofSequence (type : ElementType) (address count : Nat) : AnySeq isConst where
  span := ⟨address, count * type.size⟩
  valueTypeNocv := type
  logicalSize := count * type.size / type.size

/-- The implicit copy constructor and assignment. -/
def copy (u : AnySeq isConst) : AnySeq isConst := u

/-- The constructor from a view of the other constness, which sets the span and leaves the
rest as it is by default. -/
def convert (u : AnySeq false) : AnySeq true := { span := u.span }

def isType (seq : AnySeq isConst) (type : ElementType) : Bool := type == seq.valueTypeNocv

/-- `get_span<T>`, with the CHECK of `reinterpret_span`. -/
def getSpan (seq : AnySeq isConst) (type : ElementType) : Outcome Span := do
  Outcome.check (seq.valueTypeNocv = type)
  Outcome.check (seq.span.numBytes % type.size = 0)
  return seq.span

end AnySeq

inductive Precision where
  | float
  | double
  deriving DecidableEq, Repr

def Precision.type : Precision → ElementType
  | .float => .float
  | .double => .double

def Precision.size (precision : Precision) : Nat := precision.type.size

/-- The bits of a float or of a double. -/
abbrev Precision.Bits (precision : Precision) : Type := BitVec (8 * precision.size)

/-- `FloatOrDoubleSeqImpl<IsConst>` -/
structure FloatOrDoubleSeq (isConst : Bool) where
  seq : AnySeq isConst := {}
  deriving DecidableEq, Repr

namespace FloatOrDoubleSeq
variable {isConst : Bool}

def ofSequence (precision : Precision) (address count : Nat) : FloatOrDoubleSeq isConst where
  seq := .ofSequence precision.type address count

/-- The implicit constructors and the self-constructor for one constness, which assigns. -/
def copy (fds : FloatOrDoubleSeq isConst) : FloatOrDoubleSeq isConst := { seq := fds.seq.copy }

/-- The self-constructor for the other constness: a temporary is made of the view and assigned. -/
def convert (fds : FloatOrDoubleSeq false) : FloatOrDoubleSeq true := { seq := fds.seq.convert }

def isFloat (fds : FloatOrDoubleSeq isConst) : Bool := fds.seq.isType .float

def isDouble (fds : FloatOrDoubleSeq isConst) : Bool := fds.seq.isType .double

def size (fds : FloatOrDoubleSeq isConst) : Nat := fds.seq.logicalSize

def floats (fds : FloatOrDoubleSeq isConst) : Outcome Span := do
  Outcome.check fds.isFloat
  fds.seq.getSpan .float

def doubles (fds : FloatOrDoubleSeq isConst) : Outcome Span := do
  Outcome.check fds.isDouble
  fds.seq.getSpan .double

end FloatOrDoubleSeq

abbrev Memory := Nat → UInt8

namespace Memory

def bytes (memory : Memory) (address count : Nat) : List UInt8 := (List.range count).map fun i => memory (address + i)

def write (memory : Memory) (address : Nat) (bytes : List UInt8) : Memory := fun byte =>
  if address ≤ byte then bytes[byte - address]?.getD (memory byte) else memory byte

def element (memory : Memory) (precision : Precision) (address i : Nat) : precision.Bits :=
  BitVec.ofNat _ (ofLittle (memory.bytes (address + precision.size * i) precision.size))

def writeElement (memory : Memory) (precision : Precision) (address i : Nat) (value : precision.Bits) : Memory :=
  memory.write (address + precision.size * i) (little precision.size value.toNat)

end Memory

/-- The conversions between floats and doubles, which are the processor's. -/
structure Conversion where
  toFloat : BitVec 64 → BitVec 32
  toDouble : BitVec 32 → BitVec 64

def Conversion.convert (conversion : Conversion) : (source target : Precision) → source.Bits → target.Bits
  | .float, .float => id
  | .float, .double => conversion.toDouble
  | .double, .float => conversion.toFloat
  | .double, .double => id

/-- `seq_copy_bytes`, by a `std::memcpy`, whose ranges may not overlap. -/
def seqCopyBytes (memory : Memory) (src dst : Span) : Outcome Memory := do
  Outcome.check (dst.numBytes = src.numBytes)
  Outcome.require (¬ src.Overlaps dst)
  return memory.write dst.address (memory.bytes src.address src.numBytes)

/-- `seq_copy` of floats to doubles or back. Elements of two types do not share their bytes. -/
def seqCopy (conversion : Conversion) (source target : Precision) (memory : Memory) (src dst : Span) : Outcome Memory := do
  Outcome.check (dst.numBytes / target.size = src.numBytes / source.size)
  Outcome.require (¬ src.Overlaps dst)
  return (List.range (src.numBytes / source.size)).foldl (fun memory i =>
    memory.writeElement target dst.address i (conversion.convert source target (memory.element source src.address i))) memory

namespace FloatOrDoubleSeq
variable {isConst : Bool}

/-- What `copy_from` and `write_to` both do. -/
def transfer (conversion : Conversion) (memory : Memory) (src : FloatOrDoubleSeq isConst) (dst : FloatOrDoubleSeq false) :
    Outcome Memory := do
  Outcome.check (src.size = dst.size)
  if src.isFloat && dst.isFloat then
    let source ← src.floats
    let target ← dst.floats
    seqCopyBytes memory source target
  else if src.isDouble && dst.isDouble then
    let source ← src.doubles
    let target ← dst.doubles
    seqCopyBytes memory source target
  else if dst.isFloat then
    let source ← src.doubles
    let target ← dst.floats
    seqCopy conversion .double .float memory source target
  else if dst.isDouble then
    let source ← src.floats
    let target ← dst.doubles
    seqCopy conversion .float .double memory source target
  else return memory

/-- `copy_from`, whose parameter is a const view. -/
def copyFrom (conversion : Conversion) (memory : Memory) (fds : FloatOrDoubleSeq false) (other : FloatOrDoubleSeq true) :
    Outcome Memory :=
  transfer conversion memory other fds

def writeTo (conversion : Conversion) (memory : Memory) (fds : FloatOrDoubleSeq isConst) (dst : FloatOrDoubleSeq false) :
    Outcome Memory :=
  transfer conversion memory fds dst

end FloatOrDoubleSeq
end AxbyCore
