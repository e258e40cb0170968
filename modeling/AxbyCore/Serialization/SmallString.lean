import AxbyCore.Pubsub.Message

/-! The string of serialization/small_string.h, which lies in a buffer of its own. A failed
CHECK or a read behind the buffer has no result. -/

namespace AxbyCore.Serialization

structure SmallString (N : Nat) where
  buffer : Vector UInt8 N
  length : UInt64
  deriving DecidableEq

namespace SmallString
variable {N : Nat}

/-- `SmallString()` -/
def empty : SmallString N := ⟨Vector.replicate N 0, 0⟩

/-- `init_from_string_view` -/
def initFromStringView (string : SmallString N) (str : Bytes) : Option (SmallString N) :=
  if str.length + 1 ≤ N then
    some {
      buffer := Vector.ofFn fun i =>
        if inside : i.val < str.length then str[i.val] else if i.val = str.length then 0 else string.buffer[i.val]
      length := UInt64.ofNat str.length }
  else none

/-- The constructors from a string. -/
def ofString (str : Bytes) : Option (SmallString N) := initFromStringView empty str

/-- The bytes from `begin()` to `end()`, which are also those of `str()`, of the view and
of the hash. -/
def str (string : SmallString N) : Option Bytes :=
  if string.length.toNat ≤ N then some (string.buffer.toList.take string.length.toNat) else none

/-- `operator!=` with a string, which looks at the bytes only if the lengths are the same. -/
def ne (string : SmallString N) (other : Bytes) : Option Bool :=
  if string.length.toNat ≠ other.length then some true else string.str.map (· != other)

end SmallString
end AxbyCore.Serialization
