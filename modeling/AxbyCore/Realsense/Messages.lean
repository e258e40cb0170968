import AxbyCore.Library.Endian
import AxbyCore.Pubsub.Message
import AxbyCore.Serialization.SmallString

/-! The structs of realsense_streaming/messages.h and the frames that carry them.
A frame holds a struct as it lies in memory; floats are kept as their bits. -/

namespace AxbyCore

namespace Pubsub

/-- How a trivially copyable type is read from as many bytes as it has. -/
class TriviallyCopyable (α : Type) where
  size : Nat
  ofBytes : (bytes : Bytes) → bytes.length = size → α

/-- `Message::get_simple`, unless one of its CHECKs fails. -/
def Message.getSimple (α : Type) [layout : TriviallyCopyable α] (message : Message) (frameIdx : Nat) : Option α :=
  match message.frames[frameIdx]? with
  | none => none
  | some frame => if size : frame.length = layout.size then some (layout.ofBytes frame size) else none

end Pubsub

namespace Realsense
open Pubsub Endian
open Serialization (SmallString)

/-- The unsigned number in the bytes at an offset. -/
def field (bytes : Bytes) (offset width : Nat) : Nat := ofLittle ((bytes.drop offset).take width)

instance : TriviallyCopyable UInt64 where
  size := 8
  ofBytes bytes _ := UInt64.ofNat (field bytes 0 8)

def simpleUInt64 (value : UInt64) : Bytes := little 8 value.toNat

/-- `SerialNumber` and `DeviceName`. Nothing keeps the length of one that was received within its buffer. -/
abbrev SerialNumber := SmallString 24

abbrev DeviceName := SmallString 24

/-- An enumeration over `uint8_t`, which can hold bytes that it has no name for. -/
structure StreamType where
  value : UInt8
  deriving DecidableEq

def StreamType.invalid : StreamType := ⟨0⟩
def StreamType.depth : StreamType := ⟨1⟩
def StreamType.color : StreamType := ⟨2⟩
def StreamType.accel : StreamType := ⟨3⟩
def StreamType.gyro : StreamType := ⟨4⟩

structure StreamFormat where
  value : UInt8
  deriving DecidableEq

structure StreamId where
  serialNumber : SerialNumber
  type : StreamType
  index : Int32
  deriving DecidableEq

structure Intrinsics where
  width : Int32
  height : Int32
  ppx : UInt32
  ppy : UInt32
  fx : UInt32
  fy : UInt32
  deriving DecidableEq

structure StreamMeta where
  id : StreamId
  deviceName : DeviceName
  format : StreamFormat
  fps : UInt16
  intrinsics : Intrinsics
  extrinsics : Vector UInt32 16
  depthScale : UInt32
  deriving DecidableEq

def StreamMeta.isAccel (streamMeta : StreamMeta) : Bool := streamMeta.id.type == .accel

/-- A `SmallString<24>` in memory. -/
def smallStringBytes (string : SmallString 24) : Bytes := string.buffer.toList ++ simpleUInt64 string.length

def Intrinsics.bytes (intrinsics : Intrinsics) : Bytes :=
  little 4 intrinsics.width.toUInt32.toNat ++ little 4 intrinsics.height.toUInt32.toNat ++
    little 4 intrinsics.ppx.toNat ++ little 4 intrinsics.ppy.toNat ++ little 4 intrinsics.fx.toNat ++
    little 4 intrinsics.fy.toNat

/-- The struct in memory. Three bytes before the index and one before the frame rate are padding. -/
def StreamMeta.bytes (padding : Vector UInt8 3 × UInt8) (streamMeta : StreamMeta) : Bytes :=
  smallStringBytes streamMeta.id.serialNumber ++ [streamMeta.id.type.value] ++ padding.1.toList ++
    little 4 streamMeta.id.index.toUInt32.toNat ++ smallStringBytes streamMeta.deviceName ++ [streamMeta.format.value] ++
    [padding.2] ++ little 2 streamMeta.fps.toNat ++ streamMeta.intrinsics.bytes ++
    streamMeta.extrinsics.toList.flatMap (fun entry => little 4 entry.toNat) ++ little 4 streamMeta.depthScale.toNat

/-- `sizeof(StreamMeta)` -/
def streamMetaSize : Nat := 168

def readSmallString (bytes : Bytes) (offset : Nat) (inside : offset + 32 ≤ bytes.length) : SmallString 24 where
  buffer := ⟨((bytes.drop offset).take 24).toArray, by simp; omega⟩
  length := UInt64.ofNat (field bytes (offset + 24) 8)

def readUInt32 (bytes : Bytes) (offset : Nat) : UInt32 := UInt32.ofNat (field bytes offset 4)

def readStreamMeta (bytes : Bytes) (size : bytes.length = streamMetaSize) : StreamMeta where
  id :=
    { serialNumber := readSmallString bytes 0 (by simp [size, streamMetaSize])
      type := ⟨UInt8.ofNat (field bytes 32 1)⟩
      index := (readUInt32 bytes 36).toInt32 }
  deviceName := readSmallString bytes 40 (by simp [size, streamMetaSize])
  format := ⟨UInt8.ofNat (field bytes 72 1)⟩
  fps := UInt16.ofNat (field bytes 74 2)
  intrinsics :=
    { width := (readUInt32 bytes 76).toInt32
      height := (readUInt32 bytes 80).toInt32
      ppx := readUInt32 bytes 84
      ppy := readUInt32 bytes 88
      fx := readUInt32 bytes 92
      fy := readUInt32 bytes 96 }
  extrinsics := Vector.ofFn fun i => readUInt32 bytes (100 + 4 * i)
  depthScale := readUInt32 bytes 164

instance : TriviallyCopyable StreamMeta where
  size := streamMetaSize
  ofBytes := readStreamMeta

end Realsense
end AxbyCore
