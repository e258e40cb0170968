import AxbyCore.Library.Binary64
import AxbyCore.Pubsub.Publisher
import AxbyCore.Realsense.Messages
import Mathlib.Logic.Function.Basic

/-! Motion samples from `process_motion_frames` of realsense_streaming/server.cpp, which
batches them, to `run_motion_thread` of realsense_streaming/client.cpp. -/

namespace AxbyCore.Realsense
open Pubsub Endian

/-- `reinterpret_span<std::byte>` of a vector of 64-bit numbers. -/
def uint64Bytes (values : List UInt64) : Bytes := values.flatMap fun value => little 8 value.toNat

/-- The same of a vector of floats. -/
def floatBytes (values : List UInt32) : Bytes := values.flatMap fun value => little 4 value.toNat

def getTopic (id : StreamId) : Option Bytes := do
  let serialNumber ← id.serialNumber.str
  let name (kind : String) : Bytes := ascii kind ++ serialNumber ++ ascii "/" ++ ascii (toString id.index.toInt)
  if id.type = .color then some (name "realsense/color/")
  else if id.type = .depth then some (name "realsense/depth/")
  else if id.type = .gyro then some (name "realsense/gyro/")
  else if id.type = .accel then some (name "realsense/accel/")
  else none

/-- A frame of the motion ring buffer; the coordinates are floats. -/
structure MotionFrame where
  uid : Int32
  creationTimestampUs : UInt64
  x : UInt32
  y : UInt32
  z : UInt32

structure MotionEncoder where
  sequenceId : UInt64 := 0
  timestampsUs : List UInt64 := []
  xyzs : List UInt32 := []

/-- The encoders, and the requests made for each uid. -/
structure MotionServer where
  encoders : Int32 → Option MotionEncoder
  published : List (Int32 × PublisherRequest) := []

/-- `main` makes an encoder for each accelerometer and gyroscope. -/
def MotionServer.start (uidToStreamMeta : Int32 → Option StreamMeta) : MotionServer where
  encoders uid :=
    match uidToStreamMeta uid with
    | none => none
    | some streamMeta =>
      if streamMeta.id.type = .accel ∨ streamMeta.id.type = .gyro then some {} else none

/-- `creation_timestamp_us > first_timestamp_us + 1e6 * 0.033`, in double. -/
def flushes (creationTimestampUs firstTimestampUs : UInt64) : Bool :=
  decide (Binary64.round (Binary64.round firstTimestampUs.toNat + 33000) < Binary64.round creationTimestampUs.toNat)

/-- The message of a full encoder. -/
def MotionEncoder.request (encoder : MotionEncoder) (topic : Bytes) (padding : Vector UInt8 3 × UInt8)
    (streamMeta : StreamMeta) : PublisherRequest :=
  let frames := [simpleUInt64 encoder.sequenceId, streamMeta.bytes padding, uint64Bytes encoder.timestampsUs,
    floatBytes encoder.xyzs]
  publishFrames topic 0 frames 0

/-- One iteration of `process_motion_frames`; nothing if a lookup throws. -/
def processMotionFrame (uidToStreamMeta : Int32 → Option StreamMeta) (server : MotionServer)
    (arrival : MotionFrame × (Vector UInt8 3 × UInt8)) : Option MotionServer := do
  let (frame, padding) := arrival
  let streamMeta ← uidToStreamMeta frame.uid
  let topic ← getTopic streamMeta.id
  let encoder ← server.encoders frame.uid
  let encoder := { encoder with
    timestampsUs := encoder.timestampsUs ++ [frame.creationTimestampUs]
    xyzs := encoder.xyzs ++ [frame.x, frame.y, frame.z] }
  if flushes frame.creationTimestampUs (encoder.timestampsUs.headD 0) then
    let flushed : MotionEncoder := { sequenceId := encoder.sequenceId + 1, timestampsUs := [], xyzs := [] }
    return {
      encoders := Function.update server.encoders frame.uid (some flushed)
      published := server.published ++ [(frame.uid, encoder.request topic padding streamMeta)] }
  else
    return { server with encoders := Function.update server.encoders frame.uid (some encoder) }

def processMotionFrames (uidToStreamMeta : Int32 → Option StreamMeta)
    (arrivals : List (MotionFrame × (Vector UInt8 3 × UInt8))) : Option MotionServer :=
  arrivals.foldlM (processMotionFrame uidToStreamMeta) (.start uidToStreamMeta)

/-- `MotionData` -/
structure MotionData where
  topic : Bytes
  processId : UInt64
  sequenceId : UInt64
  streamMeta : StreamMeta
  xyzs : List UInt32
  timestampsUs : List UInt64

/-- The items of a serial number, with what was written to them. -/
structure MotionContext where
  outputGyroItem : List MotionData := []
  outputAccelItem : List MotionData := []

/-- Copying bytes into a vector of 64-bit numbers. -/
def readUInt64s (bytes : Bytes) : List UInt64 :=
  (List.range (bytes.length / 8)).map fun i => UInt64.ofNat (field bytes (8 * i) 8)

/-- Copying bytes into a vector of `3 * count` floats. -/
def readFloats (count : Nat) (bytes : Bytes) : List UInt32 :=
  (List.range (3 * count)).map fun i => UInt32.ofNat (field bytes (4 * i) 4)

abbrev MotionThread := Bytes → Option MotionContext

/-- One iteration of `run_motion_thread`; nothing if a CHECK fails, or if a message has no third or fourth frame or a
serial number that does not end within its buffer, which are taken without one. -/
def runMotionThread (thread : MotionThread) (message : Message) : Option MotionThread :=
  if message.header.messageVersion ≠ 0 then none
  else do
    let sequenceId ← message.getSimple UInt64 0
    let streamMeta ← message.getSimple StreamMeta 1
    let timestampsUsBytes ← message.frames[2]?
    let xyzBytes ← message.frames[3]?
    let serial ← streamMeta.id.serialNumber.str
    let context := (thread serial).getD {}
    let numXyzs := xyzBytes.length / 12
    if timestampsUsBytes.length / 8 ≠ numXyzs then none
    else
      let motion : MotionData := {
        topic := message.topic
        processId := message.header.senderProcessId
        sequenceId, streamMeta
        xyzs := readFloats numXyzs xyzBytes
        timestampsUs := readUInt64s timestampsUsBytes }
      let context :=
        if streamMeta.isAccel then { context with outputAccelItem := context.outputAccelItem ++ [motion] }
        else { context with outputGyroItem := context.outputGyroItem ++ [motion] }
      return Function.update thread serial (some context)

/-- A `std::memcpy` to the start of a vector that was resized for it. -/
structure VectorCopy where
  elementSize : Nat
  size : Nat
  copied : Nat
  deriving DecidableEq, Repr

/-- The bytes written behind the vector. -/
def VectorCopy.overrun (copy : VectorCopy) : Nat := copy.copied - copy.elementSize * copy.size

structure MotionCopies where
  timestampsUs : VectorCopy
  xyzs : VectorCopy
  deriving DecidableEq, Repr

/-- The copies of `run_motion_thread`; nothing if a CHECK before them fails or there are no frames to copy. The serial
number, which is read before them, has no part in them. -/
def motionCopies (message : Message) : Option MotionCopies :=
  if message.header.messageVersion ≠ 0 then none
  else do
    let _ ← message.getSimple UInt64 0
    let _ ← message.getSimple StreamMeta 1
    let timestampsUsBytes ← message.frames[2]?
    let xyzBytes ← message.frames[3]?
    let numTimestampsUs := timestampsUsBytes.length / 8
    let numXyzs := xyzBytes.length / (3 * 4)
    if numTimestampsUs ≠ numXyzs then none
    else return {
      timestampsUs := ⟨8, numTimestampsUs, timestampsUsBytes.length⟩
      xyzs := ⟨4, 3 * numXyzs, xyzBytes.length⟩ }

end AxbyCore.Realsense
