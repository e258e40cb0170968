import AxbyCore.Realsense.Motion
import AxbyCore.Realsense.VideoClient
import AxbyCore.Zdepth.DepthCompressor

/-! Depth images from `process_depth_frames` of realsense_streaming/server.cpp, which
compresses them, to the decoders of `run_depth_thread` of realsense_streaming/client.cpp. -/

namespace AxbyCore.Realsense
open Pubsub Zdepth

/-- A frame of the depth ring buffer, with what the keyframe period of its encoder says when it is processed, and
the padding of the struct in its message. -/
structure DepthFrame where
  uid : Int32
  creationTimestampUs : UInt64
  data : List UInt16
  shouldAct : Bool
  padding : Vector UInt8 3 × UInt8

/-- `DepthEncoder` without the keyframe period. -/
structure DepthEncoder where
  sequenceId : UInt64 := 0
  encoder : DepthCompressor := {}
  buffer : Bytes := []

structure DepthServer where
  encoders : Int32 → Option DepthEncoder
  published : List PublisherRequest := []

/-- `main` makes an encoder for each depth stream. -/
def DepthServer.start (uidToStreamMeta : Int32 → Option StreamMeta) : DepthServer where
  encoders uid :=
    match uidToStreamMeta uid with
    | none => none
    | some streamMeta => if streamMeta.id.type = .depth then some {} else none

/-- The dimensions in the arithmetic of the code; a negative one is zero here. -/
def Intrinsics.columns (intrinsics : Intrinsics) : Nat := intrinsics.width.toInt.toNat
def Intrinsics.rows (intrinsics : Intrinsics) : Nat := intrinsics.height.toInt.toNat

/-- One iteration of `process_depth_frames`; nothing if a lookup throws or the CHECK fails. -/
def processDepthFrame (zstd : Zstd) (uidToStreamMeta : Int32 → Option StreamMeta) (server : DepthServer)
    (frame : DepthFrame) : Option DepthServer := do
  let streamMeta ← uidToStreamMeta frame.uid
  let topic ← getTopic streamMeta.id
  let encoder ← server.encoders frame.uid
  let requestKeyframe := frame.shouldAct
  let (compressor, compressed) := encoder.encoder.compress zstd streamMeta.intrinsics.columns streamMeta.intrinsics.rows
    frame.data requestKeyframe
  let buffer := compressed.getD encoder.buffer
  let haveKeyframe := zdepthIsKeyFrame buffer
  if requestKeyframe && !haveKeyframe then none
  else
    let frames := [simpleUInt64 frame.creationTimestampUs, simpleUInt64 encoder.sequenceId,
      streamMeta.bytes frame.padding, buffer]
    return {
      encoders := Function.update server.encoders frame.uid
        (some { sequenceId := encoder.sequenceId + 1, encoder := compressor, buffer })
      published := server.published ++ [publishFrames topic 0 frames (if haveKeyframe then 1 else 0)] }

def processDepthFrames (zstd : Zstd) (uidToStreamMeta : Int32 → Option StreamMeta) (frames : List DepthFrame) :
    Option DepthServer :=
  frames.foldlM (processDepthFrame zstd uidToStreamMeta) (.start uidToStreamMeta)

/-- A decompressor after the packets that it was passed. -/
def decompressorAfter (zstd : Zstd) (packets : List VideoMessage) : DepthCompressor :=
  packets.foldl (fun decompressor video =>
    match decompressor.decompress zstd video.packet with
    | .ok (after, _) => after
    | .error _ => decompressor) {}

/-- The result of `Decompress` for a message of a thread. -/
def decompressOutcome (zstd : Zstd) (thread : VideoThread UInt16) (message : Message) : DepthOutcome :=
  match unpack message with
  | none => none
  | some video =>
    let context := ((thread.contexts video.serial).getD {}).resync video
    match (decompressorAfter zstd context.decoder).decompress zstd video.packet with
    | .ok (_, depthOut) => some depthOut
    | .error _ => none

/-- `run_depth_thread` with its decompressors. -/
def receiveDepthMessages (zstd : Zstd) (messages : List Message) : VideoThread UInt16 :=
  messages.foldl (fun thread message => thread.iterate depthKind (message, decompressOutcome zstd thread message)) {}

end AxbyCore.Realsense
