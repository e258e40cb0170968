import AxbyCore.Realsense.Motion

/-! Color images in `process_color_frames` of realsense_streaming/server.cpp. The video codec and the conversion
to its image format are outside the repository. -/

namespace AxbyCore.Realsense
open Pubsub

/-- `rs2::frame`: the profile that it is of, `get_data`, and what it says as a video or a motion frame. -/
structure Frame where
  profileUid : Int32
  data : Bytes
  width : Int32
  height : Int32
  motionData : UInt32 × UInt32 × UInt32

structure FrameData where
  uid : Int32
  creationTimestampUs : UInt64
  frame : Frame

/-- What a processing thread finds while it processes a frame: what the keyframe period of the encoder says, and the
padding of the struct in the message. -/
structure Reading where
  shouldAct : Bool
  padding : Vector UInt8 3 × UInt8

/-- `vpx_codec_cx_pkt_t`; `isFrame` is `kind == VPX_CODEC_CX_FRAME_PKT`. -/
structure VpxPacket where
  isFrame : Bool
  bytes : Bytes

/-- `rgb24_yuv420_sseu`, and `vpx_codec_encode` with the packets that `vpx_codec_get_cx_data` then has, unless
the result is not `VPX_CODEC_OK`. -/
structure Vpx where
  Codec : Type
  Image : Type
  initVpxEncoder : Intrinsics → Codec
  rgb24Yuv420 : Int32 → Int32 → Bytes → Image
  encode : Codec → Image → UInt64 → Bool → Option (Codec × List VpxPacket)

/-- `ColorEncoder` without the keyframe period; of its buffer only the dimensions outlast a frame. -/
structure ColorEncoder (vpx : Vpx) where
  sequenceId : UInt64 := 0
  encoder : vpx.Codec
  width : Int32
  height : Int32

structure ColorServer (vpx : Vpx) where
  encoders : Int32 → Option (ColorEncoder vpx)
  published : List PublisherRequest := []

/-- `main` makes an encoder for each color stream. -/
def ColorServer.start (vpx : Vpx) (uidToStreamMeta : Int32 → Option StreamMeta) : ColorServer vpx where
  encoders uid :=
    match uidToStreamMeta uid with
    | none => none
    | some streamMeta =>
      if streamMeta.id.type = .color then
        some {
          encoder := vpx.initVpxEncoder streamMeta.intrinsics
          width := streamMeta.intrinsics.width
          height := streamMeta.intrinsics.height }
      else none

/-- The packet that is sent, which has to be the only one from the first frame packet on. -/
def framePacket (packets : List VpxPacket) : Option VpxPacket :=
  match packets.dropWhile fun pkt => !pkt.isFrame with
  | [pkt] => some pkt
  -- without a frame packet a null pointer is read, and with another packet behind it a CHECK fails
  | _ => none

/-- `StreamFormat::RGB8` -/
def StreamFormat.rgb8 : StreamFormat := ⟨2⟩

/-- One iteration of `process_color_frames`; nothing if a lookup throws or a CHECK fails. -/
def processColorFrame (vpx : Vpx) (uidToStreamMeta : Int32 → Option StreamMeta) (server : ColorServer vpx)
    (frameData : FrameData) (reading : Reading) : Option (ColorServer vpx) := do
  let frame := frameData.frame
  let streamMeta ← uidToStreamMeta frameData.uid
  let topic ← getTopic streamMeta.id
  let encoder ← server.encoders frameData.uid
  let width := streamMeta.intrinsics.width
  let height := streamMeta.intrinsics.height
  if encoder.width ≠ width ∨ encoder.height ≠ height then none
  else if streamMeta.format ≠ .rgb8 then none
  else if frame.width ≠ width ∨ frame.height ≠ height then none
  else if (frame.data.length : Int) ≠ width.toInt * height.toInt * 3 then none
  else
    let image := vpx.rgb24Yuv420 width height frame.data
    let usingKeyframe := reading.shouldAct
    let (codec, packets) ← vpx.encode encoder.encoder image encoder.sequenceId usingKeyframe
    let pkt ← framePacket packets
    let frames := [simpleUInt64 frameData.creationTimestampUs, simpleUInt64 encoder.sequenceId,
      streamMeta.bytes reading.padding, pkt.bytes]
    return {
      encoders := Function.update server.encoders frameData.uid
        (some { encoder with sequenceId := encoder.sequenceId + 1, encoder := codec })
      published := server.published ++ [publishFrames topic 0 frames (if usingKeyframe then 1 else 0)] }

end AxbyCore.Realsense
