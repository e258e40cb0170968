import AxbyCore.Realsense.Messages
import Mathlib.Logic.Function.Basic

/-! `run_depth_thread` and `run_color_thread` of realsense_streaming/client.cpp. What a
decoder makes of a packet is an input; a decoder is known by the packets it was passed. -/

namespace AxbyCore.Realsense
open Pubsub

/-- `INVALID_SEQUENCE_ID` -/
def invalidSequenceId : UInt64 := UInt64.ofNat (2 ^ 64 - 1)

/-- What the threads unpack from a message. `serial` is the key of the sensor in their maps. -/
structure VideoMessage where
  topic : Bytes
  processId : UInt64
  isKeyframe : Bool
  creationUs : UInt64
  sequenceId : UInt64
  streamMeta : StreamMeta
  serial : Bytes
  packet : Bytes

/-- The CHECKs on the format of a message. A message of three frames has no result because the fourth is taken without
one, and neither has a message with a serial number that does not end within its buffer. -/
def unpack (message : Message) : Option VideoMessage :=
  if message.header.messageVersion ≠ 0 then none
  else do
    let creationUs ← message.getSimple UInt64 0
    let sequenceId ← message.getSimple UInt64 1
    let streamMeta ← message.getSimple StreamMeta 2
    let packet ← message.frames[3]?
    let serial ← streamMeta.id.serialNumber.str
    return {
      topic := message.topic
      processId := message.header.senderProcessId
      isKeyframe := decide (0 < message.header.flags)
      creationUs, sequenceId, streamMeta, serial, packet }

/-- `DepthData`, with pixels of 16 bits, and `ColorData`, with bytes. -/
structure VideoData (pixel : Type) where
  topic : Bytes
  processId : UInt64
  creationTimestampUs : UInt64
  streamMeta : StreamMeta
  sequenceId : UInt64
  data : List pixel

/-- The context of a sensor. `decoder` has the packets passed to the decoder since it
was made, and `output` what was written to the output item. -/
structure VideoContext (pixel : Type) where
  decoder : List VideoMessage := []
  lastSequenceId : UInt64 := invalidSequenceId
  needKeyframe : Bool := true
  output : List (VideoData pixel) := []

variable {pixel : Type}

/-- The three assignments that make a new decoder. -/
def VideoContext.reinit (context : VideoContext pixel) : VideoContext pixel :=
  { context with decoder := [], lastSequenceId := invalidSequenceId, needKeyframe := true }

def VideoContext.dropped (context : VideoContext pixel) (video : VideoMessage) : Bool :=
  context.lastSequenceId != invalidSequenceId && context.lastSequenceId + 1 != video.sequenceId

def VideoContext.resync (context : VideoContext pixel) (video : VideoMessage) : VideoContext pixel :=
  if context.dropped video then context.reinit else context

/-- The packet goes to the decoder. -/
def VideoContext.pass (context : VideoContext pixel) (video : VideoMessage) : VideoContext pixel :=
  { context with
    decoder := context.decoder ++ [video]
    lastSequenceId := video.sequenceId
    needKeyframe := false }

def VideoContext.write (context : VideoContext pixel) (video : VideoMessage) (data : List pixel) :
    VideoContext pixel :=
  { context with
    output := context.output ++ [{
      topic := video.topic
      processId := video.processId
      creationTimestampUs := video.creationUs
      streamMeta := video.streamMeta
      sequenceId := video.sequenceId
      data }] }

/-- A packet passed to a decoder, with those that the decoder was passed before. -/
structure DecoderCall where
  earlier : List VideoMessage
  packet : VideoMessage

/-- A thread: its contexts, the serial numbers in the map of output items, the calls of
all decoders, and whether a CHECK has failed, which ends the process. -/
structure VideoThread (pixel : Type) where
  contexts : Bytes → Option (VideoContext pixel) := fun _ => none
  items : List Bytes := []
  calls : List DecoderCall := []
  aborted : Bool := false

def VideoThread.abort (thread : VideoThread pixel) : VideoThread pixel := { thread with aborted := true }

def VideoThread.store (thread : VideoThread pixel) (serial : Bytes) (context : VideoContext pixel) :
    VideoThread pixel :=
  { thread with contexts := Function.update thread.contexts serial (some context) }

def VideoThread.called (thread : VideoThread pixel) (context : VideoContext pixel) (video : VideoMessage) :
    VideoThread pixel :=
  { thread with calls := thread.calls ++ [⟨context.decoder, video⟩] }

/-- What tells the two threads apart: a CHECK on a new serial number, a CHECK on the
first packet of a decoder, and what follows the decoding; nothing if a CHECK fails there. -/
structure VideoKind (pixel outcome : Type) where
  checkNewItem : Bool
  checkKeyframe : VideoMessage → Bool
  finish : VideoContext pixel → VideoMessage → outcome → Option (VideoContext pixel)

variable {outcome : Type}

/-- From the context of the message's sensor on. -/
def VideoThread.receive (kind : VideoKind pixel outcome) (thread : VideoThread pixel) (context : VideoContext pixel)
    (video : VideoMessage) (result : outcome) : VideoThread pixel :=
  let context := context.resync video
  if context.needKeyframe && !video.isKeyframe then
    -- waiting for keyframe
    thread.store video.serial context
  else if context.needKeyframe && !kind.checkKeyframe video then
    (thread.store video.serial context).abort
  else
    let thread := thread.called context video
    let context := context.pass video
    match kind.finish context video result with
    | none => (thread.store video.serial context).abort
    | some context => thread.store video.serial context

/-- One iteration of the loop. -/
def VideoThread.iterate (kind : VideoKind pixel outcome) (thread : VideoThread pixel) (arrival : Message × outcome) :
    VideoThread pixel :=
  if thread.aborted then thread
  else
    match unpack arrival.1 with
    | none => thread.abort
    | some video =>
      match thread.contexts video.serial with
      | some context => thread.receive kind context video arrival.2
      | none =>
        if kind.checkNewItem && thread.items.contains video.serial then thread.abort
        else { thread with items := thread.items ++ [video.serial] }.receive kind {} video arrival.2

def VideoThread.run (kind : VideoKind pixel outcome) (arrivals : List (Message × outcome)) : VideoThread pixel :=
  arrivals.foldl (VideoThread.iterate kind) {}

/-- `zdepth::IsKeyFrame` -/
def zdepthIsKeyFrame (packet : Bytes) : Bool :=
  if packet.length < 40 then false
  else if packet[0]? ≠ some 202 then false
  else (packet.getD 1 0) &&& 1 != 0

/-- The result of `Decompress`: the depth image if it is `Success`. -/
abbrev DepthOutcome := Option (List UInt16)

def depthKind : VideoKind UInt16 DepthOutcome where
  checkNewItem := true
  checkKeyframe video := zdepthIsKeyFrame video.packet
  finish context video result :=
    match result with
    | none => some context.reinit
    | some depthOut => some (context.write video depthOut)

/-- An image of `vpx_codec_get_frame`, converted to RGB. -/
structure VpxImage where
  isI420 : Bool
  rgb : List UInt8

/-- The result of `vpx_codec_decode`: the images of the packet if it is `VPX_CODEC_OK`. -/
abbrev ColorOutcome := Option (List VpxImage)

/-- The loop over the images. -/
def writeImages (context : VideoContext UInt8) (video : VideoMessage) : List VpxImage → Option (VideoContext UInt8)
  | [] => some context
  | image :: images => if image.isI420 then writeImages (context.write video image.rgb) video images else none

def colorKind : VideoKind UInt8 ColorOutcome where
  checkNewItem := false
  checkKeyframe _ := true
  finish context video result :=
    match result with
    | none => none
    | some images => writeImages context video images

/-- `run_depth_thread` on the messages of its buffer. -/
def runDepthThread (arrivals : List (Message × DepthOutcome)) : VideoThread UInt16 := .run depthKind arrivals

/-- `run_color_thread` on the messages of its buffer. -/
def runColorThread (arrivals : List (Message × ColorOutcome)) : VideoThread UInt8 := .run colorKind arrivals

end AxbyCore.Realsense
