import AxbyCore.Library.Endian
import AxbyCore.Pubsub.Message

/-! `run_publisher_thread` of app/pubsub.cpp: requests in, parts of multipart
messages out. A message ends at its first part without the `more` flag. -/

namespace AxbyCore.Pubsub
open Endian

/-- A part handed to the socket, with `send_flags::sndmore`. -/
structure Part where
  bytes : Bytes
  more : Bool
  deriving DecidableEq, Repr

structure PublisherRequest where
  topic : Bytes := []
  messageVersion : UInt16 := 0
  flags : UInt16 := 0
  frames : List Bytes := []
  headerOverride : Option MessageHeader := none
  bindAddress : Bytes := []
  deriving DecidableEq, Repr

def bind (connectionString : Bytes) : PublisherRequest := { bindAddress := connectionString }

def publishFrames (topic : Bytes) (messageVersion : UInt16) (frames : List Bytes) (flags : UInt16) : PublisherRequest :=
  { topic, messageVersion, flags, frames }

def publishTopicOnly (topic : Bytes) : PublisherRequest := publishFrames topic 0 [] 0

def publishFramesWithManualHeader (topic : Bytes) (header : MessageHeader) (frames : List Bytes) : PublisherRequest :=
  { topic, frames, headerOverride := some header }

/-- The requests that the functions of the module make. -/
inductive Asked : PublisherRequest → Prop where
  | bind (connectionString : Bytes) : Asked (bind connectionString)
  | frames (topic : Bytes) (messageVersion : UInt16) (frames : List Bytes) (flags : UInt16) :
    Asked (publishFrames topic messageVersion frames flags)
  | topicOnly (topic : Bytes) : Asked (publishTopicOnly topic)
  | manual (topic : Bytes) (header : MessageHeader) (frames : List Bytes) :
    Asked (publishFramesWithManualHeader topic header frames)

/-- `sizeof(MessageHeader)` -/
def headerSize : Nat := 32

/-- A header as it lies in memory; the two bytes at its end are padding. -/
def headerBytes (padding : UInt8 × UInt8) (header : MessageHeader) : Bytes :=
  little 8 header.senderProcessId.toNat ++ little 8 header.senderSequenceId.toNat ++
    little 8 header.senderProcessTimeUs.toNat ++ little 2 header.protocolVersion.toNat ++
    little 2 header.messageVersion.toNat ++ little 2 header.flags.toNat ++ [padding.1, padding.2]

/-- What an iteration reads from its surroundings. -/
structure PublisherEnv where
  processTimeUs : UInt64
  padding : UInt8 × UInt8
  isRecording : Bool

/-- The thread's counter, what it has sent and bound, and the messages it has
handed to the recorder. `sent` keeps the published messages, each with whether
the thread made its header. -/
structure Publisher where
  sequenceId : UInt64 := 0
  parts : List Part := []
  bound : List Bytes := []
  recorded : List Message := []
  sent : List (Bool × Message) := []

def makeHeader (processId sequenceId : UInt64) (env : PublisherEnv) (request : PublisherRequest) : MessageHeader :=
  match request.headerOverride with
  | some header => header
  | none =>
    { senderProcessId := processId
      senderSequenceId := sequenceId
      senderProcessTimeUs := env.processTimeUs
      protocolVersion := 0
      messageVersion := request.messageVersion
      flags := request.flags }

def makeMessage (processId sequenceId : UInt64) (env : PublisherEnv) (request : PublisherRequest) : Message :=
  ⟨request.topic, makeHeader processId sequenceId env request, request.frames⟩

/-- The loop that sends the frames. -/
def frameParts (frames : List Bytes) : List Part :=
  frames.mapIdx fun i frame => ⟨frame, i + 1 != frames.length⟩

def messageParts (padding : UInt8 × UInt8) (message : Message) : List Part :=
  [⟨message.topic, true⟩, ⟨headerBytes padding message.header, true⟩] ++ frameParts message.frames

/-- Sending a request that has a topic. -/
def Publisher.send (publisher : Publisher) (processId : UInt64) (env : PublisherEnv) (request : PublisherRequest) :
    Publisher :=
  let message := makeMessage processId publisher.sequenceId env request
  { publisher with
    sequenceId := if request.headerOverride.isSome then publisher.sequenceId else publisher.sequenceId + 1
    parts := publisher.parts ++ messageParts env.padding message
    recorded := if env.isRecording then publisher.recorded ++ [message] else publisher.recorded
    sent := publisher.sent ++ [(request.headerOverride.isNone, message)] }

/-- One iteration of the loop on a request read from the queue. -/
def Publisher.iterate (publisher : Publisher) (processId : UInt64) (env : PublisherEnv) (request : PublisherRequest) :
    Option Publisher :=
  if request.bindAddress ≠ [] ∧ request.topic ≠ [] then none
  else
    let publisher := { publisher with
      bound := if request.bindAddress = [] then publisher.bound else publisher.bound ++ [request.bindAddress] }
    some (if request.topic = [] then publisher else publisher.send processId env request)

end AxbyCore.Pubsub
