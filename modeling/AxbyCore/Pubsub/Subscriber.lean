import AxbyCore.Pubsub.Publisher

/-! `run_subscriber_thread` of app/pubsub.cpp: parts of multipart messages in,
messages routed by topic prefix out. -/

namespace AxbyCore.Pubsub
open Endian

structure SubscriberRequest where
  subscribeTopic : Option Bytes := none
  connectAddress : Bytes := []
  subscribeBuffer : Option Nat := none
  subscribeItem : Option Nat := none
  deriving DecidableEq, Repr

def connect (connection : Bytes) : SubscriberRequest := { connectAddress := connection }

def subscribe (topic : Bytes) (buffer : Nat) : SubscriberRequest :=
  { subscribeTopic := some topic, subscribeBuffer := some buffer }

def subscribeLatest (topic : Bytes) (item : Nat) : SubscriberRequest :=
  { subscribeTopic := some topic, subscribeItem := some item }

/-- Copying the bytes of a header part into a `MessageHeader`. -/
def readHeader (bytes : Bytes) : MessageHeader where
  senderProcessId := UInt64.ofNat (ofLittle (bytes.take 8))
  senderSequenceId := UInt64.ofNat (ofLittle ((bytes.drop 8).take 8))
  senderProcessTimeUs := UInt64.ofNat (ofLittle ((bytes.drop 16).take 8))
  protocolVersion := UInt16.ofNat (ofLittle ((bytes.drop 24).take 2))
  messageVersion := UInt16.ofNat (ofLittle ((bytes.drop 26).take 2))
  flags := UInt16.ofNat (ofLittle ((bytes.drop 28).take 2))

/-- The loop that receives the frames; it fails its CHECK when there is no part. -/
def receiveFrames : List Part → Option (List Bytes × List Part)
  | [] => none
  | part :: rest =>
    if part.more then (receiveFrames rest).map fun (frames, rest) => (part.bytes :: frames, rest)
    else some ([part.bytes], rest)

/-- One message from the socket, and the parts after it, unless a CHECK fails. -/
def receive : List Part → Option (Message × List Part)
  | topic :: header :: rest => do
    guard (topic.more = true)
    let (frames, rest) ← if header.more then receiveFrames rest else some ([], rest)
    guard (header.bytes.length = headerSize)
    return (⟨topic.bytes, readHeader header.bytes, frames⟩, rest)
  | _ => none

/-- All messages of a stream of parts. -/
def receiveAll : Nat → List Part → Option (List Message)
  | _, [] => some []
  | 0, _ => none
  | fuel + 1, parts => do
    let (message, rest) ← receive parts
    let messages ← receiveAll fuel rest
    return message :: messages

/-- An output with its topic prefix. `since` is how many messages had come out of
the network when it was registered. -/
structure SubscriberOutput where
  topicPrefix : Bytes
  buffer : Option Nat
  item : Option Nat
  since : Nat

/-- What the thread has been asked for and has written. A write to a buffer or an
item is listed with the position of the output it was made for. -/
structure Subscriber where
  outputs : List SubscriberOutput := []
  connected : List Bytes := []
  bufferWrites : List (Nat × Message) := []
  itemWrites : List (Nat × Message) := []
  recorded : List Message := []

/-- The first half of an iteration: a request, if there is one. -/
def Subscriber.accept (subscriber : Subscriber) (request : SubscriberRequest) (since : Nat) : Subscriber :=
  let outputs := match request.subscribeTopic with
    | none => subscriber.outputs
    | some topic => subscriber.outputs ++ [⟨topic, request.subscribeBuffer, request.subscribeItem, since⟩]
  { subscriber with
    outputs
    connected := if request.connectAddress = [] then subscriber.connected
      else subscriber.connected ++ [request.connectAddress] }

def matching (message : Message) (output : SubscriberOutput) : Bool := output.topicPrefix.isPrefixOf message.topic

/-- The writes of a message, output by output; `room` tells which buffers can take it. -/
def bufferWritesOf (message : Message) (room : Nat → Bool) (outputs : List SubscriberOutput) : List (Nat × Message) :=
  (outputs.zipIdx.filter fun (output, index) => matching message output && output.buffer.isSome && room index).map
    fun (_, index) => (index, message)

def itemWritesOf (message : Message) (outputs : List SubscriberOutput) : List (Nat × Message) :=
  (outputs.zipIdx.filter fun (output, _) => matching message output && output.item.isSome).map
    fun (_, index) => (index, message)

/-- The second half of an iteration, on a message that has been received. -/
def Subscriber.route (subscriber : Subscriber) (processId : UInt64) (isRecording : Bool) (room : Nat → Bool)
    (message : Message) : Subscriber :=
  { subscriber with
    bufferWrites := subscriber.bufferWrites ++ bufferWritesOf message room subscriber.outputs
    itemWrites := subscriber.itemWrites ++ itemWritesOf message subscriber.outputs
    recorded := if isRecording && message.header.senderProcessId != processId then subscriber.recorded ++ [message]
      else subscriber.recorded }

end AxbyCore.Pubsub
