import AxbyCore.Concurrency.RingBuffer
import AxbyCore.Realsense.ColorStream
import AxbyCore.Realsense.DepthStream

/-! The threads of `main` in realsense_streaming/server.cpp: sensor threads, which are in the callback and share three
ring buffers, the three processing threads that read those, and `stop_all` of app/stop_all.cpp in any thread.
A step is one of a ring buffer, or what a thread does with a lock, a flag or a list between two of them. -/

namespace AxbyCore.Realsense
open RingBuffer (ProducerPoint producerStep consumerStep)

/-- The ring buffers and their threads. -/
inductive Kind where
  | color
  | depth
  | motion
  deriving DecidableEq, Repr

def capacity : Kind → Nat
  | .color => 10
  | .depth => 10
  | .motion => 100

/-- What `main` has set up before it starts the sensors. -/
structure Setup where
  vpx : Vpx
  zstd : Zdepth.Zstd
  uidToStreamMeta : Int32 → Option StreamMeta

/-- The ring buffer that the callback takes for a stream type, if any. -/
def kindOf (type : StreamType) : Option Kind :=
  if type = .color then some .color
  else if type = .depth then some .depth
  else if type = .accel ∨ type = .gyro then some .motion
  else none

/-! One iteration of each processing thread. -/

/-- The encoders of a thread and what it has published. -/
def Encoders (setup : Setup) : Kind → Type
  | .color => ColorServer setup.vpx
  | .depth => DepthServer
  | .motion => MotionServer

def startEncoders (setup : Setup) : (kind : Kind) → Encoders setup kind
  | .color => ColorServer.start setup.vpx setup.uidToStreamMeta
  | .depth => DepthServer.start setup.uidToStreamMeta
  | .motion => MotionServer.start setup.uidToStreamMeta

/-- A depth frame as its thread sees it: `(uint16_t*)frame.get_data()`. -/
def FrameData.depthFrame (frameData : FrameData) (reading : Reading) : DepthFrame where
  uid := frameData.uid
  creationTimestampUs := frameData.creationTimestampUs
  data := (List.range (frameData.frame.data.length / 2)).map fun i => UInt16.ofNat (field frameData.frame.data (2 * i) 2)
  shouldAct := reading.shouldAct
  padding := reading.padding

def FrameData.motionFrame (frameData : FrameData) : MotionFrame where
  uid := frameData.uid
  creationTimestampUs := frameData.creationTimestampUs
  x := frameData.frame.motionData.1
  y := frameData.frame.motionData.2.1
  z := frameData.frame.motionData.2.2

/-- The body of a thread's loop; nothing if it ends the program. -/
def process (setup : Setup) :
    (kind : Kind) → Encoders setup kind → FrameData × Reading → Option (Encoders setup kind)
  | .color, server, (frameData, reading) => processColorFrame setup.vpx setup.uidToStreamMeta server frameData reading
  | .depth, server, (frameData, reading) =>
    processDepthFrame setup.zstd setup.uidToStreamMeta server (frameData.depthFrame reading)
  | .motion, server, (frameData, reading) =>
    processMotionFrame setup.uidToStreamMeta server (frameData.motionFrame, reading.padding)

/-! Where the threads are. -/

/-- A sensor thread: not in the callback, before the lock, in `move_write`, before the unlock, or out of it by an
exception of `at`. -/
inductive CallbackPoint where
  | outside
  | locking (kind : Kind) (frameData : FrameData)
  | writing (kind : Kind) (point : ProducerPoint FrameData)
  | unlocking (kind : Kind)
  | threw

/-- A processing thread: not started, before the test of its loop, in `move_read`, in the body of its loop, ended by
what is in there, or returned. -/
inductive ProcessingPoint where
  | waiting
  | checking
  | reading
  | processing (frameData : FrameData)
  | crashed (frameData : FrameData)
  | returned

/-- `main`, from the call of `on_stop_all` on. -/
inductive ServerPoint where
  | registering
  | starting (kind : Kind)
  | looping
  | joining (kind : Kind)
  | cleanup
  deriving DecidableEq, Repr

/-- The parts of `RingBuffer::stop`. -/
inductive StopCall where
  | store
  | increment
  | notify
  deriving DecidableEq, Repr

def StopCall.event : StopCall → RingBuffer.Event FrameData
  | .store => .stop
  | .increment => .stopIncrement
  | .notify => .stopNotify

/-- What the callback does that `main` registers. -/
def stopCalls : List (Kind × StopCall) :=
  [(.color, .store), (.color, .increment), (.color, .notify), (.depth, .store), (.depth, .increment), (.depth, .notify),
    (.motion, .store), (.motion, .increment), (.motion, .notify)]

/-- A thread that calls `stop_all`: before the lock, with what is left of the callbacks, and after the unlock. -/
inductive StopPoint where
  | outside
  | locking
  | calling (rest : List (Kind × StopCall))
  | unlocking
  | returned

/-- A frame with which the callback was entered. -/
structure Arrival where
  thread : Nat
  kind : Kind
  frameData : FrameData

/-- A `move_write` with what it comes to, and the number of filled slots when that is clear. -/
structure Offer where
  arrival : Arrival
  accepted : Bool
  filled : Nat

/-- The writing threads are in `callbacks`, so that nothing is kept in `producer` of a ring buffer. The arrivals and
offers are not visible to the code. -/
structure FrameServer (setup : Setup) where
  rings : Kind → RingBuffer.State FrameData := fun _ => RingBuffer.State.initial FrameData
  mutexes : Kind → Option Nat := fun _ => none
  callbacks : Nat → CallbackPoint := fun _ => .outside
  workers : Kind → ProcessingPoint := fun _ => .waiting
  encoders : (kind : Kind) → Encoders setup kind := startEncoders setup
  main : ServerPoint := .registering
  stop : Bool := false
  onStopAll : Bool := false
  onStopAllMutex : Option Nat := none
  stoppers : Nat → StopPoint := fun _ => .outside
  arrivals : List Arrival := []
  offers : List Offer := []

inductive FrameEvent where
  | callback (thread : Nat) (frame : Frame) (processTimeUs : UInt64)
  | sensor (thread : Nat)
  | worker (kind : Kind) (reading : Reading)
  | wake (kind : Kind)
  | main
  | stopAll (thread : Nat)
  | stopper (thread : Nat)

variable {setup : Setup}

/-- The callback up to the lock. -/
def FrameServer.enter (server : FrameServer setup) (thread : Nat) (frame : Frame) (processTimeUs : UInt64) :
    FrameServer setup :=
  let uid := frame.profileUid
  match setup.uidToStreamMeta uid with
  | none => { server with callbacks := Function.update server.callbacks thread .threw }
  | some streamMeta =>
    match kindOf streamMeta.id.type with
    | none => server
    | some kind =>
      let frameData : FrameData := { uid, creationTimestampUs := processTimeUs, frame }
      { server with
        callbacks := Function.update server.callbacks thread (.locking kind frameData)
        arrivals := server.arrivals ++ [⟨thread, kind, frameData⟩] }

/-- Where a callback is when `move_write` has come to a point. -/
def CallbackPoint.written (kind : Kind) : ProducerPoint FrameData → CallbackPoint
  | .idle => .unlocking kind
  | point => .writing kind point

/-- What a step of `move_write` makes clear: the item is refused, or it is published. -/
def verdict : ProducerPoint FrameData → ProducerPoint FrameData → Option (FrameData × Bool)
  | .fullHead frameData _, .idle => some (frameData, false)
  | .storeTail frameData _, _ => some (frameData, true)
  | _, _ => none

def sensorStep (server : FrameServer setup) (thread : Nat) : Option (FrameServer setup) :=
  match server.callbacks thread with
  | .outside | .threw => none
  | .locking kind frameData =>
    if server.mutexes kind = none then
      some { server with
        mutexes := Function.update server.mutexes kind (some thread)
        callbacks := Function.update server.callbacks thread (.writing kind (RingBuffer.beginWrite frameData)) }
    else none
  | .writing kind point => do
    let before : RingBuffer.State FrameData := { server.rings kind with producer := point }
    let after ← producerStep (capacity kind) before
    let offers :=
      match verdict point after.producer with
      | none => []
      | some (frameData, accepted) => [⟨⟨thread, kind, frameData⟩, accepted, before.held⟩]
    return { server with
      rings := Function.update server.rings kind { after with producer := .idle }
      callbacks := Function.update server.callbacks thread (.written kind after.producer)
      offers := server.offers ++ offers }
  | .unlocking kind =>
    some { server with
      mutexes := Function.update server.mutexes kind none
      callbacks := Function.update server.callbacks thread .outside }

/-- Where a processing thread is when `move_read` has come to a point. -/
def ProcessingPoint.read (ring : RingBuffer.State FrameData) : ProcessingPoint :=
  match ring.consumer with
  | .idle =>
    match ring.results.getLast?.bind RingBuffer.ReadResult.item with
    | none => .returned
    | some frameData => .processing frameData
  | _ => .reading

def workerStep (server : FrameServer setup) (kind : Kind) (reading : Reading) : Option (FrameServer setup) :=
  match server.workers kind with
  | .waiting | .crashed _ | .returned => none
  | .checking =>
    if server.stop then some { server with workers := Function.update server.workers kind .returned }
    else do
      let after ← RingBuffer.step (capacity kind) (server.rings kind) (.read .moveRead true)
      return { server with
        rings := Function.update server.rings kind after
        workers := Function.update server.workers kind .reading }
  | .reading => do
    let after ← consumerStep (capacity kind) (server.rings kind)
    return { server with
      rings := Function.update server.rings kind after
      workers := Function.update server.workers kind (.read after) }
  | .processing frameData =>
    match process setup kind (server.encoders kind) (frameData, reading) with
    | none => some { server with workers := Function.update server.workers kind (.crashed frameData) }
    | some encoders =>
      some { server with
        encoders := Function.update server.encoders kind encoders
        workers := Function.update server.workers kind .checking }

/-- The next thread that is joined. -/
def ServerPoint.afterJoin : Kind → ServerPoint
  | .color => .joining .motion
  | .motion => .joining .depth
  | .depth => .cleanup

def ServerPoint.afterStart : Kind → ServerPoint
  | .color => .starting .depth
  | .depth => .starting .motion
  | .motion => .looping

def mainStep (server : FrameServer setup) : Option (FrameServer setup) :=
  match server.main with
  | .registering =>
    if server.onStopAllMutex = none then some { server with onStopAll := true, main := .starting .color } else none
  | .starting kind =>
    some { server with
      workers := Function.update server.workers kind .checking
      main := .afterStart kind }
  | .looping => some { server with main := if server.stop then .joining .color else .looping }
  | .joining kind =>
    match server.workers kind with
    | .returned => some { server with main := .afterJoin kind }
    | _ => none
  | .cleanup => none

/-- `stop_all`, whose loop over the callbacks has one of the server at most. -/
def stopperStep (server : FrameServer setup) (thread : Nat) : Option (FrameServer setup) :=
  match server.stoppers thread with
  | .outside | .returned => none
  | .locking =>
    if server.onStopAllMutex = none then
      some { server with
        onStopAllMutex := some thread
        stoppers := Function.update server.stoppers thread (.calling (if server.onStopAll then stopCalls else [])) }
    else none
  | .calling [] =>
    -- `on_stop_all_.clear()`
    some { server with
      onStopAll := false
      stoppers := Function.update server.stoppers thread .unlocking }
  | .calling ((kind, call) :: rest) => do
    let after ← RingBuffer.step (capacity kind) (server.rings kind) call.event
    return { server with
      rings := Function.update server.rings kind after
      stoppers := Function.update server.stoppers thread (.calling rest) }
  | .unlocking =>
    some { server with
      onStopAllMutex := none
      stoppers := Function.update server.stoppers thread .returned }

def FrameServer.next (server : FrameServer setup) : FrameEvent → Option (FrameServer setup)
  | .callback thread frame processTimeUs =>
    match server.callbacks thread with
    | .outside => some (server.enter thread frame processTimeUs)
    | _ => none
  | .sensor thread => sensorStep server thread
  | .worker kind reading => workerStep server kind reading
  | .wake kind => do
    let after ← RingBuffer.step (capacity kind) (server.rings kind) .wake
    return { server with rings := Function.update server.rings kind after }
  | .main => mainStep server
  | .stopAll thread =>
    match server.stoppers thread with
    | .outside =>
      some { server with stop := true, stoppers := Function.update server.stoppers thread .locking }
    | _ => none
  | .stopper thread => stopperStep server thread

def FrameStep (before : FrameServer setup) (event : FrameEvent) (after : FrameServer setup) : Prop :=
  before.next event = some after

/-- A run from where the sensors are started and `main` is about to call `on_stop_all`. -/
def FrameRun (events : List FrameEvent) (server : FrameServer setup) : Prop :=
  Transitions.Run FrameStep {} events server

end AxbyCore.Realsense
