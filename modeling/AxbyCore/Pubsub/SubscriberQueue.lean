import AxbyCore.Concurrency.RingBuffer
import AxbyCore.Pubsub.Subscriber

/-! The queue of subscriber requests of app/pubsub.cpp between `connect`, `subscribe` and
`subscribe_latest`, which fill it, and the subscriber thread, which takes at most one
request in each turn. -/

namespace AxbyCore.Pubsub
open RingBuffer

/-- The capacity of `subscriber_requests_`. -/
def subscriberRequestsSize : Nat := 20

/-- Where the subscriber thread is: at the top of its loop, in `move_read`, before or in
`recv`, or gone. -/
inductive SubscriberPoint where
  | top
  | reading
  | receiving
  | gone
  deriving DecidableEq

/-- `current` is the request of the call that has the mutex, `returned` has those of the calls
that have returned, in the order in which they had it, and `applied` those that the thread
has applied. -/
structure SubscriberQueue where
  ring : State SubscriberRequest := .initial SubscriberRequest
  current : Option SubscriberRequest := none
  returned : List SubscriberRequest := []
  point : SubscriberPoint := .top
  subscriber : Subscriber := {}
  applied : List SubscriberRequest := []
  delivered : Nat := 0

/-- What `recv` gives the thread: nothing within a second, or a message. -/
structure Arrival where
  message : Message
  processId : UInt64
  isRecording : Bool
  room : Nat → Bool

inductive SubscriberQueueEvent where
  | call (request : SubscriberRequest)
  | write
  | thread
  | receive (arrival : Option Arrival)

def writerDone (ring : State SubscriberRequest) : Bool :=
  match ring.producer with
  | .idle => true
  | _ => false

def readerDone (ring : State SubscriberRequest) : Bool :=
  match ring.consumer with
  | .idle => true
  | _ => false

/-- The next step of `move_write`. The call ignores its result, and returns in any case. -/
def SubscriberQueue.writeStep (queue : SubscriberQueue) : Option SubscriberQueue :=
  (RingBuffer.step subscriberRequestsSize queue.ring .producer).map fun ring =>
    if writerDone ring then
      { queue with ring, current := none, returned := queue.returned ++ queue.current.toList }
    else { queue with ring }

/-- A request that has been read is applied. When the socket does not connect to the
address, the thread catches the exception and returns. -/
def SubscriberQueue.apply (connects : Bytes → Bool) (queue : SubscriberQueue) (request : SubscriberRequest) :
    SubscriberQueue :=
  if request.connectAddress ≠ [] ∧ connects request.connectAddress = false then
    { queue with
      subscriber := queue.subscriber.accept { request with connectAddress := [] } queue.delivered
      point := .gone }
  else
    { queue with
      subscriber := queue.subscriber.accept request queue.delivered
      applied := queue.applied ++ [request]
      point := .receiving }

/-- The next step of `run_subscriber_thread`. The socket and the outputs belong to the
thread, so a request is applied in the step that takes it from the queue. -/
def SubscriberQueue.threadStep (connects : Bytes → Bool) (queue : SubscriberQueue) : Option SubscriberQueue :=
  match queue.point with
  | .gone | .receiving => none
  | .top =>
    (RingBuffer.step subscriberRequestsSize queue.ring (.read .moveRead false)).map fun ring =>
      { queue with ring, point := .reading }
  | .reading =>
    (RingBuffer.step subscriberRequestsSize queue.ring .consumer).map fun ring =>
      if readerDone ring then
        match ring.returned[queue.ring.returned.length]? with
        | some request => { queue with ring }.apply connects request
        | none => { queue with ring, point := .receiving }
      else { queue with ring }

def SubscriberQueue.next (connects : Bytes → Bool) (queue : SubscriberQueue) : SubscriberQueueEvent → Option SubscriberQueue
  | .call request =>
    (RingBuffer.step subscriberRequestsSize queue.ring (.write request)).map fun ring =>
      { queue with ring, current := some request }
  | .write => queue.writeStep
  | .thread => queue.threadStep connects
  | .receive arrival =>
    match queue.point with
    | .receiving =>
      match arrival with
      | none => some { queue with point := .top }
      | some arrival =>
        some { queue with
          point := .top
          delivered := queue.delivered + 1
          subscriber := queue.subscriber.route arrival.processId arrival.isRecording arrival.room arrival.message }
    | _ => none

def SubscriberQueueStep (connects : Bytes → Bool) (before : SubscriberQueue) (event : SubscriberQueueEvent)
    (after : SubscriberQueue) : Prop :=
  before.next connects event = some after

def SubscriberQueueRun (connects : Bytes → Bool) (events : List SubscriberQueueEvent) (queue : SubscriberQueue) : Prop :=
  Transitions.Run (SubscriberQueueStep connects) {} events queue

end AxbyCore.Pubsub
