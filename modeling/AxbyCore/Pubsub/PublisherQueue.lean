import AxbyCore.Concurrency.RingBuffer
import AxbyCore.Pubsub.Publisher

/-! The queue of publish requests of app/pubsub.cpp between the calls that fill it, the
flag that asks for clearing it and the publisher thread that does both. Each load or
store of a shared variable is a step. -/

namespace AxbyCore.Pubsub
open RingBuffer

/-- The capacity of `publisher_requests_`. -/
def publisherRequestsSize : Nat := 1024

/-- A request, with how many calls of `publisher_requests_clear` had returned when the
call that makes it began. The number is not visible to the code. -/
structure Ticket where
  request : PublisherRequest
  clearsBefore : Nat
  deriving DecidableEq

/-- Where the publisher thread is: before its test of the flag, in
`publisher_requests_.clear()`, before the store to the flag, in `move_read`, or gone. -/
inductive PublisherPoint where
  | top
  | clearing
  | resetting
  | reading
  | gone
  deriving DecidableEq

/-- `waiting` has the calls that have not yet got `publish_requests_mutex_`. `clears` counts
the calls of `publisher_requests_clear`, `resets` those made before the thread last took
the flag back, and `discarded` has the tickets wiped, each with `resets` at that time. -/
structure PublisherQueue where
  ring : State Ticket := .initial Ticket
  waiting : List Ticket := []
  clearRequested : Bool := false
  point : PublisherPoint := .top
  clears : Nat := 0
  resets : Nat := 0
  discarded : List (Ticket × Nat) := []

inductive PublisherQueueEvent where
  | clear
  | call (request : PublisherRequest)
  | lock (index : Nat)
  | write
  | thread
  | wake

/-- The thread enters `move_read` with blocking. -/
def PublisherQueue.startRead (queue : PublisherQueue) : Option PublisherQueue :=
  (RingBuffer.step publisherRequestsSize queue.ring (.read .moveRead true)).map fun ring =>
    { queue with ring, point := .reading }

/-- What a step of the ring buffer has passed. -/
def passed (before after : State Ticket) : List Ticket :=
  (before.written.drop before.popped).take (after.popped - before.popped)

def isIdle : ConsumerPoint Ticket → Bool
  | .idle => true
  | _ => false

/-- The next step of `run_publisher_thread`. What it does with a request that it has read
is between `move_read` and the next test of the flag. -/
def PublisherQueue.threadStep (queue : PublisherQueue) : Option PublisherQueue :=
  match queue.point with
  | .gone => none
  | .top =>
    if queue.clearRequested then
      (RingBuffer.step publisherRequestsSize queue.ring .clear).map fun ring => { queue with ring, point := .clearing }
    else queue.startRead
  | .clearing =>
    (RingBuffer.step publisherRequestsSize queue.ring .consumer).map fun ring =>
      { queue with
        ring
        point := if isIdle ring.consumer then .resetting else .clearing
        discarded := queue.discarded ++ (passed queue.ring ring).map fun ticket => (ticket, queue.resets) }
  | .resetting => { queue with clearRequested := false, resets := queue.clears }.startRead
  | .reading =>
    (RingBuffer.step publisherRequestsSize queue.ring .consumer).map fun ring =>
      let taken := ring.returned.length != queue.ring.returned.length
      { queue with ring, point := if isIdle ring.consumer then (if taken then .top else .gone) else .reading }

/-- A failed CHECK on a full queue ends the process and with it the run. -/
def PublisherQueue.next (queue : PublisherQueue) : PublisherQueueEvent → Option PublisherQueue
  | .clear => some { queue with clearRequested := true, clears := queue.clears + 1 }
  | .call request => some { queue with waiting := queue.waiting ++ [⟨request, queue.clears⟩] }
  | .lock index => do
    let ticket ← queue.waiting[index]?
    let ring ← RingBuffer.step publisherRequestsSize queue.ring (.write ticket)
    return { queue with ring, waiting := queue.waiting.eraseIdx index }
  | .write => do
    let ring ← RingBuffer.step publisherRequestsSize queue.ring .producer
    if ring.refusals.length = queue.ring.refusals.length then return { queue with ring } else none
  | .thread => queue.threadStep
  | .wake => (RingBuffer.step publisherRequestsSize queue.ring .wake).map fun ring => { queue with ring }

def PublisherQueueStep (before : PublisherQueue) (event : PublisherQueueEvent) (after : PublisherQueue) : Prop :=
  before.next event = some after

def PublisherQueueRun (events : List PublisherQueueEvent) (queue : PublisherQueue) : Prop :=
  Transitions.Run PublisherQueueStep {} events queue

end AxbyCore.Pubsub
