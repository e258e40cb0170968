import AxbyCore.Pubsub.Link

/-! The two threads of app/pubsub.cpp that feed the recorder, with the connection that
`init` makes of the process to itself, and remote publishers. No buffer is ever full. -/

namespace AxbyCore.Pubsub

/-- Which message has been handed to the recorder: the place of a published one among the
published, or the turn in which one of a remote publisher was received. -/
inductive Origin where
  | published (index : Nat)
  | remote (turn : Nat)
  deriving DecidableEq, Repr

/-- `network` is `inproc://pubsub`, each part with the place of its message among the
published ones; `delivered` counts the messages that have come to the subscriber. -/
structure Recording where
  publisher : Publisher := {}
  network : List (Nat × Part) := []
  subscriber : Subscriber := {}
  delivered : Nat := 0
  recorderBuffer : List (Origin × Message) := []

/-- `passes` tells whether the publishing socket knew of a subscription for the message
when it was sent. -/
inductive RecordingEvent where
  | publish (request : PublisherRequest) (env : PublisherEnv)
  | request (request : SubscriberRequest)
  | deliver (passes : Bool) (isRecording : Bool) (room : Nat → Bool)
  | remote (parts : List Part) (isRecording : Bool) (room : Nat → Bool)

/-- The messages that a thread has handed to the recorder since. -/
def handed (origin : Origin) (before after : List Message) : List (Origin × Message) :=
  (after.drop before.length).map fun message => (origin, message)

/-- A message comes to the subscriber's socket; a failed CHECK ends the run. -/
def Recording.receive (state : Recording) (processId : UInt64) (isRecording : Bool) (room : Nat → Bool)
    (origin : Origin) (parts : List Part) : Option Recording :=
  let state := { state with delivered := state.delivered + 1 }
  if subscribed state.subscriber parts then do
    let (message, _) ← Pubsub.receive parts
    let subscriber := state.subscriber.route processId isRecording room message
    return { state with
      subscriber
      recorderBuffer := state.recorderBuffer ++ handed origin state.subscriber.recorded subscriber.recorded }
  else some state

/-- The publisher thread takes a request. -/
def Recording.publish (state : Recording) (processId : UInt64) (request : PublisherRequest) (env : PublisherEnv) :
    Option Recording := do
  let publisher ← state.publisher.iterate processId env request
  let index := state.publisher.sent.length
  return { state with
    publisher
    network := state.network ++ (publisher.parts.drop state.publisher.parts.length).map fun part => (index, part)
    recorderBuffer := state.recorderBuffer ++ handed (.published index) state.publisher.recorded publisher.recorded }

/-- The first whole message of `inproc://pubsub` comes to the process itself. -/
def Recording.deliver (state : Recording) (processId : UInt64) (passes isRecording : Bool) (room : Nat → Bool) :
    Option Recording :=
  match state.network with
  | [] => none
  | (index, _) :: _ => do
    let (parts, _) ← nextMessage (state.network.map Prod.snd)
    let state := { state with network := state.network.drop parts.length }
    if passes then state.receive processId isRecording room (.published index) parts
    else return { state with delivered := state.delivered + 1 }

def Recording.next (processId : UInt64) (state : Recording) : RecordingEvent → Option Recording
  | .publish request env => state.publish processId request env
  | .request request => some { state with subscriber := state.subscriber.accept request state.delivered }
  | .deliver passes isRecording room => state.deliver processId passes isRecording room
  | .remote parts isRecording room => state.receive processId isRecording room (.remote state.delivered) parts

def RecordingStep (processId : UInt64) (before : Recording) (event : RecordingEvent) (after : Recording) : Prop :=
  Recording.next processId before event = some after

def RecordingRun (processId : UInt64) (events : List RecordingEvent) (state : Recording) : Prop :=
  Transitions.Run (RecordingStep processId) {} events state

end AxbyCore.Pubsub
