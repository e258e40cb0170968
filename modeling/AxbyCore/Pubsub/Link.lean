import AxbyCore.Library.Transitions
import AxbyCore.Pubsub.Subscriber

/-! A publisher and a subscriber thread of one process with the network between
them. The network hands over whole multipart messages, in order and without drops,
and the socket of the subscriber discards a message that no subscription matches. -/

namespace AxbyCore.Pubsub

/-- The first whole message in the network, and what is behind it. -/
def nextMessage : List Part → Option (List Part × List Part)
  | [] => none
  | part :: rest =>
    if part.more then (nextMessage rest).map fun (message, behind) => (part :: message, behind)
    else some ([part], rest)

/-- `network` has the parts sent and not yet handed over; `delivered` counts the
messages that have come out of it. -/
structure Link where
  publisher : Publisher := {}
  network : List Part := []
  subscriber : Subscriber := {}
  delivered : Nat := 0

inductive LinkEvent where
  | publish (request : PublisherRequest) (env : PublisherEnv)
  | request (request : SubscriberRequest)
  | deliver (isRecording : Bool) (room : Nat → Bool)

/-- Whether the socket has a subscription for a message with this first part. -/
def subscribed (subscriber : Subscriber) (message : List Part) : Bool :=
  match message with
  | [] => false
  | topic :: _ => subscriber.outputs.any fun output => output.topicPrefix.isPrefixOf topic.bytes

/-- A message comes out of the network; a failed CHECK of the subscriber ends the run. -/
def Link.deliver (link : Link) (processId : UInt64) (isRecording : Bool) (room : Nat → Bool) : Option Link := do
  let (parts, network) ← nextMessage link.network
  let link := { link with network, delivered := link.delivered + 1 }
  if subscribed link.subscriber parts then
    let (message, _) ← receive parts
    return { link with subscriber := link.subscriber.route processId isRecording room message }
  else return link

def Link.next (processId : UInt64) (link : Link) : LinkEvent → Option Link
  | .publish request env => do
    let publisher ← link.publisher.iterate processId env request
    return { link with publisher, network := link.network ++ publisher.parts.drop link.publisher.parts.length }
  | .request request => some { link with subscriber := link.subscriber.accept request link.delivered }
  | .deliver isRecording room => link.deliver processId isRecording room

def LinkStep (processId : UInt64) (before : Link) (event : LinkEvent) (after : Link) : Prop :=
  Link.next processId before event = some after

def LinkRun (processId : UInt64) (events : List LinkEvent) (link : Link) : Prop :=
  Transitions.Run (LinkStep processId) {} events link

end AxbyCore.Pubsub
