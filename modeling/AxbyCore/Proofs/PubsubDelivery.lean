import AxbyCore.Proofs.PubsubFraming
import Mathlib.Data.List.Forall2

/-! What holds of a publisher, the network and a subscriber in any interleaving:
the network has the messages sent and not yet delivered, and every output has been
written the delivered messages that match it. -/

namespace AxbyCore.Pubsub.Proofs
open Transitions

def messages (publisher : Publisher) : List Message := publisher.sent.map Prod.snd

/-- The requests that have something to publish, in order. -/
def publishedRequests (events : List LinkEvent) : List PublisherRequest :=
  events.filterMap fun
    | .publish request _ => if request.topic = [] then none else some request
    | _ => none

/-- The message carries what was asked for. -/
structure Carries (processId : UInt64) (request : PublisherRequest) (entry : Bool × Message) : Prop where
  own : entry.1 = request.headerOverride.isNone
  topic : entry.2.topic = request.topic
  frames : entry.2.frames = request.frames
  overridden : ∀ header, request.headerOverride = some header → entry.2.header = header
  made : request.headerOverride = none → entry.2.header.senderProcessId = processId ∧
    entry.2.header.protocolVersion = 0 ∧ entry.2.header.messageVersion = request.messageVersion ∧
    entry.2.header.flags = request.flags

def ownNumbers (sent : List (Bool × Message)) : List UInt64 :=
  (sent.filter Prod.fst).map (·.2.header.senderSequenceId)

/-- Every message that is published ends in a frame. -/
def EndsInFrame (events : List LinkEvent) : Prop :=
  ∀ request env, LinkEvent.publish request env ∈ events → request.topic ≠ [] → request.frames ≠ []

structure Sending (processId : UInt64) (events : List LinkEvent) (publisher : Publisher) : Prop where
  parts : Framed (messages publisher) publisher.parts
  carried : List.Forall₂ (Carries processId) (publishedRequests events) publisher.sent
  numbers : ownNumbers publisher.sent = (List.range (ownNumbers publisher.sent).length).map UInt64.ofNat
  counter : publisher.sequenceId = UInt64.ofNat (ownNumbers publisher.sent).length

structure Transit (link : Link) : Prop where
  delivered : link.delivered ≤ (messages link.publisher).length
  network : Framed ((messages link.publisher).drop link.delivered) link.network

/-- Which buffers could take each delivered message. -/
def rooms (events : List LinkEvent) : List (Nat → Bool) :=
  events.filterMap fun
    | .deliver _ room => some room
    | _ => none

/-- The messages that have come out of the network, each with the room it met. -/
def offered (events : List LinkEvent) (link : Link) : List (Message × (Nat → Bool)) :=
  ((messages link.publisher).take link.delivered).zip (rooms events)

def writesTo (writes : List (Nat × Message)) (index : Nat) : List Message :=
  (writes.filter fun write => write.1 == index).map Prod.snd

structure Routing (events : List LinkEvent) (link : Link) : Prop where
  counted : (rooms events).length = link.delivered
  since : ∀ output ∈ link.subscriber.outputs, output.since ≤ link.delivered
  known : ∀ write ∈ link.subscriber.bufferWrites, write.1 < link.subscriber.outputs.length
  written : ∀ (index : Nat) output, link.subscriber.outputs[index]? = some output → output.buffer.isSome = true →
    writesTo link.subscriber.bufferWrites index =
      (((offered events link).drop output.since).filter fun offer => matching offer.1 output && offer.2 index).map Prod.fst

/-! Sending. -/

section
variable {processId : UInt64} {events : List LinkEvent} {env : PublisherEnv} {request : PublisherRequest}
  {publisher : Publisher}

theorem makeMessage_carries (processId sequenceId : UInt64) (env : PublisherEnv) (request : PublisherRequest) :
    Carries processId request (request.headerOverride.isNone, makeMessage processId sequenceId env request) := by
  refine ⟨rfl, rfl, rfl, ?_, ?_⟩
  · intro header same
    simp [makeMessage, makeHeader, same]
  · intro none
    simp [makeMessage, makeHeader, none]

theorem publishedRequests_snoc (events : List LinkEvent) (event : LinkEvent) :
    publishedRequests (events ++ [event]) = publishedRequests events ++ publishedRequests [event] := by
  simp [publishedRequests]

theorem messages_send : messages (publisher.send processId env request) =
    messages publisher ++ [makeMessage processId publisher.sequenceId env request] := by
  simp [messages, Publisher.send]

/-- A header of the thread's own takes the next number, an overridden one takes none. -/
theorem ownNumbers_send : ownNumbers (publisher.send processId env request).sent =
    ownNumbers publisher.sent ++ if request.headerOverride.isNone then [publisher.sequenceId] else [] := by
  cases same : request.headerOverride <;> simp [Publisher.send, ownNumbers, same, makeMessage, makeHeader]

theorem sequenceId_send : (publisher.send processId env request).sequenceId =
    if request.headerOverride.isNone then publisher.sequenceId + 1 else publisher.sequenceId := by
  cases same : request.headerOverride <;> simp [Publisher.send, same]

/-- Sending a request appends one framed message. -/
theorem Sending.send (sending : Sending processId events publisher) (topic : request.topic ≠ [])
    (frames : request.frames ≠ []) :
    Sending processId (events ++ [.publish request env]) (publisher.send processId env request) := by
  have whole : (makeMessage processId publisher.sequenceId env request).frames ≠ [] := frames
  refine ⟨?_, ?_, ?_, ?_⟩
  · rw [messages_send]
    exact sending.parts.append (Framed.single env.padding whole)
  · have one : publishedRequests [.publish request env] = [request] := by simp [publishedRequests, topic]
    rw [publishedRequests_snoc, one]
    exact List.rel_append sending.carried (.cons (makeMessage_carries processId publisher.sequenceId env request) .nil)
  · rw [ownNumbers_send]
    split
    · simp only [List.length_append, List.length_singleton, List.range_succ, List.map_append, List.map_singleton]
      rw [← sending.numbers, ← sending.counter]
    · simpa using sending.numbers
  · rw [ownNumbers_send, sequenceId_send]
    split
    · rw [sending.counter, List.length_append, List.length_singleton]
      rw [UInt64.ofNat_add]
      rfl
    · simpa using sending.counter

/-- A request without a topic sends nothing. -/
theorem Sending.idle (sending : Sending processId events publisher) {event : LinkEvent}
    (nothing : publishedRequests [event] = []) : Sending processId (events ++ [event]) publisher := by
  refine ⟨sending.parts, ?_, sending.numbers, sending.counter⟩
  rw [publishedRequests_snoc, nothing, List.append_nil]
  exact sending.carried

theorem Sending.bound (sending : Sending processId events publisher) (bound : List Bytes) :
    Sending processId events { publisher with bound } :=
  ⟨sending.parts, sending.carried, sending.numbers, sending.counter⟩

end

/-! Delivery. -/

/-- More messages behind the network's last one leave the delivered ones alone. -/
theorem take_messages {sent more : List Message} {delivered : Nat} (inside : delivered ≤ sent.length) :
    (sent ++ more).take delivered = sent.take delivered := by
  rw [List.take_append_of_le_length inside]

theorem zipIdx_filter {α : Type} (list : List α) (start index : Nat) :
    (list.zipIdx start).filter (fun entry => entry.2 == start + index) =
      (list[index]?.map fun value => (value, start + index)).toList := by
  induction list generalizing start index with
  | nil => simp
  | cons value list ih =>
    cases index with
    | zero =>
      have later : (list.zipIdx (start + 1)).filter (fun entry => entry.2 == start) = [] := by
        apply List.filter_eq_nil_iff.mpr
        intro entry member
        have := List.le_snd_of_mem_zipIdx member
        simp only [beq_iff_eq]
        omega
      simp [later]
    | succ index =>
      have tail := ih (start + 1) index
      rw [Nat.add_assoc, Nat.add_comm 1 index] at tail
      simp [tail]

/-- What a message adds to the writes of one output. -/
theorem writesTo_bufferWritesOf (message : Message) (room : Nat → Bool) {outputs : List SubscriberOutput} {index : Nat}
    {output : SubscriberOutput} (found : outputs[index]? = some output) :
    writesTo (bufferWritesOf message room outputs) index =
      if matching message output && output.buffer.isSome && room index then [message] else [] := by
  have only := zipIdx_filter outputs 0 index
  simp only [Nat.zero_add, found, Option.map_some, Option.toList_some] at only
  have swap : ((outputs.zipIdx.filter fun entry =>
      matching message entry.1 && entry.1.buffer.isSome && room entry.2).filter fun entry => entry.2 == index) =
      (outputs.zipIdx.filter fun entry => entry.2 == index).filter fun entry =>
        matching message entry.1 && entry.1.buffer.isSome && room entry.2 := by
    rw [List.filter_filter, List.filter_filter]
    exact List.filter_congr fun entry _ => Bool.and_comm _ _
  have select : ((outputs.zipIdx.filter fun (entry : SubscriberOutput × Nat) =>
      matching message entry.1 && entry.1.buffer.isSome && room entry.2).map fun entry => (entry.2, message)).filter
        (fun write => write.1 == index) =
      ([(output, index)].filter fun (entry : SubscriberOutput × Nat) =>
        matching message entry.1 && entry.1.buffer.isSome && room entry.2).map fun entry => (entry.2, message) := by
    rw [List.filter_map, ← only, ← swap]
    rfl
  unfold writesTo bufferWritesOf
  rw [select]
  split
  next holds => simp [holds]
  next fails => simp [fails]

theorem bufferWritesOf_known {message : Message} {room : Nat → Bool} {outputs : List SubscriberOutput}
    {write : Nat × Message} (member : write ∈ bufferWritesOf message room outputs) : write.1 < outputs.length := by
  obtain ⟨entry, held, rfl⟩ := List.mem_map.mp member
  have inside := List.snd_lt_of_mem_zipIdx (List.mem_filter.mp held).1
  omega

theorem writesTo_append (first second : List (Nat × Message)) (index : Nat) :
    writesTo (first ++ second) index = writesTo first index ++ writesTo second index := by
  simp [writesTo]

theorem offered_length {events : List LinkEvent} {link : Link} (routing : Routing events link) (transit : Transit link) :
    (offered events link).length = link.delivered := by
  have inside := transit.delivered
  have same := routing.counted
  simp only [offered, List.length_zip, List.length_take]
  omega

/-- Sending leaves whatever has been delivered alone. -/
theorem Routing.publish {events : List LinkEvent} {link : Link} (routing : Routing events link) (transit : Transit link)
    {publisher : Publisher} {more : List Message} (grows : messages publisher = messages link.publisher ++ more)
    (network : List Part) (request : PublisherRequest) (env : PublisherEnv) :
    Routing (events ++ [.publish request env]) { link with publisher, network } := by
  have same : rooms (events ++ [.publish request env]) = rooms events := by simp [rooms]
  refine ⟨?_, routing.since, routing.known, ?_⟩
  · rw [same]
    exact routing.counted
  · intro index output found buffer
    have earlier := routing.written index output found buffer
    unfold offered at earlier ⊢
    dsimp only
    rw [grows, take_messages transit.delivered, same]
    exact earlier

/-- A new output has been written nothing, and nothing has been delivered since. -/
theorem Routing.accept {events : List LinkEvent} {link : Link} (routing : Routing events link) (transit : Transit link)
    (request : SubscriberRequest) :
    Routing (events ++ [.request request])
      { link with subscriber := link.subscriber.accept request link.delivered } := by
  have rooms_same : rooms (events ++ [.request request]) = rooms events := by simp [rooms]
  have offered_same : offered (events ++ [.request request])
      { link with subscriber := link.subscriber.accept request link.delivered } = offered events link := by
    unfold offered
    rw [rooms_same]
  cases topic : request.subscribeTopic with
  | none =>
    have same : (link.subscriber.accept request link.delivered).outputs = link.subscriber.outputs := by
      simp [Subscriber.accept, topic]
    refine ⟨?_, ?_, ?_, ?_⟩
    · rw [rooms_same]
      exact routing.counted
    · dsimp only
      rw [same]
      exact routing.since
    · dsimp only
      rw [same]
      exact routing.known
    · rw [offered_same]
      dsimp only
      rw [same]
      exact routing.written
  | some topicPrefix =>
    have same : (link.subscriber.accept request link.delivered).outputs =
        link.subscriber.outputs ++ [⟨topicPrefix, request.subscribeBuffer, request.subscribeItem, link.delivered⟩] := by
      simp [Subscriber.accept, topic]
    refine ⟨?_, ?_, ?_, ?_⟩
    · rw [rooms_same]
      exact routing.counted
    · dsimp only
      rw [same]
      intro output member
      rcases List.mem_append.mp member with older | newest
      · exact routing.since output older
      · obtain rfl := List.mem_singleton.mp newest
        exact Nat.le_refl _
    · dsimp only
      rw [same]
      intro write member
      have := routing.known write member
      simp only [List.length_append, List.length_singleton]
      omega
    · rw [offered_same]
      dsimp only
      rw [same]
      intro index output found buffer
      by_cases older : index < link.subscriber.outputs.length
      · rw [List.getElem?_append_left older] at found
        exact routing.written index output found buffer
      · rw [List.getElem?_append_right (by omega)] at found
        obtain ⟨rfl, rfl⟩ : index = link.subscriber.outputs.length ∧ _ = output := by
          have inside := (List.getElem?_eq_some_iff.mp found).1
          have zero : index - link.subscriber.outputs.length = 0 := by simpa using inside
          rw [zero] at found
          exact ⟨by omega, Option.some.inj found⟩
        have nothing : writesTo link.subscriber.bufferWrites link.subscriber.outputs.length = [] := by
          rw [writesTo, List.map_eq_nil_iff, List.filter_eq_nil_iff]
          intro write member
          have := routing.known write member
          simp only [beq_iff_eq]
          omega
        have none : (offered events link).drop link.delivered = [] :=
          List.drop_eq_nil_of_le (Nat.le_of_eq (offered_length routing transit))
        simp only [none, List.filter_nil, List.map_nil]
        exact nothing

/-- The delivered messages with the next one behind them. -/
theorem take_next {sent rest : List Message} {delivered : Nat} {message : Message}
    (next : sent.drop delivered = message :: rest) : sent.take (delivered + 1) = sent.take delivered ++ [message] := by
  have found : sent[delivered]? = some message := by
    have := congrArg List.head? next
    simpa [List.head?_drop] using this
  rw [List.take_add_one, found]
  rfl

/-- The writes of the delivered message, whether or not the socket let it through. -/
theorem Routing.deliver {events : List LinkEvent} {link : Link} (routing : Routing events link) (transit : Transit link)
    {message : Message} {rest : List Message} (next : (messages link.publisher).drop link.delivered = message :: rest)
    (network : List Part) (isRecording : Bool) (room : Nat → Bool) {subscriber : Subscriber}
    (outputs : subscriber.outputs = link.subscriber.outputs)
    (writes : subscriber.bufferWrites =
      link.subscriber.bufferWrites ++ bufferWritesOf message room link.subscriber.outputs) :
    Routing (events ++ [.deliver isRecording room]) { link with subscriber, network, delivered := link.delivered + 1 } := by
  have one : rooms (events ++ [.deliver isRecording room]) = rooms events ++ [room] := by simp [rooms]
  have grown : offered (events ++ [.deliver isRecording room])
      { link with subscriber, network, delivered := link.delivered + 1 } = offered events link ++ [(message, room)] := by
    unfold offered
    dsimp only
    have same : ((messages link.publisher).take link.delivered).length = (rooms events).length := by
      rw [List.length_take, Nat.min_eq_left transit.delivered, routing.counted]
    rw [one, take_next next, List.zip_append same]
    rfl
  refine ⟨?_, ?_, ?_, ?_⟩
  · rw [one, List.length_append, routing.counted]
    rfl
  · dsimp only
    rw [outputs]
    intro output member
    have := routing.since output member
    omega
  · dsimp only
    rw [outputs, writes]
    intro write member
    rcases List.mem_append.mp member with older | newest
    · exact routing.known write older
    · exact bufferWritesOf_known newest
  · rw [grown]
    dsimp only
    rw [outputs, writes]
    intro index output found buffer
    have earlier := routing.written index output found buffer
    have since := routing.since output (List.mem_of_getElem? found)
    have long : output.since ≤ (offered events link).length := by
      rw [offered_length routing transit]
      exact since
    rw [writesTo_append, earlier, writesTo_bufferWritesOf message room found,
      List.drop_append_of_le_length long, List.filter_append, List.map_append]
    congr 1
    simp only [buffer, Bool.and_true]
    cases matches_ : matching message output && room index <;> simp [matches_]

/-- A message that no subscription matches is written nowhere. -/
theorem bufferWritesOf_unsubscribed {subscriber : Subscriber} {padding : UInt8 × UInt8} {message : Message}
    (unmatched : subscribed subscriber (messageParts padding message) = false) (room : Nat → Bool) :
    bufferWritesOf message room subscriber.outputs = [] := by
  unfold bufferWritesOf
  rw [List.map_eq_nil_iff, List.filter_eq_nil_iff]
  intro entry member
  have held : entry.1 ∈ subscriber.outputs := List.fst_mem_of_mem_zipIdx member
  have none := List.any_eq_false.mp unmatched entry.1 held
  simp only [matching, Bool.and_eq_true, not_and]
  intro same
  exact absurd same.1 none

/-- A message in the network can be delivered, and that is all that happens. -/
theorem deliver_next {link : Link} (transit : Transit link) (nonempty : link.network ≠ []) (processId : UInt64)
    (isRecording : Bool) (room : Nat → Bool) :
    ∃ message rest network subscriber, (messages link.publisher).drop link.delivered = message :: rest ∧
      Framed rest network ∧
      link.deliver processId isRecording room =
        some { link with subscriber, network, delivered := link.delivered + 1 } ∧
      subscriber.outputs = link.subscriber.outputs ∧
      subscriber.bufferWrites =
        link.subscriber.bufferWrites ++ bufferWritesOf message room link.subscriber.outputs := by
  have framed := transit.network
  generalize pending : (messages link.publisher).drop link.delivered = waiting at framed
  generalize network : link.network = parts at framed
  cases framed with
  | nil => exact absurd network nonempty
  | @cons message rest behind padding whole tail =>
    have taken := nextMessage_messageParts whole padding behind
    have parsed := receive_messageParts whole padding []
    rw [List.append_nil] at parsed
    by_cases matched : subscribed link.subscriber (messageParts padding message) = true
    · refine ⟨message, rest, behind, link.subscriber.route processId isRecording room message, rfl, tail, ?_, rfl, rfl⟩
      simp [Link.deliver, network, taken, parsed, matched]
    · have unmatched := Bool.eq_false_iff.mpr matched
      refine ⟨message, rest, behind, link.subscriber, rfl, tail, ?_, rfl, ?_⟩
      · simp [Link.deliver, network, taken, unmatched]
      · rw [bufferWritesOf_unsubscribed unmatched, List.append_nil]

end AxbyCore.Pubsub.Proofs
