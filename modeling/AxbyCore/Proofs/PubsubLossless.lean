import AxbyCore.Proofs.PubsubDelivery

/-! Pub/sub framing end to end: what the publisher thread was asked to publish is
what comes out of the subscriber thread, in every interleaving of the two. -/

namespace AxbyCore.Pubsub.Proofs
open Transitions

variable {processId : UInt64}

/-- No request that the functions of the module make fails the publisher's CHECK. -/
theorem iterate_asked {request : PublisherRequest} (asked : Asked request) (processId : UInt64) (publisher : Publisher)
    (env : PublisherEnv) :
    ∃ after, publisher.iterate processId env request = some after := by
  have exclusive : ¬ (request.bindAddress ≠ [] ∧ request.topic ≠ []) := by
    cases asked with
    | bind connectionString => simp [bind]
    | frames topic messageVersion frames flags => simp [publishFrames]
    | topicOnly topic => simp [publishTopicOnly, publishFrames]
    | manual topic header frames => simp [publishFramesWithManualHeader]
  exact ⟨_, if_neg exclusive⟩

/-- An iteration of the publisher binds, sends, or does nothing. -/
theorem iterate_cases {publisher after : Publisher} {env : PublisherEnv} {request : PublisherRequest}
    (moved : publisher.iterate processId env request = some after) :
    ∃ bound, (request.topic = [] ∧ after = { publisher with bound }) ∨
      (request.topic ≠ [] ∧ after = { publisher with bound }.send processId env request) := by
  unfold Publisher.iterate at moved
  split at moved
  · cases moved
  · cases moved
    refine ⟨if request.bindAddress = [] then publisher.bound else publisher.bound ++ [request.bindAddress], ?_⟩
    by_cases topic : request.topic = []
    · left
      exact ⟨topic, if_pos topic⟩
    · right
      exact ⟨topic, if_neg topic⟩

structure LinkInvariant (processId : UInt64) (events : List LinkEvent) (link : Link) : Prop where
  sending : Sending processId events link.publisher
  transit : Transit link
  routing : Routing events link

theorem LinkInvariant.initial : LinkInvariant processId [] {} := by
  refine ⟨⟨.nil, .nil, rfl, rfl⟩, ⟨Nat.le_refl _, .nil⟩, ⟨rfl, ?_, ?_, ?_⟩⟩
  · intro output member
    cases member
  · intro write member
    cases member
  · intro index output found
    cases found

/-- What is sent is put behind what is in the network. -/
theorem Transit.send {link : Link} (transit : Transit link) {publisher : Publisher} {message : Message}
    {padding : UInt8 × UInt8} (whole : message.frames ≠ [])
    (grows : messages publisher = messages link.publisher ++ [message])
    (parts : publisher.parts = link.publisher.parts ++ messageParts padding message) :
    Transit { link with publisher, network := link.network ++ publisher.parts.drop link.publisher.parts.length } := by
  have inside := transit.delivered
  refine ⟨?_, ?_⟩
  · dsimp only
    rw [grows, List.length_append]
    omega
  · dsimp only
    rw [grows, parts, List.drop_append_of_le_length inside, List.drop_left]
    exact transit.network.append (Framed.single padding whole)

theorem LinkInvariant.publish {events : List LinkEvent} {link : Link} (invariant : LinkInvariant processId events link)
    {publisher : Publisher} {request : PublisherRequest} {env : PublisherEnv}
    (moved : link.publisher.iterate processId env request = some publisher)
    (ends : request.topic ≠ [] → request.frames ≠ []) :
    LinkInvariant processId (events ++ [.publish request env])
      { link with publisher, network := link.network ++ publisher.parts.drop link.publisher.parts.length } := by
  obtain ⟨sending, transit, routing⟩ := invariant
  obtain ⟨bound, ⟨topic, rfl⟩ | ⟨topic, rfl⟩⟩ := iterate_cases moved
  · have nothing : publishedRequests [.publish request env] = [] := by simp [publishedRequests, topic]
    have same : messages { link.publisher with bound } = messages link.publisher ++ [] := by simp [messages]
    refine ⟨(sending.idle nothing).bound bound, ⟨transit.delivered, ?_⟩, routing.publish transit same _ request env⟩
    simpa [messages] using transit.network
  · have whole := ends topic
    have grows : messages ({ link.publisher with bound }.send processId env request) =
        messages link.publisher ++ [makeMessage processId link.publisher.sequenceId env request] := messages_send
    exact ⟨(sending.bound bound).send topic whole, transit.send whole grows rfl,
      routing.publish transit grows _ request env⟩

theorem LinkInvariant.request {events : List LinkEvent} {link : Link} (invariant : LinkInvariant processId events link)
    (request : SubscriberRequest) :
    LinkInvariant processId (events ++ [.request request])
      { link with subscriber := link.subscriber.accept request link.delivered } :=
  ⟨invariant.sending.idle rfl, ⟨invariant.transit.delivered, invariant.transit.network⟩,
    invariant.routing.accept invariant.transit request⟩

theorem LinkInvariant.deliver {events : List LinkEvent} {link after : Link}
    (invariant : LinkInvariant processId events link) {isRecording : Bool} {room : Nat → Bool}
    (moved : link.deliver processId isRecording room = some after) :
    LinkInvariant processId (events ++ [.deliver isRecording room]) after := by
  obtain ⟨sending, transit, routing⟩ := invariant
  have nonempty : link.network ≠ [] := by
    intro empty
    simp [Link.deliver, empty, nextMessage] at moved
  obtain ⟨message, rest, network, subscriber, next, framed, delivered, outputs, writes⟩ :=
    deliver_next transit nonempty processId isRecording room
  obtain rfl := Option.some.inj (delivered.symm.trans moved)
  have inside : link.delivered < (messages link.publisher).length := by
    have := congrArg List.length next
    rw [List.length_drop, List.length_cons] at this
    omega
  refine ⟨sending.idle rfl, ⟨inside, ?_⟩, routing.deliver transit next network isRecording room outputs writes⟩
  dsimp only
  rw [← List.drop_drop, next]
  exact framed

/-- Every step of the link keeps the invariant. -/
theorem LinkInvariant.step {events : List LinkEvent} {before after : Link} {event : LinkEvent}
    (moved : LinkStep processId before event after) (ends : EndsInFrame (events ++ [event]))
    (invariant : LinkInvariant processId events before) : LinkInvariant processId (events ++ [event]) after := by
  cases event with
  | publish request env =>
    obtain ⟨publisher, iterated, rfl⟩ : ∃ publisher, before.publisher.iterate processId env request = some publisher ∧
        { before with publisher, network := before.network ++ publisher.parts.drop before.publisher.parts.length } =
          after := by
      simpa [LinkStep, Link.next, Option.bind_eq_some_iff] using moved
    exact invariant.publish iterated (ends request env (by simp))
  | request request =>
    obtain rfl := Option.some.inj moved
    exact invariant.request request
  | deliver isRecording room => exact invariant.deliver moved

theorem link_invariant {events : List LinkEvent} {link : Link} (run : LinkRun processId events link)
    (ends : EndsInFrame events) : LinkInvariant processId events link := by
  have whole := run.history (fun events link => EndsInFrame events → LinkInvariant processId events link)
    (fun earlier before event after moved holds ends =>
      LinkInvariant.step moved ends (holds fun request env member => ends request env (by simp [member])))
    (fun _ => LinkInvariant.initial)
  exact whole ends

/-- What a link owes to those who use it. -/
structure Lossless (processId : UInt64) (events : List LinkEvent) (link : Link) : Prop where
  parsed : receiveAll link.publisher.parts.length link.publisher.parts = some (messages link.publisher)
  carried : List.Forall₂ (Carries processId) (publishedRequests events) link.publisher.sent
  numbered : ownNumbers link.publisher.sent =
    (List.range (ownNumbers link.publisher.sent).length).map UInt64.ofNat
  publishes : ∀ request env, Asked request → ∃ after, LinkStep processId link (.publish request env) after
  delivers : link.network ≠ [] → ∀ isRecording room, ∃ after,
    LinkStep processId link (.deliver isRecording room) after
  routed : ∀ (index : Nat) output, link.subscriber.outputs[index]? = some output → output.buffer.isSome = true →
    writesTo link.subscriber.bufferWrites index =
      (((offered events link).drop output.since).filter fun offer => matching offer.1 output && offer.2 index).map Prod.fst

/-- Whatever the interleaving, the requests with a topic are parsed back as they were
made, and a buffer is written those that match and find room. -/
theorem framing_lossless {events : List LinkEvent} {link : Link} (run : LinkRun processId events link)
    (ends : EndsInFrame events) : Lossless processId events link := by
  obtain ⟨sending, transit, routing⟩ := link_invariant run ends
  refine ⟨?_, sending.carried, sending.numbers, ?_, ?_, routing.written⟩
  · exact sending.parts.receiveAll sending.parts.length_le
  · intro request env asked
    obtain ⟨publisher, iterated⟩ := iterate_asked asked processId link.publisher env
    refine ⟨{ link with publisher, network := link.network ++ publisher.parts.drop link.publisher.parts.length }, ?_⟩
    simp [LinkStep, Link.next, iterated]
  · intro nonempty isRecording room
    obtain ⟨_, _, _, _, _, _, delivered, _⟩ := deliver_next transit nonempty processId isRecording room
    exact ⟨_, delivered⟩

private def sampleEvents : List LinkEvent :=
  [.request (subscribe (ascii "a") 5), .publish (bind (ascii "inproc://intra_process")) ⟨10, (0, 0), false⟩,
    .publish (publishFrames (ascii "ab") 1 [[1, 2], []] 0) ⟨20, (0, 0), false⟩,
    .publish (publishFramesWithManualHeader (ascii "b") {} [[3]]) ⟨30, (0, 0), false⟩,
    .deliver false fun _ => true, .deliver false fun _ => true]

theorem framing_lossless_routed : ∃ link, LinkRun 7 sampleEvents link ∧ Lossless 7 sampleEvents link ∧
    writesTo link.subscriber.bufferWrites 0 = [⟨ascii "ab", ⟨7, 0, 20, 0, 1, 0⟩, [[1, 2], []]⟩] := by
  have executed : ∃ link, execute (Link.next 7) {} sampleEvents = some link ∧
      writesTo link.subscriber.bufferWrites 0 = [⟨ascii "ab", ⟨7, 0, 20, 0, 1, 0⟩, [[1, 2], []]⟩] := ⟨_, rfl, by decide⟩
  obtain ⟨link, reached, written⟩ := executed
  have ends : EndsInFrame sampleEvents := by
    intro request env member
    simp only [sampleEvents, List.mem_cons, LinkEvent.publish.injEq, reduceCtorEq, List.not_mem_nil, false_or, or_false] at member
    rcases member with ⟨rfl, -⟩ | ⟨rfl, -⟩ | ⟨rfl, -⟩ <;> simp [bind, publishFrames, publishFramesWithManualHeader]
  have run : LinkRun 7 sampleEvents link := Run.of_execute reached
  exact ⟨link, run, framing_lossless run ends, written⟩

/-- A request with an empty topic is taken by the thread and not sent. -/
theorem empty_topic_unsent : ¬ ∀ processId events link, LinkRun processId events link →
    ∃ parsed, receiveAll link.publisher.parts.length link.publisher.parts = some parsed ∧
      List.Forall₂ (fun (request : PublisherRequest) message => message.topic = request.topic ∧
        message.frames = request.frames)
        (events.filterMap fun | .publish request _ => some request | _ => none) parsed := by
  intro claim
  have reached : execute (Link.next 7) {} [.publish (publishFrames [] 0 [[1]] 0) ⟨20, (0, 0), false⟩] = some {} := rfl
  obtain ⟨parsed, same, carried⟩ := claim 7 _ _ (Run.of_execute reached)
  obtain rfl : [] = parsed := Option.some.inj same
  cases carried

/-- Without a frame the header promises a part that only the next message brings. -/
theorem topic_only_glues (padding padding' : UInt8 × UInt8) (topic : Bytes) (header : MessageHeader) {next : Message}
    (whole : next.frames ≠ []) (rest : List Part) :
    receive (messageParts padding ⟨topic, header, []⟩ ++ (messageParts padding' next ++ rest)) =
      some (⟨topic, header, next.topic :: headerBytes padding' next.header :: next.frames⟩, rest) := by
  have frames := receiveFrames_frameParts whole rest
  have none : frameParts [] = [] := rfl
  simp [receive, receiveFrames, messageParts, none, frames, headerBytes_length, readHeader_headerBytes, guard]

end AxbyCore.Pubsub.Proofs
