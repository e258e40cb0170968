import AxbyCore.Proofs.RingBufferQueue
import AxbyCore.Pubsub.SubscriberQueue

/-! Requests to the subscriber thread. A call whose request finds room in the queue has it
applied in turn; nothing tells a call that its request found none. -/

namespace AxbyCore.Pubsub.Proofs
open RingBuffer RingBuffer.Proofs

/-- What a request asks of the outputs. -/
def outputOf (request : SubscriberRequest) : Option (Bytes × Option Nat × Option Nat) :=
  request.subscribeTopic.map fun topic => (topic, request.subscribeBuffer, request.subscribeItem)

/-- What a request asks of the socket, apart from the subscription. -/
def addressOf (request : SubscriberRequest) : Option Bytes :=
  if request.connectAddress = [] then none else some request.connectAddress

/-- The thread has the outputs and the connections of the requests, in their order. -/
structure AppliedTo (subscriber : Subscriber) (requests : List SubscriberRequest) : Prop where
  outputs : subscriber.outputs.map (fun output => (output.topicPrefix, output.buffer, output.item)) =
    requests.filterMap outputOf
  connected : subscriber.connected = requests.filterMap addressOf

/-- The requests of the calls that have returned are applied or in the queue, in call order. -/
structure Settled (queue : SubscriberQueue) : Prop where
  kept : queue.returned <+: queue.applied ++ queue.ring.written.drop queue.ring.popped
  applied : AppliedTo queue.subscriber queue.applied

/-- The socket connects to the addresses it is given, and a call finds fewer requests
outstanding than the queue has room for. -/
def InRoom (connects : Bytes → Bool) (queue : SubscriberQueue) : SubscriberQueueEvent → Prop
  | .call request => request.connectAddress = [] ∨ connects request.connectAddress = true
  | .write => ∀ request tail, queue.ring.producer = .fullHead request tail →
      queue.ring.held < subscriberRequestsSize - 1
  | _ => True

/-- The call in progress: its request is on its way or, once it is published, the last
one in the queue. -/
structure CallOk (queue : SubscriberQueue) : Prop where
  idle : queue.ring.producer = .idle → queue.current = none ∧ queue.ring.written = queue.returned
  writes : ∀ request, writing queue.ring.producer = some request →
    queue.current = some request ∧ queue.ring.written = queue.returned
  returns : writing queue.ring.producer = none → queue.ring.producer ≠ .idle →
    ∃ request, queue.current = some request ∧ queue.ring.written = queue.returned ++ [request]

def ReaderOk (queue : SubscriberQueue) : Prop :=
  match queue.point with
  | .top | .receiving => queue.ring.consumer = .idle
  | .reading => InRead queue.ring.consumer
  | .gone => False

/-- The address of a request can be connected to. -/
def Connectable (connects : Bytes → Bool) (request : SubscriberRequest) : Prop :=
  request.connectAddress = [] ∨ connects request.connectAddress = true

structure Served (connects : Bytes → Bool) (queue : SubscriberQueue) : Prop where
  ring : Inv subscriberRequestsSize queue.ring
  call : CallOk queue
  reader : ReaderOk queue
  applied : queue.applied = queue.ring.written.take queue.ring.popped
  outputs : AppliedTo queue.subscriber queue.applied
  written : ∀ request ∈ queue.ring.written, Connectable connects request
  onWay : ∀ request, writing queue.ring.producer = some request → Connectable connects request

variable {connects : Bytes → Bool}

theorem initial_served : Served connects {} := by
  refine ⟨initial_inv (by decide), ⟨fun _ => ⟨rfl, rfl⟩, ?_, fun _ busy => absurd rfl busy⟩, rfl, rfl, ⟨rfl, rfl⟩, ?_, ?_⟩
  · intro request held
    cases held
  · intro request member
    cases member
  · intro request held
    cases held

theorem accept_applied {subscriber : Subscriber} {requests : List SubscriberRequest}
    (applied : AppliedTo subscriber requests) (request : SubscriberRequest) (since : Nat) :
    AppliedTo (subscriber.accept request since) (requests ++ [request]) := by
  constructor
  · rw [List.filterMap_append, ← applied.outputs]
    cases topic : request.subscribeTopic with
    | none => simp [Subscriber.accept, topic, outputOf]
    | some prefixed => simp [Subscriber.accept, topic, outputOf]
  · rw [List.filterMap_append, ← applied.connected]
    by_cases none : request.connectAddress = []
    · simp [Subscriber.accept, none, addressOf]
    · simp [Subscriber.accept, none, addressOf]

section
variable {queue : SubscriberQueue}

theorem Served.settled (served : Served connects queue) : Settled queue := by
  refine ⟨?_, served.outputs⟩
  rw [served.applied, List.take_append_drop]
  cases item : writing queue.ring.producer with
  | some request => exact (served.call.writes request item).2 ▸ List.prefix_rfl
  | none =>
    by_cases idle : queue.ring.producer = .idle
    · exact (served.call.idle idle).2 ▸ List.prefix_rfl
    · obtain ⟨request, _, written⟩ := served.call.returns item idle
      exact written ▸ List.prefix_append _ _

theorem Served.beginCall (served : Served connects queue) {request : SubscriberRequest}
    (connectable : Connectable connects request) {ring : State SubscriberRequest}
    (moved : RingBuffer.step subscriberRequestsSize queue.ring (.write request) = some ring) :
    Served connects { queue with ring, current := some request } := by
  have valid := step_inv _ _ _ moved served.ring
  cases point : queue.ring.producer <;> simp only [RingBuffer.step, point, reduceCtorEq, Option.some.injEq] at moved
  subst ring
  have before := served.call.idle point
  refine ⟨valid, ⟨?_, ?_, ?_⟩, served.reader, served.applied, served.outputs, served.written, ?_⟩
  · intro idle
    cases idle
  · intro other held
    obtain rfl : request = other := Option.some.inj held
    exact ⟨rfl, before.2⟩
  · intro held
    cases held
  · intro other held
    obtain rfl : request = other := Option.some.inj held
    exact connectable

theorem writerDone_iff {ring : State SubscriberRequest} : writerDone ring = true ↔ ring.producer = .idle := by
  cases point : ring.producer <;> simp [writerDone, point]

/-- Only a call in progress makes a step. -/
theorem producer_busy {before after : State SubscriberRequest}
    (moved : RingBuffer.step subscriberRequestsSize before .producer = some after) : before.producer ≠ .idle := by
  intro idle
  simp [RingBuffer.step, producerStep, idle] at moved

/-- The writer's steps leave the reader and what it has taken alone. -/
theorem ReaderOk.frame {ring : State SubscriberRequest} (reader : ReaderOk queue) (frame : WriterFrame queue.ring ring) :
    ReaderOk { queue with ring } := by
  rcases frame.consumer with same | ⟨call, old, parked, resampled⟩
  · unfold ReaderOk at *
    simp only [same]
    exact reader
  · unfold ReaderOk at *
    cases point : queue.point <;> simp only [point, parked, resampled] at reader ⊢
    · cases reader
    · exact reader
    · cases reader

theorem take_popped {ring : State SubscriberRequest} {extra : List SubscriberRequest} (valid : Inv subscriberRequestsSize queue.ring)
    (written : ring.written = queue.ring.written ++ extra) (popped : ring.popped = queue.ring.popped) :
    ring.written.take ring.popped = queue.ring.written.take queue.ring.popped := by
  rw [written, popped, List.take_append_of_le_length valid.indices.ordered]

theorem Served.write (served : Served connects queue) (room : InRoom connects queue .write) {after : SubscriberQueue}
    (moved : queue.writeStep = some after) : Served connects after := by
  obtain ⟨ring, stepped, rfl⟩ := Option.map_eq_some_iff.mp moved
  have valid := step_inv _ _ _ stepped served.ring
  have frame := producerStep_frame stepped
  have reader := served.reader.frame frame
  cases producerStep_effect served.ring stepped with
  | refuses value tail point idle written refusals =>
    -- a refusal is seen with a full queue
    have full := valid.history.refusals queue.ring.held (by simp [refusals])
    have free := room value tail point
    omega
  | publishes value tail point written refusals done =>
    have item : writing queue.ring.producer = some value := by
      rw [point]
      rfl
    have busy : writerDone ring = false := by simp [writerDone, done]
    obtain ⟨current, same⟩ := served.call.writes value item
    rw [if_neg (by simp [busy])]
    refine ⟨valid, ⟨?_, ?_, ?_⟩, reader, ?_, served.outputs, ?_, ?_⟩
    · intro idle
      rw [done] at idle
      cases idle
    · intro request held
      rw [done] at held
      cases held
    · intro _ _
      exact ⟨value, current, by rw [written, same]⟩
    · exact served.applied.trans (take_popped served.ring written frame.popped).symm
    · intro request member
      rw [written] at member
      rcases List.mem_append.mp member with earlier | here
      · exact served.written request earlier
      · obtain rfl := List.mem_singleton.mp here
        exact served.onWay request item
    · intro request held
      rw [done] at held
      cases held
  | quiet written refusals item =>
    have applied : queue.applied = ring.written.take ring.popped :=
      served.applied.trans (take_popped served.ring (written.trans (List.append_nil _).symm) frame.popped).symm
    have good : ∀ request ∈ ring.written, Connectable connects request := by
      rw [written]
      exact served.written
    have onWay : ∀ request, writing ring.producer = some request → Connectable connects request := by
      rw [item]
      exact served.onWay
    cases finished : writerDone ring with
    | true =>
      rw [if_pos rfl]
      have idle := writerDone_iff.mp finished
      have none : writing queue.ring.producer = none := by
        rw [← item, idle]
        rfl
      obtain ⟨request, current, same⟩ := served.call.returns none (producer_busy stepped)
      refine ⟨valid, ⟨?_, ?_, ?_⟩, reader, applied, served.outputs, good, onWay⟩
      · intro _
        exact ⟨rfl, by simp [written, same, current]⟩
      · intro other held
        rw [item, none] at held
        cases held
      · intro _ busy
        exact absurd idle busy
    | false =>
      rw [if_neg Bool.false_ne_true]
      have still : ring.producer ≠ .idle := by
        intro idle
        rw [writerDone_iff.mpr idle] at finished
        cases finished
      refine ⟨valid, ⟨?_, ?_, ?_⟩, reader, applied, served.outputs, good, onWay⟩
      · intro idle
        exact absurd idle still
      · intro request held
        rw [item] at held
        obtain ⟨current, same⟩ := served.call.writes request held
        exact ⟨current, written.trans same⟩
      · intro held _
        obtain ⟨request, current, same⟩ := served.call.returns (item ▸ held) (producer_busy stepped)
        exact ⟨request, current, written.trans same⟩

theorem readerDone_iff {ring : State SubscriberRequest} : readerDone ring = true ↔ ring.consumer = .idle := by
  cases point : ring.consumer <;> simp [readerDone, point]

/-- The reader's steps leave the call in progress alone. -/
theorem CallOk.frame {ring : State SubscriberRequest} (call : CallOk queue) (written : ring.written = queue.ring.written)
    (producer : ring.producer = queue.ring.producer) {after : SubscriberQueue} (same : after.ring = ring)
    (current : after.current = queue.current) (returned : after.returned = queue.returned) : CallOk after := by
  constructor
  · rw [same, written, producer, current, returned]
    exact call.idle
  · rw [same, written, producer, current, returned]
    exact call.writes
  · rw [same, written, producer, current, returned]
    exact call.returns

theorem Served.beginRead (served : Served connects queue) {ring : State SubscriberRequest}
    (moved : RingBuffer.step subscriberRequestsSize queue.ring (.read .moveRead false) = some ring) :
    Served connects { queue with ring, point := .reading } := by
  have valid := step_inv _ _ _ moved served.ring
  cases idle : queue.ring.consumer <;> simp only [RingBuffer.step, idle, reduceCtorEq, Option.some.injEq] at moved
  subst ring
  refine ⟨valid, ⟨served.call.idle, served.call.writes, served.call.returns⟩, ?_, served.applied, served.outputs,
    served.written, served.onWay⟩
  have inOrder : ReadOp.moveRead ≠ .readLatest := by decide
  exact inOrder

theorem Served.read (served : Served connects queue) (point : queue.point = .reading) {ring : State SubscriberRequest}
    (moved : RingBuffer.step subscriberRequestsSize queue.ring .consumer = some ring) :
    Served connects (if readerDone ring then
      match ring.returned[queue.ring.returned.length]? with
      | some request => { queue with ring }.apply connects request
      | none => { queue with ring, point := .receiving }
    else { queue with ring }) := by
  have valid := step_inv _ _ _ moved served.ring
  have inRead : InRead queue.ring.consumer := by
    have reader := served.reader
    unfold ReaderOk at reader
    rwa [point] at reader
  obtain ⟨written, producer, _⟩ := consumerStep_frame moved
  have good : ∀ request ∈ ring.written, Connectable connects request := by
    rw [written]
    exact served.written
  have onWay : ∀ request, writing ring.producer = some request → Connectable connects request := by
    rw [producer]
    exact served.onWay
  have unmoved (popped : ring.popped = queue.ring.popped) : queue.applied = ring.written.take ring.popped := by
    rw [written, popped]
    exact served.applied
  cases readStep_effect served.ring inRead moved with
  | goesOn inRead popped results =>
    have busy : ¬ readerDone ring = true := by
      intro done
      rw [readerDone_iff.mp done] at inRead
      exact inRead.elim
    rw [if_neg busy]
    refine ⟨valid, served.call.frame written producer rfl rfl rfl, ?_, unmoved popped, served.outputs, good, onWay⟩
    unfold ReaderOk
    simp only [point]
    exact inRead
  | fails idle popped returned =>
    rw [if_pos (readerDone_iff.mpr idle), returned, List.getElem?_eq_none (Nat.le_refl _)]
    exact ⟨valid, served.call.frame written producer rfl rfl rfl, idle, unmoved popped, served.outputs, good, onWay⟩
  | takes request found idle popped returned =>
    have connectable := served.written request (List.mem_of_getElem? found)
    have connected : ¬ (request.connectAddress ≠ [] ∧ connects request.connectAddress = false) := by
      rintro ⟨address, fails⟩
      rcases connectable with none | succeeds
      · exact address none
      · rw [fails] at succeeds
        cases succeeds
    rw [if_pos (readerDone_iff.mpr idle), returned, List.getElem?_concat_length]
    simp only [SubscriberQueue.apply, connected, if_false]
    refine ⟨valid, served.call.frame written producer rfl rfl rfl, idle, ?_, accept_applied served.outputs request _, good,
      onWay⟩
    rw [written, popped, List.take_add_one, found, served.applied]
    rfl

theorem route_applied {subscriber : Subscriber} {requests : List SubscriberRequest} (applied : AppliedTo subscriber requests)
    (arrival : Arrival) :
    AppliedTo (subscriber.route arrival.processId arrival.isRecording arrival.room arrival.message) requests :=
  ⟨applied.outputs, applied.connected⟩

theorem Served.receive (served : Served connects queue) {arrival : Option Arrival} {after : SubscriberQueue}
    (moved : queue.next connects (.receive arrival) = some after) : Served connects after := by
  have reader := served.reader
  unfold ReaderOk at reader
  unfold SubscriberQueue.next at moved
  cases point : queue.point <;> simp only [point, reduceCtorEq] at moved reader
  cases arrival with
  | none =>
    obtain rfl := Option.some.inj moved
    exact ⟨served.ring, served.call.frame rfl rfl rfl rfl rfl, reader, served.applied, served.outputs, served.written,
      served.onWay⟩
  | some arrival =>
    obtain rfl := Option.some.inj moved
    exact ⟨served.ring, served.call.frame rfl rfl rfl rfl rfl, reader, served.applied, route_applied served.outputs arrival,
      served.written, served.onWay⟩

theorem Served.thread (served : Served connects queue) {after : SubscriberQueue}
    (moved : queue.threadStep connects = some after) : Served connects after := by
  unfold SubscriberQueue.threadStep at moved
  cases point : queue.point <;> simp only [point, reduceCtorEq] at moved
  · obtain ⟨ring, stepped, rfl⟩ := Option.map_eq_some_iff.mp moved
    exact served.beginRead stepped
  · obtain ⟨ring, stepped, rfl⟩ := Option.map_eq_some_iff.mp moved
    have read := served.read point stepped
    simp only [point] at read
    exact read

end

/-- A step that meets the condition. -/
def InRoomStep (connects : Bytes → Bool) (before : SubscriberQueue) (event : SubscriberQueueEvent)
    (after : SubscriberQueue) : Prop :=
  SubscriberQueueStep connects before event after ∧ InRoom connects before event

theorem served_step : Transitions.Preserved (InRoomStep connects) (Served connects) := by
  intro before event after ⟨moved, room⟩ served
  unfold SubscriberQueueStep at moved
  cases event with
  | call request =>
    obtain ⟨ring, stepped, rfl⟩ := Option.map_eq_some_iff.mp moved
    exact served.beginCall room stepped
  | write => exact served.write room moved
  | thread => exact served.thread moved
  | receive arrival => exact served.receive moved

/-- In a run whose calls find room in the queue and name addresses that the socket
connects to, no request of a call that has returned is lost, and they are applied in the
order of the calls. -/
theorem requests_settled (connects : Bytes → Bool) {events : List SubscriberQueueEvent} {queue : SubscriberQueue}
    (run : Transitions.Run (InRoomStep connects) {} events queue) : Settled queue :=
  (Transitions.Run.keeps run served_step initial_served).settled

/-! Two calls that are served, and one call too many. -/

/-- A test of the condition. -/
def tested (connects : Bytes → Bool) (queue : SubscriberQueue) : SubscriberQueueEvent → Bool
  | .call request => request.connectAddress.isEmpty || connects request.connectAddress
  | .write => decide (queue.ring.held < subscriberRequestsSize - 1)
  | _ => true

def testedNext (connects : Bytes → Bool) (queue : SubscriberQueue) (event : SubscriberQueueEvent) : Option SubscriberQueue :=
  if tested connects queue event then queue.next connects event else none

theorem testedNext_inRoom {before after : SubscriberQueue} {event : SubscriberQueueEvent}
    (moved : testedNext connects before event = some after) : InRoomStep connects before event after := by
  unfold testedNext at moved
  split at moved
  · rename_i room
    refine ⟨moved, ?_⟩
    cases event with
    | call request => exact (Bool.or_eq_true_iff.mp room).imp List.isEmpty_iff.mp id
    | write => exact fun _ _ _ => of_decide_eq_true room
    | thread | receive => trivial
  · cases moved

/-- The second call returns before the thread has taken the request of the first. -/
def connectSubscribe : List SubscriberQueueEvent :=
  [.call (connect [7])] ++ List.replicate 11 .write ++ [.call (subscribe [1] 0)] ++ List.replicate 11 .write ++
    List.replicate 11 .thread ++ [.receive none] ++ List.replicate 11 .thread

theorem requests_settled_once : ∃ queue : SubscriberQueue,
    Transitions.Run (InRoomStep fun _ => true) {} connectSubscribe queue ∧
      queue.returned = [connect [7], subscribe [1] 0] ∧ queue.applied = queue.returned ∧ Settled queue := by
  have executed : Transitions.execute (testedNext fun _ => true) {} connectSubscribe = some _ := rfl
  have run := (Transitions.Run.of_execute executed).mono fun _ _ _ => testedNext_inRoom
  exact ⟨_, run, rfl, rfl, requests_settled _ run⟩

/-- A call that finds room takes eleven steps. -/
def subscribes (count : Nat) : List SubscriberQueueEvent :=
  (List.range count).flatMap fun buffer => [.call (subscribe [] buffer)] ++ List.replicate 11 .write

/-- The call after nineteen others returns with its request lost. -/
theorem request_lost : ∃ queue, SubscriberQueueRun (fun _ => true)
    (subscribes 19 ++ [.call (subscribe [] 19), .write, .write]) queue ∧ ¬ Settled queue := by
  have executed : (Transitions.execute (SubscriberQueue.next fun _ => true) {}
      (subscribes 19 ++ [.call (subscribe [] 19), .write, .write])).map
        (fun queue => (queue.returned.length, queue.applied.length, queue.ring.written.length)) = some (20, 0, 19) := by
    decide +kernel
  obtain ⟨queue, run, lengths⟩ := Option.map_eq_some_iff.mp executed
  simp only [Prod.mk.injEq] at lengths
  refine ⟨queue, Transitions.Run.of_execute run, ?_⟩
  intro settled
  have longer := settled.kept.length_le
  rw [List.length_append, List.length_drop] at longer
  omega

end AxbyCore.Pubsub.Proofs
