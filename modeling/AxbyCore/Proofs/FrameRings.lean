import AxbyCore.Proofs.RingBufferFifo
import AxbyCore.Proofs.RingBufferQueue
import AxbyCore.Proofs.RingBufferWakeup
import AxbyCore.Realsense.FrameServer

/-! The ring buffers of the frame server are written by many threads, one at a time: with the writing thread put
back in its place, each of them goes through a run of one producer and one consumer. -/

namespace AxbyCore.Proofs.FrameServer
open Transitions Realsense RingBuffer RingBuffer.Proofs

variable {setup : Setup}

/-! What a step can do. -/

inductive Effect (before : FrameServer setup) : FrameEvent → FrameServer setup → Prop where
  | throws (thread : Nat) (frame : Frame) (processTimeUs : UInt64) (outside : before.callbacks thread = .outside) :
    Effect before (.callback thread frame processTimeUs)
      { before with callbacks := Function.update before.callbacks thread .threw }
  | ignores (thread : Nat) (frame : Frame) (processTimeUs : UInt64) :
    Effect before (.callback thread frame processTimeUs) before
  | arrives (thread : Nat) (frame : Frame) (processTimeUs : UInt64) (kind : Kind)
    (outside : before.callbacks thread = .outside) :
    Effect before (.callback thread frame processTimeUs)
      { before with
        callbacks := Function.update before.callbacks thread (.locking kind ⟨frame.profileUid, processTimeUs, frame⟩)
        arrivals := before.arrivals ++ [⟨thread, kind, ⟨frame.profileUid, processTimeUs, frame⟩⟩] }
  | locks (thread : Nat) (kind : Kind) (frameData : FrameData) (locking : before.callbacks thread = .locking kind frameData)
    (free : before.mutexes kind = none) :
    Effect before (.sensor thread)
      { before with
        mutexes := Function.update before.mutexes kind (some thread)
        callbacks := Function.update before.callbacks thread (.writing kind (beginWrite frameData)) }
  | writes (thread : Nat) (kind : Kind) (point : ProducerPoint FrameData) (ring : State FrameData)
    (writing : before.callbacks thread = .writing kind point)
    (moved : producerStep (capacity kind) { before.rings kind with producer := point } = some ring) :
    Effect before (.sensor thread)
      { before with
        rings := Function.update before.rings kind { ring with producer := .idle }
        callbacks := Function.update before.callbacks thread (.written kind ring.producer)
        offers := before.offers ++
          match verdict point ring.producer with
          | none => []
          | some (frameData, accepted) => [⟨⟨thread, kind, frameData⟩, accepted, (before.rings kind).held⟩] }
  | unlocks (thread : Nat) (kind : Kind) (unlocking : before.callbacks thread = .unlocking kind) :
    Effect before (.sensor thread)
      { before with
        mutexes := Function.update before.mutexes kind none
        callbacks := Function.update before.callbacks thread .outside }
  | leaves (kind : Kind) (reading : Reading) (checking : before.workers kind = .checking) (stop : before.stop = true) :
    Effect before (.worker kind reading) { before with workers := Function.update before.workers kind .returned }
  | begins (kind : Kind) (reading : Reading) (ring : State FrameData) (checking : before.workers kind = .checking)
    (running : before.stop = false) (moved : step (capacity kind) (before.rings kind) (.read .moveRead true) = some ring) :
    Effect before (.worker kind reading)
      { before with
        rings := Function.update before.rings kind ring
        workers := Function.update before.workers kind .reading }
  | reads (kind : Kind) (reading : Reading) (ring : State FrameData) (inRead : before.workers kind = .reading)
    (moved : consumerStep (capacity kind) (before.rings kind) = some ring) :
    Effect before (.worker kind reading)
      { before with
        rings := Function.update before.rings kind ring
        workers := Function.update before.workers kind (.read ring) }
  | crashes (kind : Kind) (reading : Reading) (frameData : FrameData) (busy : before.workers kind = .processing frameData) :
    Effect before (.worker kind reading)
      { before with workers := Function.update before.workers kind (.crashed frameData) }
  | processes (kind : Kind) (reading : Reading) (frameData : FrameData) (encoders : Encoders setup kind)
    (busy : before.workers kind = .processing frameData)
    (processed : process setup kind (before.encoders kind) (frameData, reading) = some encoders) :
    Effect before (.worker kind reading)
      { before with
        encoders := Function.update before.encoders kind encoders
        workers := Function.update before.workers kind .checking }
  | wakes (kind : Kind) (ring : State FrameData) (moved : step (capacity kind) (before.rings kind) .wake = some ring) :
    Effect before (.wake kind) { before with rings := Function.update before.rings kind ring }
  | registers (registering : before.main = .registering) (free : before.onStopAllMutex = none) :
    Effect before .main { before with onStopAll := true, main := .starting .color }
  | starts (kind : Kind) (starting : before.main = .starting kind) :
    Effect before .main
      { before with workers := Function.update before.workers kind .checking, main := .afterStart kind }
  | looks (looping : before.main = .looping) :
    Effect before .main { before with main := if before.stop then .joining .color else .looping }
  | joins (kind : Kind) (joining : before.main = .joining kind) (returned : before.workers kind = .returned) :
    Effect before .main { before with main := .afterJoin kind }
  | stops (thread : Nat) (outside : before.stoppers thread = .outside) :
    Effect before (.stopAll thread)
      { before with stop := true, stoppers := Function.update before.stoppers thread .locking }
  | takes (thread : Nat) (locking : before.stoppers thread = .locking) (free : before.onStopAllMutex = none) :
    Effect before (.stopper thread)
      { before with
        onStopAllMutex := some thread
        stoppers := Function.update before.stoppers thread (.calling (if before.onStopAll then stopCalls else [])) }
  | clears (thread : Nat) (calling : before.stoppers thread = .calling []) :
    Effect before (.stopper thread)
      { before with onStopAll := false, stoppers := Function.update before.stoppers thread .unlocking }
  | calls (thread : Nat) (kind : Kind) (call : StopCall) (rest : List (Kind × StopCall)) (ring : State FrameData)
    (calling : before.stoppers thread = .calling ((kind, call) :: rest))
    (moved : step (capacity kind) (before.rings kind) call.event = some ring) :
    Effect before (.stopper thread)
      { before with
        rings := Function.update before.rings kind ring
        stoppers := Function.update before.stoppers thread (.calling rest) }
  | gives (thread : Nat) (unlocking : before.stoppers thread = .unlocking) :
    Effect before (.stopper thread)
      { before with onStopAllMutex := none, stoppers := Function.update before.stoppers thread .returned }

theorem callback_effect {before after : FrameServer setup} {thread : Nat} {frame : Frame} {processTimeUs : UInt64}
    (moved : FrameStep before (.callback thread frame processTimeUs) after) :
    Effect before (.callback thread frame processTimeUs) after := by
  cases point : before.callbacks thread with
  | outside =>
    simp only [FrameStep, FrameServer.next, point, Option.some.injEq, FrameServer.enter] at moved
    split at moved
    · subst after
      exact .throws _ _ _ point
    · split at moved
      · subst after
        exact .ignores _ _ _
      · subst after
        exact .arrives _ _ _ _ point
  | _ => simp [FrameStep, FrameServer.next, point] at moved

theorem sensor_effect {before after : FrameServer setup} {thread : Nat} (moved : FrameStep before (.sensor thread) after) :
    Effect before (.sensor thread) after := by
  simp only [FrameStep, FrameServer.next, sensorStep] at moved
  cases point : before.callbacks thread with
  | outside | threw => simp [point] at moved
  | locking kind frameData =>
    simp only [point] at moved
    split at moved
    next free =>
      obtain rfl := Option.some.inj moved
      exact .locks _ _ _ point free
    next => contradiction
  | writing kind place =>
    simp only [point, Option.bind_eq_bind, Option.bind_eq_some_iff] at moved
    obtain ⟨ring, moved, same⟩ := moved
    obtain rfl := Option.some.inj same
    exact .writes _ _ _ _ point moved
  | unlocking kind =>
    simp only [point, Option.some.injEq] at moved
    subst after
    exact .unlocks _ _ point

theorem worker_effect {before after : FrameServer setup} {kind : Kind} {reading : Reading}
    (moved : FrameStep before (.worker kind reading) after) : Effect before (.worker kind reading) after := by
  simp only [FrameStep, FrameServer.next, workerStep] at moved
  cases point : before.workers kind with
  | waiting | crashed | returned => simp [point] at moved
  | checking =>
    simp only [point] at moved
    split at moved
    next stop =>
      obtain rfl := Option.some.inj moved
      exact .leaves _ _ point stop
    next running =>
      simp only [Option.bind_eq_bind, Option.bind_eq_some_iff] at moved
      obtain ⟨ring, moved, same⟩ := moved
      obtain rfl := Option.some.inj same
      exact .begins _ _ _ point (by simpa using running) moved
  | reading =>
    simp only [point, Option.bind_eq_bind, Option.bind_eq_some_iff] at moved
    obtain ⟨ring, moved, same⟩ := moved
    obtain rfl := Option.some.inj same
    exact .reads _ _ _ point moved
  | processing frameData =>
    simp only [point] at moved
    cases processed : process setup kind (before.encoders kind) (frameData, reading) with
    | none =>
      simp only [processed, Option.some.injEq] at moved
      subst after
      exact .crashes _ _ _ point
    | some encoders =>
      simp only [processed, Option.some.injEq] at moved
      subst after
      exact .processes _ _ _ _ point processed

theorem main_effect {before after : FrameServer setup} (moved : FrameStep before .main after) :
    Effect before .main after := by
  simp only [FrameStep, FrameServer.next, mainStep] at moved
  cases point : before.main with
  | registering =>
    simp only [point] at moved
    split at moved
    next free =>
      obtain rfl := Option.some.inj moved
      exact .registers point free
    next => contradiction
  | starting kind =>
    simp only [point, Option.some.injEq] at moved
    subst after
    exact .starts _ point
  | looping =>
    simp only [point, Option.some.injEq] at moved
    subst after
    exact .looks point
  | joining kind =>
    simp only [point] at moved
    split at moved
    next returned =>
      obtain rfl := Option.some.inj moved
      exact .joins _ point returned
    next => contradiction
  | cleanup => simp [point] at moved

theorem stopper_effect {before after : FrameServer setup} {thread : Nat} (moved : FrameStep before (.stopper thread) after) :
    Effect before (.stopper thread) after := by
  simp only [FrameStep, FrameServer.next, stopperStep] at moved
  cases point : before.stoppers thread with
  | outside | returned => simp [point] at moved
  | locking =>
    simp only [point] at moved
    split at moved
    next free =>
      obtain rfl := Option.some.inj moved
      exact .takes _ point free
    next => contradiction
  | calling rest =>
    cases rest with
    | nil =>
      simp only [point, Option.some.injEq] at moved
      subst after
      exact .clears _ point
    | cons first rest =>
      simp only [point, Option.bind_eq_bind, Option.bind_eq_some_iff] at moved
      obtain ⟨ring, moved, same⟩ := moved
      obtain rfl := Option.some.inj same
      exact .calls _ _ _ _ _ point moved
  | unlocking =>
    simp only [point, Option.some.injEq] at moved
    subst after
    exact .gives _ point

theorem step_effect {before after : FrameServer setup} {event : FrameEvent} (moved : FrameStep before event after) :
    Effect before event after := by
  cases event with
  | callback thread frame processTimeUs => exact callback_effect moved
  | sensor thread => exact sensor_effect moved
  | worker kind reading => exact worker_effect moved
  | wake kind =>
    simp only [FrameStep, FrameServer.next, Option.bind_eq_bind, Option.bind_eq_some_iff] at moved
    obtain ⟨ring, moved, same⟩ := moved
    obtain rfl := Option.some.inj same
    exact .wakes _ _ moved
  | main => exact main_effect moved
  | stopAll thread =>
    cases point : before.stoppers thread with
    | outside =>
      simp only [FrameStep, FrameServer.next, point, Option.some.injEq] at moved
      subst after
      exact .stops _ point
    | _ => simp [FrameStep, FrameServer.next, point] at moved
  | stopper thread => exact stopper_effect moved

/-! The thread that writes. -/

/-- The thread is between the lock and the unlock of a ring buffer. -/
def Holds (kind : Kind) : CallbackPoint → Prop
  | .writing other _ | .unlocking other => other = kind
  | _ => False

def placeIn (kind : Kind) : CallbackPoint → ProducerPoint FrameData
  | .writing other point => if other = kind then point else .idle
  | _ => .idle

/-- Where the one writer of a ring buffer is. -/
def writer (server : FrameServer setup) (kind : Kind) : ProducerPoint FrameData :=
  match server.mutexes kind with
  | none => .idle
  | some thread => placeIn kind (server.callbacks thread)

/-- A ring buffer together with its writer. -/
def ringOf (server : FrameServer setup) (kind : Kind) : State FrameData :=
  { server.rings kind with producer := writer server kind }

/-- The threads that write exclude each other, since the lock has one owner. -/
structure Exclusive (server : FrameServer setup) : Prop where
  held : ∀ kind thread, server.mutexes kind = some thread ↔ Holds kind (server.callbacks thread)
  idle : ∀ kind, (server.rings kind).producer = .idle

theorem holds_written {kind other : Kind} {point : ProducerPoint FrameData} :
    Holds kind (.written other point) ↔ other = kind := by
  cases point <;> exact Iff.rfl

theorem placeIn_written (kind : Kind) (point : ProducerPoint FrameData) : placeIn kind (.written kind point) = point := by
  cases point <;> simp [CallbackPoint.written, placeIn]

theorem start_exclusive : Exclusive ({} : FrameServer setup) where
  held kind thread := by simp [Holds]
  idle kind := rfl

/-- A thread that holds no lock has nothing to do with the writers. -/
theorem writer_frame {server after : FrameServer setup} (exclusive : Exclusive server) {thread : Nat} {kind : Kind}
    (free : ¬ Holds kind (server.callbacks thread)) (mutexes : after.mutexes kind = server.mutexes kind)
    (callbacks : ∀ other, other ≠ thread → after.callbacks other = server.callbacks other) :
    writer after kind = writer server kind := by
  unfold writer
  rw [mutexes]
  cases mutex : server.mutexes kind with
  | none => rfl
  | some owner =>
    have differs : owner ≠ thread := by
      intro same
      subst same
      exact free ((exclusive.held kind owner).mp mutex)
    simp only [callbacks owner differs]

theorem Exclusive.owner {server : FrameServer setup} (exclusive : Exclusive server) {thread : Nat} {kind : Kind}
    {point : ProducerPoint FrameData} (writing : server.callbacks thread = .writing kind point) :
    server.mutexes kind = some thread := by
  apply (exclusive.held kind thread).mpr
  rw [writing]
  exact rfl

/-- A thread that writes is the writer. -/
theorem ringOf_writing {server : FrameServer setup} (exclusive : Exclusive server) {thread : Nat} {kind : Kind}
    {point : ProducerPoint FrameData} (writing : server.callbacks thread = .writing kind point) :
    ringOf server kind = { server.rings kind with producer := point } := by
  simp [ringOf, writer, exclusive.owner writing, writing, placeIn]

/-! Steps that are none of the writer do not look at it. -/

/-- A ring buffer with another place of its writer. -/
def withProducer (point : ProducerPoint FrameData) (ring : State FrameData) : State FrameData :=
  { ring with producer := point }

theorem notifyOne_withProducer (point : ProducerPoint FrameData) (ring : State FrameData) :
    (withProducer point ring).notifyOne = withProducer point ring.notifyOne := by
  rcases ring with ⟨data, head, tail, stopped, updateCounter, producer, consumer⟩
  cases consumer with
  | parked call old =>
    by_cases same : updateCounter = old
    · simp [State.notifyOne, withProducer, same]
    · simp [State.notifyOne, withProducer, same]
  | _ => rfl

theorem consumerStep_withProducer (size : Nat) (point : ProducerPoint FrameData) (ring : State FrameData) :
    consumerStep size (withProducer point ring) = (consumerStep size ring).map (withProducer point) := by
  rcases ring with ⟨data, head, tail, stopped, updateCounter, producer, consumer⟩
  cases consumer with
  | beginStopped | latestStopped =>
    cases stopped <;> rfl
  | beginTail _ first | latestTail _ first =>
    by_cases none : empty first tail = true
    · simp [consumerStep, withProducer, none, State.finish]
    · simp [consumerStep, withProducer, none]
  | copying call slot =>
    simp only [consumerStep, withProducer]
    cases data slot <;> rfl
  | _ => rfl

/-- A step of the reader with the writer in its place. -/
theorem ringOf_reads {server : FrameServer setup} {kind : Kind} {ring : State FrameData}
    (moved : consumerStep (capacity kind) (server.rings kind) = some ring) :
    consumerStep (capacity kind) (ringOf server kind) = some (withProducer (writer server kind) ring) := by
  have same := consumerStep_withProducer (capacity kind) (writer server kind) (server.rings kind)
  rw [moved] at same
  exact same

/-- A step of the reader, or of a thread that stops it. -/
def Other : Event FrameData → Prop
  | .write _ | .producer => False
  | _ => True

theorem step_withProducer {size : Nat} (point : ProducerPoint FrameData) {ring after : State FrameData}
    {event : Event FrameData} (other : Other event) (moved : step size ring event = some after) :
    step size (withProducer point ring) event = some (withProducer point after) := by
  cases event with
  | write | producer => exact other.elim
  | read op blocking =>
    obtain ⟨idle, rfl⟩ := step_read moved
    simp [step, withProducer, idle]
  | clear =>
    obtain ⟨idle, rfl⟩ := step_clear moved
    simp [step, withProducer, idle]
  | consumer =>
    have moved : consumerStep size ring = some after := moved
    simp only [step, consumerStep_withProducer, moved, Option.map_some]
  | wake =>
    obtain ⟨call, old, parked, changed, rfl⟩ := step_wake moved
    simp [step, withProducer, parked, changed]
  | stop =>
    obtain rfl := step_stop moved
    rfl
  | stopIncrement =>
    obtain ⟨pending, rfl⟩ := step_stopIncrement moved
    simp [step, withProducer, pending, State.bump]
  | stopNotify =>
    obtain ⟨pending, rfl⟩ := step_stopNotify moved
    have pending : (withProducer point ring).notifying ≠ 0 := pending
    have notified := notifyOne_withProducer point ring
    simp only [step]
    rw [if_neg pending, notified]
    rfl

theorem other_event (call : StopCall) : Other call.event := by
  cases call <;> trivial

theorem inOrder_event (call : StopCall) : InOrder call.event := by
  cases call <;> trivial

/-! Every ring buffer goes through a run of its own. -/

/-- What a step of the server is to a ring buffer. -/
def Follows (kind : Kind) (before after : State FrameData) : Prop :=
  after = before ∨ ∃ event, InOrder event ∧ Step (capacity kind) before event after

theorem ringOf_same {before after : FrameServer setup} {kind : Kind} (ring : after.rings kind = before.rings kind)
    (same : writer after kind = writer before kind) : ringOf after kind = ringOf before kind := by
  unfold ringOf
  rw [ring, same]

/-- A step of the reader or of a stopping thread, seen by all ring buffers. -/
theorem follows_other {before after : FrameServer setup} {moving : Kind} {ring : State FrameData} (event : Event FrameData)
    (other : Other event) (inOrder : InOrder event) (moved : step (capacity moving) (before.rings moving) event = some ring)
    (rings : after.rings = Function.update before.rings moving ring)
    (mutexes : after.mutexes = before.mutexes) (callbacks : after.callbacks = before.callbacks) (kind : Kind) :
    Follows kind (ringOf before kind) (ringOf after kind) := by
  have same : writer after kind = writer before kind := by
    unfold writer
    rw [mutexes, callbacks]
  by_cases here : kind = moving
  · subst here
    refine .inr ⟨event, inOrder, ?_⟩
    have ring : after.rings kind = ring := by rw [rings, Function.update_self]
    have sound := step_withProducer (writer before kind) other moved
    rw [Step, ringOf, ringOf, same, ring]
    exact sound
  · refine .inl (ringOf_same ?_ same)
    rw [rings, Function.update_of_ne here]

theorem effect_follows {before after : FrameServer setup} {event : FrameEvent} (exclusive : Exclusive before)
    (effect : Effect before event after) (kind : Kind) : Follows kind (ringOf before kind) (ringOf after kind) := by
  have others : ∀ {thread other : Nat} (point : CallbackPoint), other ≠ thread →
      Function.update before.callbacks thread point other = before.callbacks other :=
    fun _ differs => Function.update_of_ne differs ..
  cases effect with
  | throws thread frame processTimeUs outside =>
    have free : ¬ Holds kind (before.callbacks thread) := by simp [outside, Holds]
    exact .inl (ringOf_same rfl (writer_frame exclusive free rfl fun _ => others _))
  | arrives thread frame processTimeUs moving outside =>
    have free : ¬ Holds kind (before.callbacks thread) := by simp [outside, Holds]
    exact .inl (ringOf_same rfl (writer_frame exclusive free rfl fun _ => others _))
  | locks thread moving frameData locking free =>
    by_cases here : kind = moving
    · subst here
      refine .inr ⟨.write frameData, trivial, ?_⟩
      simp [Step, step, ringOf, writer, free, placeIn]
    · have outside : ¬ Holds kind (before.callbacks thread) := by simp [locking, Holds]
      refine .inl (ringOf_same rfl (writer_frame exclusive outside ?_ fun _ => others _))
      exact Function.update_of_ne here ..
  | writes thread moving point ring writing moved =>
    by_cases here : kind = moving
    · subst here
      refine .inr ⟨.producer, trivial, ?_⟩
      rw [Step, ringOf_writing exclusive writing]
      simp only [step, moved, ringOf, writer, exclusive.owner writing, Function.update_self, placeIn_written]
    · have outside : ¬ Holds kind (before.callbacks thread) := by
        rw [writing]
        exact fun same => here same.symm
      refine .inl (ringOf_same ?_ (writer_frame exclusive outside rfl fun _ => others _))
      exact Function.update_of_ne here ..
  | unlocks thread moving unlocking =>
    by_cases here : kind = moving
    · subst here
      have owner : before.mutexes kind = some thread := by
        apply (exclusive.held kind thread).mpr
        rw [unlocking]
        exact rfl
      refine .inl (ringOf_same rfl ?_)
      simp [writer, owner, unlocking, placeIn]
    · have outside : ¬ Holds kind (before.callbacks thread) := by
        rw [unlocking]
        exact fun same => here same.symm
      refine .inl (ringOf_same rfl (writer_frame exclusive outside ?_ fun _ => others _))
      exact Function.update_of_ne here ..
  | begins moving reading ring checking running moved =>
    apply follows_other (.read .moveRead true) trivial trivial moved
    all_goals rfl
  | reads moving reading ring inRead moved =>
    have moved : step (capacity moving) (before.rings moving) .consumer = some ring := moved
    apply follows_other .consumer trivial trivial moved
    all_goals rfl
  | wakes moving ring moved =>
    apply follows_other .wake trivial trivial moved
    all_goals rfl
  | calls thread moving call rest ring calling moved =>
    apply follows_other call.event (other_event call) (inOrder_event call) moved
    all_goals rfl
  | _ => exact .inl rfl

/-- A thread takes or gives the lock of one ring buffer. -/
theorem Exclusive.passes {before : FrameServer setup} (exclusive : Exclusive before) {thread : Nat} {moving : Kind}
    {point : CallbackPoint} {owner : Option Nat} (own : owner = some thread ↔ Holds moving point)
    (others : ∀ other, other ≠ thread → (owner = some other ↔ before.mutexes moving = some other))
    (elsewhere : ∀ kind, kind ≠ moving → (Holds kind point ↔ Holds kind (before.callbacks thread)))
    (kind : Kind) (other : Nat) :
    Function.update before.mutexes moving owner kind = some other ↔
      Holds kind (Function.update before.callbacks thread point other) := by
  by_cases here : kind = moving
  · subst here
    rw [Function.update_self]
    by_cases same : other = thread
    · rw [same, Function.update_self]
      exact own
    · rw [Function.update_of_ne same, ← exclusive.held]
      exact others other same
  · rw [Function.update_of_ne here, exclusive.held]
    by_cases same : other = thread
    · rw [same, Function.update_self]
      exact (elsewhere kind here).symm
    · rw [Function.update_of_ne same]

theorem effect_exclusive {before after : FrameServer setup} {event : FrameEvent} (exclusive : Exclusive before)
    (effect : Effect before event after) : Exclusive after := by
  -- a thread that neither takes nor gives a lock
  have keeps : ∀ {thread : Nat} {point : CallbackPoint}, (∀ kind, Holds kind point ↔ Holds kind (before.callbacks thread)) →
      ∀ kind other, before.mutexes kind = some other ↔ Holds kind (Function.update before.callbacks thread point other) := by
    intro thread point same kind other
    rw [exclusive.held]
    by_cases here : other = thread
    · rw [here, Function.update_self, same]
    · rw [Function.update_of_ne here]
  -- a ring buffer after a step that leaves its writer outside
  have idle : ∀ {moving : Kind} {ring : State FrameData}, ring.producer = .idle →
      ∀ kind, (Function.update before.rings moving ring kind).producer = .idle := by
    intro moving ring outside
    apply (Function.forall_update_iff before.rings fun _ ring => ring.producer = .idle).mpr
    exact ⟨outside, fun kind _ => exclusive.idle kind⟩
  -- which is what a step of another party does
  have idles : ∀ {moving : Kind} {ring : State FrameData} (event : Event FrameData), Other event →
      step (capacity moving) (before.rings moving) event = some ring →
      ∀ kind, (Function.update before.rings moving ring kind).producer = .idle := by
    intro moving ring event other moved
    have sound := step_withProducer .idle other moved
    have same : withProducer .idle (before.rings moving) = before.rings moving := by
      rw [withProducer, ← exclusive.idle moving]
    rw [same, moved, Option.some.injEq] at sound
    apply idle
    rw [sound]
    rfl
  cases effect with
  | throws thread frame processTimeUs outside =>
    exact ⟨keeps fun kind => by simp [outside, Holds], exclusive.idle⟩
  | arrives thread frame processTimeUs moving outside =>
    exact ⟨keeps fun kind => by simp [outside, Holds], exclusive.idle⟩
  | locks thread moving frameData locking free =>
    refine ⟨exclusive.passes (by simp [Holds]) (fun other same => ?_) (fun kind here => ?_), exclusive.idle⟩
    · simp [free, Ne.symm same]
    · rw [locking]
      exact ⟨fun wrong => here wrong.symm, False.elim⟩
  | writes thread moving point ring writing moved =>
    refine ⟨keeps fun kind => ?_, idle rfl⟩
    rw [writing, holds_written]
    exact Iff.rfl
  | unlocks thread moving unlocking =>
    have owner : before.mutexes moving = some thread := by
      apply (exclusive.held moving thread).mpr
      rw [unlocking]
      exact rfl
    refine ⟨exclusive.passes (by simp [Holds]) (fun other same => ?_) (fun kind here => ?_), exclusive.idle⟩
    · simp [owner, Ne.symm same]
    · rw [unlocking]
      exact ⟨False.elim, fun wrong => here wrong.symm⟩
  | begins moving reading ring checking running moved =>
    exact ⟨exclusive.held, idles (.read .moveRead true) trivial moved⟩
  | reads moving reading ring inRead moved =>
    have moved : step (capacity moving) (before.rings moving) .consumer = some ring := moved
    exact ⟨exclusive.held, idles .consumer trivial moved⟩
  | wakes moving ring moved => exact ⟨exclusive.held, idles .wake trivial moved⟩
  | calls thread moving call rest ring calling moved => exact ⟨exclusive.held, idles call.event (other_event call) moved⟩
  | _ => exact ⟨exclusive.held, exclusive.idle⟩

/-- The ring buffers of a server that may be reached. -/
structure Served (server : FrameServer setup) : Prop where
  exclusive : Exclusive server
  runs : ∀ kind, ∃ events, RingBuffer.Run (capacity kind) events (ringOf server kind) ∧ ∀ event ∈ events, InOrder event

theorem start_served : Served ({} : FrameServer setup) := by
  refine ⟨start_exclusive, fun kind => ⟨[], ?_, by simp⟩⟩
  exact .refl _

theorem effect_served {before after : FrameServer setup} {event : FrameEvent} (served : Served before)
    (effect : Effect before event after) : Served after := by
  refine ⟨effect_exclusive served.exclusive effect, fun kind => ?_⟩
  obtain ⟨events, run, inOrder⟩ := served.runs kind
  rcases effect_follows served.exclusive effect kind with same | ⟨event, allowed, moved⟩
  · rw [same]
    exact ⟨events, run, inOrder⟩
  · refine ⟨events ++ [event], .snoc run moved, ?_⟩
    intro other member
    rcases List.mem_append.mp member with earlier | last
    · exact inOrder other earlier
    · rw [List.mem_singleton.mp last]
      exact allowed

theorem capacity_pos (kind : Kind) : 0 < capacity kind := by
  cases kind <;> decide

theorem Served.inv {server : FrameServer setup} (served : Served server) (kind : Kind) :
    Inv (capacity kind) (ringOf server kind) := by
  obtain ⟨events, run, _⟩ := served.runs kind
  exact reachable_inv (capacity_pos kind) ⟨events, run⟩

theorem Served.gapless {server : FrameServer setup} (served : Served server) (kind : Kind) :
    Gapless (ringOf server kind) := by
  obtain ⟨events, run, inOrder⟩ := served.runs kind
  exact run_gapless (capacity_pos kind) run inOrder

theorem Served.reachable {server : FrameServer setup} (served : Served server) (kind : Kind) :
    RingBuffer.Reachable (capacity kind) (ringOf server kind) := by
  obtain ⟨events, run, _⟩ := served.runs kind
  exact ⟨events, run⟩

end AxbyCore.Proofs.FrameServer
