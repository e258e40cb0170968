import AxbyCore.Proofs.FrameRings
import Mathlib.Data.List.Induction

/-! What becomes of the frames that sensor threads hand to the server: each is refused by a full ring buffer, or
processed once, in the order in which the threads got the lock. -/

namespace AxbyCore.Proofs.FrameServer
open Transitions Realsense RingBuffer RingBuffer.Proofs

variable {setup : Setup}

/-! The reader's side: what a processing thread has read, and what it has in hand. -/

/-- A read that has come to its end has added its result. It has none if the buffer was stopped or empty. -/
theorem read_result {size : Nat} {before after : State FrameData} (inRead : InRead before.consumer)
    (moved : consumerStep size before = some after) (idle : after.consumer = .idle) :
    ∃ result, after.results = before.results ++ [result] ∧ (result.item = none → before.stopped = true ∨
      ∃ call head, before.consumer = .beginTail call head ∧ empty head before.tail = true) := by
  cases point : before.consumer with
  | idle | parked | aborted => simp [consumerStep, point] at moved
  | latestHead | latestTail | latestStopped | latestLoad | latestStore | clearTail | clearStore =>
    rw [point] at inRead
    exact inRead.elim
  | beginStopped call =>
    simp only [consumerStep, point] at moved
    split at moved
    next stopped =>
      obtain rfl := Option.some.inj moved
      exact ⟨_, rfl, fun _ => .inl stopped⟩
    next =>
      obtain rfl := Option.some.inj moved
      cases idle
  | beginTail call head =>
    simp only [consumerStep, point] at moved
    split at moved
    next none =>
      obtain rfl := Option.some.inj moved
      exact ⟨_, rfl, fun _ => .inr ⟨call, head, rfl, none⟩⟩
    next =>
      obtain rfl := Option.some.inj moved
      cases idle
  | copying =>
    simp only [consumerStep, point] at moved
    split at moved
    all_goals
      obtain rfl := Option.some.inj moved
      cases idle
  | advanceStore =>
    simp only [consumerStep, point, Option.some.injEq] at moved
    subst after
    exact ⟨_, rfl, fun wrong => (by cases wrong)⟩
  | loopStopped | loopTail | wait | endSlot | endTail =>
    simp only [consumerStep, point, Option.some.injEq] at moved
    subst after
    dsimp only at idle
    split at idle <;> cases idle
  | checkStopped call | checkTail call =>
    simp only [consumerStep, point, Option.some.injEq] at moved
    subst after
    dsimp only at idle
    split at idle
    all_goals first | cases idle | (cases op : call.op <;> simp [beginRead, op] at idle)
  | _ =>
    simp only [consumerStep, point, Option.some.injEq] at moved
    subst after
    cases idle

/-- The frame that a processing thread has read and not finished. -/
def inHand : ProcessingPoint → List FrameData
  | .processing frameData | .crashed frameData => [frameData]
  | _ => []

/-- A processing thread reads and processes in turn. -/
structure Consumes (server : FrameServer setup) (kind : Kind) : Prop where
  idle : server.workers kind ≠ .reading → (server.rings kind).consumer = .idle
  reads : server.workers kind = .reading → InRead (server.rings kind).consumer
  processed : ∃ processed : List (FrameData × Reading),
    processed.foldlM (process setup kind) (startEncoders setup kind) = some (server.encoders kind) ∧
    (server.rings kind).returned = processed.map Prod.fst ++ inHand (server.workers kind)

theorem start_consumes (kind : Kind) : Consumes ({} : FrameServer setup) kind where
  idle _ := rfl
  reads reading := by cases reading
  processed := ⟨[], rfl, rfl⟩

theorem inRead_ne_idle {point : ConsumerPoint FrameData} (inRead : InRead point) : point ≠ .idle := by
  intro same
  rw [same] at inRead
  exact inRead

theorem read_reading {ring : State FrameData} (inRead : InRead ring.consumer) : ProcessingPoint.read ring = .reading := by
  unfold ProcessingPoint.read
  cases point : ring.consumer with
  | idle => exact absurd point (inRead_ne_idle inRead)
  | _ => rfl

/-- The end of a read, by what it has returned. -/
theorem read_idle {ring : State FrameData} {results : List (ReadResult FrameData)} {result : ReadResult FrameData}
    (idle : ring.consumer = .idle) (last : ring.results = results ++ [result]) :
    ProcessingPoint.read ring = match result.item with
      | none => .returned
      | some frameData => .processing frameData := by
  unfold ProcessingPoint.read
  cases item : result.item with
  | none => simp [idle, last, item]
  | some frameData => simp [idle, last, item]

/-- What a step of a read comes to for its thread. -/
theorem read_consumes {before : State FrameData} {kind : Kind} (valid : Inv (capacity kind) before)
    {after : State FrameData} (inRead : InRead before.consumer) (moved : consumerStep (capacity kind) before = some after) :
    (InRead after.consumer ∨ after.consumer = .idle) ∧ (InRead after.consumer ↔ ProcessingPoint.read after = .reading) ∧
      after.returned = before.returned ++ inHand (ProcessingPoint.read after) := by
  cases readStep_effect valid inRead moved with
  | goesOn stays popped results =>
    have reading := read_reading stays
    refine ⟨.inl stays, ⟨fun _ => reading, fun _ => stays⟩, ?_⟩
    rw [reading, State.returned, State.returned, results]
    exact (List.append_nil _).symm
  | fails idle popped returned =>
    obtain ⟨result, last, _⟩ := read_result inRead moved idle
    have nothing : result.item = none := by
      have same := returned
      rw [State.returned, State.returned, last, List.filterMap_append] at same
      cases item : result.item with
      | none => rfl
      | some value => simp [item] at same
    have ended := read_idle idle last
    rw [nothing] at ended
    refine ⟨.inr idle, ?_, ?_⟩
    · rw [ended, idle]
      exact ⟨False.elim, fun wrong => by cases wrong⟩
    · rw [ended, returned]
      exact (List.append_nil _).symm
  | takes item found idle popped returned =>
    obtain ⟨result, last, _⟩ := read_result inRead moved idle
    have something : result.item = some item := by
      have same := returned
      rw [State.returned, State.returned, last, List.filterMap_append] at same
      cases got : result.item with
      | none => simp [got] at same
      | some value => simpa [got] using same
    have ended := read_idle idle last
    rw [something] at ended
    refine ⟨.inr idle, ?_, ?_⟩
    · rw [ended, idle]
      exact ⟨False.elim, fun wrong => by cases wrong⟩
    · rw [ended, returned]
      rfl

/-- A step that leaves the results alone, and the reader too unless it wakes it. -/
structure Undisturbed (before after : State FrameData) : Prop where
  results : after.results = before.results
  consumer : after.consumer = before.consumer ∨
    ∃ call old, before.consumer = .parked call old ∧ after.consumer = .resample call

theorem Undisturbed.refl (ring : State FrameData) : Undisturbed ring ring := ⟨rfl, .inl rfl⟩

theorem Undisturbed.writer {size : Nat} {point other : ProducerPoint FrameData} {before after : State FrameData}
    (moved : producerStep size { before with producer := point } = some after) :
    Undisturbed before { after with producer := other } := by
  have frame := producerStep_frame moved
  exact ⟨frame.results, frame.consumer⟩

theorem Undisturbed.notifyOne (ring : State FrameData) : Undisturbed ring ring.notifyOne := by
  rcases notifyOne_cases ring with same | ⟨call, old, parked, woken⟩
  · rw [same]
    exact .refl ring
  · rw [woken]
    exact ⟨rfl, .inr ⟨call, old, parked, rfl⟩⟩

theorem Undisturbed.wake {size : Nat} {before after : State FrameData} (moved : step size before .wake = some after) :
    Undisturbed before after := by
  obtain ⟨call, old, parked, changed, rfl⟩ := step_wake moved
  exact ⟨rfl, .inr ⟨call, old, parked, rfl⟩⟩

theorem Undisturbed.stop {size : Nat} {call : StopCall} {before after : State FrameData}
    (moved : step size before call.event = some after) : Undisturbed before after := by
  cases call with
  | store =>
    obtain rfl := step_stop moved
    exact ⟨rfl, .inl rfl⟩
  | increment =>
    obtain ⟨pending, rfl⟩ := step_stopIncrement moved
    exact ⟨rfl, .inl rfl⟩
  | notify =>
    obtain ⟨pending, rfl⟩ := step_stopNotify moved
    have notified := Undisturbed.notifyOne before
    exact ⟨notified.results, notified.consumer⟩

theorem Consumes.undisturbed {before after : FrameServer setup} {kind : Kind} (consumes : Consumes before kind)
    (quiet : Undisturbed (before.rings kind) (after.rings kind)) (workers : after.workers kind = before.workers kind)
    (encoders : after.encoders kind = before.encoders kind) : Consumes after kind := by
  constructor
  · intro away
    rw [workers] at away
    have idle := consumes.idle away
    rcases quiet.consumer with same | ⟨call, old, parked, woken⟩
    · rw [same, idle]
    · rw [idle] at parked
      cases parked
  · intro reading
    rw [workers] at reading
    have inRead := consumes.reads reading
    rcases quiet.consumer with same | ⟨call, old, parked, woken⟩
    · rw [same]
      exact inRead
    · rw [parked] at inRead
      rw [woken]
      exact inRead
  · rw [workers, encoders, State.returned, quiet.results]
    exact consumes.processed

theorem undisturbed_update {rings : Kind → State FrameData} {moving : Kind} {ring : State FrameData}
    (quiet : Undisturbed (rings moving) ring) (kind : Kind) :
    Undisturbed (rings kind) (Function.update rings moving ring kind) := by
  revert kind
  apply (Function.forall_update_iff rings fun kind ring => Undisturbed (rings kind) ring).mpr
  exact ⟨quiet, fun kind _ => .refl _⟩

/-- A step of a processing thread itself. -/
theorem Consumes.other {before after : FrameServer setup} {kind : Kind} (consumes : Consumes before kind)
    (rings : after.rings kind = before.rings kind) (workers : after.workers kind = before.workers kind)
    (encoders : after.encoders kind = before.encoders kind) : Consumes after kind := by
  apply consumes.undisturbed _ workers encoders
  rw [rings]
  exact .refl _

theorem effect_consumes {before after : FrameServer setup} {event : FrameEvent} (served : Served before)
    (starting : ∀ kind, before.main = .starting kind → before.workers kind = .waiting)
    (effect : Effect before event after) {kind : Kind} (consumes : Consumes before kind) : Consumes after kind := by
  cases effect with
  | writes thread moving point ring writing moved =>
    exact consumes.undisturbed (undisturbed_update (.writer moved) kind) rfl rfl
  | wakes moving ring moved => exact consumes.undisturbed (undisturbed_update (.wake moved) kind) rfl rfl
  | calls thread moving call rest ring calling moved =>
    exact consumes.undisturbed (undisturbed_update (.stop moved) kind) rfl rfl
  | leaves moving reading checking stop =>
    by_cases here : kind = moving
    · subst here
      obtain ⟨processed, folded, returned⟩ := consumes.processed
      rw [checking] at returned
      refine ⟨fun _ => consumes.idle (by simp [checking]), fun reading => by simp at reading, processed, folded, ?_⟩
      simp only [Function.update_self]
      exact returned
    · exact consumes.other rfl (Function.update_of_ne here ..) rfl
  | begins moving reading ring checking running moved =>
    by_cases here : kind = moving
    · subst here
      obtain ⟨processed, folded, returned⟩ := consumes.processed
      rw [checking] at returned
      obtain ⟨idle, rfl⟩ := step_read moved
      refine ⟨fun away => by simp at away, fun _ => ?_, processed, folded, ?_⟩
      · simp only [Function.update_self]
        simp [InRead]
      · simp only [Function.update_self]
        exact returned
    · exact consumes.other (Function.update_of_ne here ..) (Function.update_of_ne here ..) rfl
  | reads moving reading ring inRead moved =>
    by_cases here : kind = moving
    · subst here
      obtain ⟨processed, folded, returned⟩ := consumes.processed
      rw [inRead] at returned
      have inside : InRead (ringOf before kind).consumer := consumes.reads inRead
      obtain ⟨ends, reads, result⟩ := read_consumes (served.inv kind) inside (ringOf_reads moved)
      refine ⟨fun away => ?_, fun again => ?_, processed, folded, ?_⟩
      · simp only [Function.update_self] at away ⊢
        rcases ends with inside | idle
        · exact absurd (reads.mp inside) away
        · exact idle
      · simp only [Function.update_self] at again ⊢
        exact reads.mpr again
      · simp only [Function.update_self]
        have before_ : (ringOf before kind).returned = processed.map Prod.fst := returned.trans (List.append_nil _)
        rw [before_] at result
        exact result
    · exact consumes.other (Function.update_of_ne here ..) (Function.update_of_ne here ..) rfl
  | crashes moving reading frameData busy =>
    by_cases here : kind = moving
    · subst here
      obtain ⟨processed, folded, returned⟩ := consumes.processed
      rw [busy] at returned
      refine ⟨fun _ => consumes.idle (by simp [busy]), fun reading => by simp at reading, processed, folded, ?_⟩
      simp only [Function.update_self]
      exact returned
    · exact consumes.other rfl (Function.update_of_ne here ..) rfl
  | processes moving reading frameData encoders busy done =>
    by_cases here : kind = moving
    · subst here
      obtain ⟨processed, folded, returned⟩ := consumes.processed
      rw [busy] at returned
      refine ⟨fun _ => consumes.idle (by simp [busy]), fun reading => by simp at reading,
        processed ++ [(frameData, reading)], ?_, ?_⟩
      · simp only [Function.update_self, List.foldlM_append, folded, List.foldlM_cons, List.foldlM_nil, bind_pure]
        exact done
      · simp only [Function.update_self, List.map_append]
        exact returned.trans (List.append_nil _).symm
    · exact consumes.other rfl (Function.update_of_ne here ..) (Function.update_of_ne here ..)
  | starts moving main =>
    by_cases here : kind = moving
    · subst here
      have waiting := starting kind main
      obtain ⟨processed, folded, returned⟩ := consumes.processed
      rw [waiting] at returned
      refine ⟨fun _ => consumes.idle (by simp [waiting]), fun reading => by simp at reading, processed, folded, ?_⟩
      simp only [Function.update_self]
      exact returned
    · exact consumes.other rfl (Function.update_of_ne here ..) rfl
  | _ => exact consumes.other rfl rfl rfl

/-! Which threads have been started. -/

def launched : ServerPoint → Kind → Bool
  | .registering, _ | .starting .color, _ => false
  | .starting .depth, kind => kind == .color
  | .starting .motion, kind => kind != .motion
  | .looping, _ | .joining _, _ | .cleanup, _ => true

/-- A processing thread is waiting as long as `main` has not started it. -/
def Launches (server : FrameServer setup) : Prop :=
  ∀ kind, server.workers kind = .waiting ↔ launched server.main kind = false

theorem launched_start (kind other : Kind) :
    launched (.afterStart kind) other = (other == kind || launched (.starting kind) other) := by
  cases kind <;> cases other <;> rfl

theorem launched_self (kind : Kind) : launched (.starting kind) kind = false := by
  cases kind <;> rfl

theorem launched_join (kind other : Kind) : launched (.afterJoin kind) other = true := by
  cases kind <;> rfl

theorem read_started (ring : State FrameData) : ProcessingPoint.read ring ≠ .waiting := by
  unfold ProcessingPoint.read
  split
  · split <;> simp
  · simp

theorem Launches.starting {server : FrameServer setup} (launches : Launches server) {kind : Kind}
    (starting : server.main = .starting kind) : server.workers kind = .waiting := by
  apply (launches kind).mpr
  rw [starting]
  exact launched_self kind

theorem effect_launches {before after : FrameServer setup} {event : FrameEvent} (launches : Launches before)
    (effect : Effect before event after) : Launches after := by
  -- a thread that has been started goes on to a place where it has been started
  have moves : ∀ {moving : Kind} {point : ProcessingPoint}, before.workers moving ≠ .waiting → point ≠ .waiting →
      ∀ kind, Function.update before.workers moving point kind = .waiting ↔ launched before.main kind = false := by
    intro moving point started stays
    apply (Function.forall_update_iff before.workers fun kind point => point = .waiting ↔ launched before.main kind = false).mpr
    refine ⟨?_, fun kind _ => launches kind⟩
    rw [← launches moving]
    exact ⟨fun wrong => absurd wrong stays, fun wrong => absurd wrong started⟩
  cases effect with
  | leaves moving reading checking stop => exact moves (by simp [checking]) (by simp)
  | begins moving reading ring checking running moved => exact moves (by simp [checking]) (by simp)
  | reads moving reading ring inRead moved => exact moves (by simp [inRead]) (read_started ring)
  | crashes moving reading frameData busy => exact moves (by simp [busy]) (by simp)
  | processes moving reading frameData encoders busy done => exact moves (by simp [busy]) (by simp)
  | registers registering free =>
    intro kind
    have same := launches kind
    rw [registering] at same
    exact same
  | starts moving main =>
    intro kind
    have same := launches kind
    rw [main] at same
    dsimp only
    rw [launched_start]
    by_cases here : kind = moving
    · subst here
      simp
    · rw [Function.update_of_ne here, same]
      simp [here]
  | looks looping =>
    intro kind
    have same := launches kind
    rw [looping] at same
    dsimp only
    split <;> exact same
  | joins moving joining returned =>
    intro kind
    have same := launches kind
    rw [joining] at same
    dsimp only
    rw [launched_join]
    exact same
  | _ => exact launches

/-! The writers' side. -/

/-- The frames of a ring buffer that were accepted. -/
def accepted (kind : Kind) (offers : List Offer) : List FrameData :=
  (offers.filter fun offer => offer.accepted && offer.arrival.kind == kind).map fun offer => offer.arrival.frameData

/-- The frame with which a thread is on its way into a ring buffer. -/
def pending (thread : Nat) : CallbackPoint → List Arrival
  | .locking kind frameData => [⟨thread, kind, frameData⟩]
  | .writing kind point => (writing point).toList.map fun frameData => ⟨thread, kind, frameData⟩
  | _ => []

structure Ledger (server : FrameServer setup) : Prop where
  arrived : ∀ thread, server.arrivals.filter (fun arrival => arrival.thread == thread) =
    (server.offers.filter fun offer => offer.arrival.thread == thread).map Offer.arrival ++
      pending thread (server.callbacks thread)
  written : ∀ kind, (server.rings kind).written = accepted kind server.offers
  filled : ∀ offer ∈ server.offers, offer.accepted = decide (offer.filled < capacity offer.arrival.kind - 1)

theorem start_ledger : Ledger ({} : FrameServer setup) where
  arrived _ := rfl
  written _ := rfl
  filled offer member := by cases member

theorem pending_written (thread : Nat) (kind : Kind) (point : ProducerPoint FrameData) :
    pending thread (.written kind point) = (writing point).toList.map fun frameData => ⟨thread, kind, frameData⟩ := by
  cases point <;> rfl

/-- What a step of a writer comes to, with the verdict that the offers get. -/
theorem writer_verdict {before after : State FrameData} {size : Nat} (valid : Inv size before)
    (moved : producerStep size before = some after) :
    (verdict before.producer after.producer = none ∧ after.written = before.written ∧
      writing after.producer = writing before.producer) ∨
    ∃ frameData, writing before.producer = some frameData ∧ writing after.producer = none ∧
      ((verdict before.producer after.producer = some (frameData, false) ∧ after.written = before.written ∧
          before.held = size - 1) ∨
        (verdict before.producer after.producer = some (frameData, true) ∧
          after.written = before.written ++ [frameData] ∧ before.held < size - 1)) := by
  have kept := producer_step_inv valid moved
  cases producerStep_effect valid moved with
  | quiet written refusals item =>
    refine .inl ⟨?_, written, item⟩
    cases point : before.producer with
    | fullHead value tail =>
      rw [point] at item
      cases later : after.producer with
      | idle =>
        rw [later] at item
        cases item
      | _ => rfl
    | storeTail value tail =>
      simp only [producerStep, point, Option.some.injEq] at moved
      subst after
      rw [point] at item
      cases item
    | _ => rfl
  | refuses value tail point idle written refusals =>
    refine .inr ⟨value, by rw [point]; rfl, by rw [idle]; rfl, .inl ⟨by rw [point, idle]; rfl, written, ?_⟩⟩
    apply kept.history.refusals
    rw [refusals]
    exact List.mem_append_right _ (List.mem_singleton_self _)
  | publishes value tail point written refusals done =>
    refine .inr ⟨value, by rw [point]; rfl, by rw [done]; rfl, .inr ⟨by rw [point]; rfl, written, ?_⟩⟩
    have ok := valid.producer
    rw [point] at ok
    have room := ok.1
    have ordered := valid.indices.ordered
    unfold Room at room
    unfold State.held
    omega

theorem step_written {size : Nat} {before after : State FrameData} {event : Event FrameData} (other : Other event)
    (moved : step size before event = some after) : after.written = before.written := by
  cases event with
  | write | producer => exact other.elim
  | read op blocking =>
    obtain ⟨idle, rfl⟩ := step_read moved
    rfl
  | clear =>
    obtain ⟨idle, rfl⟩ := step_clear moved
    rfl
  | consumer => exact (consumerStep_frame moved).1
  | wake =>
    obtain ⟨call, old, parked, changed, rfl⟩ := step_wake moved
    rfl
  | stop =>
    obtain rfl := step_stop moved
    rfl
  | stopIncrement =>
    obtain ⟨waiting, rfl⟩ := step_stopIncrement moved
    rfl
  | stopNotify =>
    obtain ⟨waiting, rfl⟩ := step_stopNotify moved
    rcases notifyOne_cases before with same | ⟨call, old, parked, woken⟩
    · dsimp only
      rw [same]
    · dsimp only
      rw [woken]

/-- A ring buffer after a step of another party. -/
theorem Ledger.other {before : FrameServer setup} (ledger : Ledger before) {moving : Kind} {ring : State FrameData}
    (event : Event FrameData) (other : Other event) (moved : step (capacity moving) (before.rings moving) event = some ring)
    (kind : Kind) : (Function.update before.rings moving ring kind).written = accepted kind before.offers := by
  revert kind
  apply (Function.forall_update_iff before.rings fun kind ring => ring.written = accepted kind before.offers).mpr
  refine ⟨?_, fun kind _ => ledger.written kind⟩
  rw [step_written other moved]
  exact ledger.written moving

theorem accepted_snoc (kind : Kind) (offers : List Offer) (offer : Offer) :
    accepted kind (offers ++ [offer]) = accepted kind offers ++
      if offer.accepted && offer.arrival.kind == kind then [offer.arrival.frameData] else [] := by
  unfold accepted
  rw [List.filter_append, List.map_append, List.filter_cons]
  split <;> rfl

/-- The frames of a thread, when it alone has moved on. -/
theorem Ledger.moved {before : FrameServer setup} (ledger : Ledger before) (thread : Nat) (point : CallbackPoint)
    (arrivals : List Arrival) (offers : List Offer) (mine : ∀ arrival ∈ arrivals, arrival.thread = thread)
    (own : ∀ offer ∈ offers, offer.arrival.thread = thread)
    (same : pending thread (before.callbacks thread) ++ arrivals = offers.map Offer.arrival ++ pending thread point)
    (other : Nat) :
    (before.arrivals ++ arrivals).filter (fun arrival => arrival.thread == other) =
      ((before.offers ++ offers).filter fun offer => offer.arrival.thread == other).map Offer.arrival ++
        pending other (Function.update before.callbacks thread point other) := by
  rw [List.filter_append, List.filter_append, List.map_append, ledger.arrived other]
  by_cases here : other = thread
  · subst here
    have all : arrivals.filter (fun arrival => arrival.thread == other) = arrivals := by
      apply List.filter_eq_self.mpr
      exact fun arrival member => by simpa using mine arrival member
    have whole : offers.filter (fun offer => offer.arrival.thread == other) = offers := by
      apply List.filter_eq_self.mpr
      exact fun offer member => by simpa using own offer member
    rw [all, whole, Function.update_self, List.append_assoc, same, List.append_assoc]
  · have no : arrivals.filter (fun arrival => arrival.thread == other) = [] := by
      apply List.filter_eq_nil_iff.mpr
      intro arrival member
      simpa [mine arrival member] using Ne.symm here
    have none : offers.filter (fun offer => offer.arrival.thread == other) = [] := by
      apply List.filter_eq_nil_iff.mpr
      intro offer member
      simpa [own offer member] using Ne.symm here
    rw [no, none, Function.update_of_ne here]
    simp

theorem effect_ledger {before after : FrameServer setup} {event : FrameEvent} (served : Served before)
    (effect : Effect before event after) (ledger : Ledger before) : Ledger after := by
  -- a thread that comes from and goes to a place without a frame
  have passes : ∀ {thread : Nat} {point : CallbackPoint}, pending thread (before.callbacks thread) = pending thread point →
      ∀ other, before.arrivals.filter (fun arrival => arrival.thread == other) =
        (before.offers.filter fun offer => offer.arrival.thread == other).map Offer.arrival ++
          pending other (Function.update before.callbacks thread point other) := by
    intro thread point same other
    have moved := ledger.moved thread point [] [] (by simp) (by simp) (by simpa using same) other
    simpa using moved
  cases effect with
  | throws thread frame processTimeUs outside =>
    exact ⟨passes (by rw [outside]; rfl), ledger.written, ledger.filled⟩
  | arrives thread frame processTimeUs kind outside =>
    refine ⟨fun other => ?_, ledger.written, ledger.filled⟩
    have moved := ledger.moved thread (.locking kind ⟨frame.profileUid, processTimeUs, frame⟩)
      [⟨thread, kind, ⟨frame.profileUid, processTimeUs, frame⟩⟩] [] (by simp) (by simp) (by rw [outside]; rfl) other
    simpa using moved
  | locks thread kind frameData locking free =>
    exact ⟨passes (by rw [locking]; rfl), ledger.written, ledger.filled⟩
  | unlocks thread kind unlocking =>
    exact ⟨passes (by rw [unlocking]; rfl), ledger.written, ledger.filled⟩
  | writes thread moving point ring writes moved =>
    have valid := served.inv moving
    rw [ringOf_writing served.exclusive writes] at valid
    have others : ∀ {offers : List Offer}, (∀ kind, kind ≠ moving → accepted kind offers = accepted kind before.offers) →
        ring.written = accepted moving offers → ∀ kind,
        (Function.update before.rings moving { ring with producer := .idle } kind).written = accepted kind offers := by
      intro offers same written
      apply (Function.forall_update_iff before.rings fun kind ring => ring.written = accepted kind offers).mpr
      refine ⟨written, fun kind here => ?_⟩
      rw [same kind here]
      exact ledger.written kind
    rcases writer_verdict valid moved with ⟨none, same, item⟩ | ⟨frameData, item, gone, outcome⟩
    · dsimp only at none item
      rw [none]
      dsimp only
      rw [List.append_nil]
      refine ⟨passes ?_, others (fun _ _ => rfl) (same.trans (ledger.written moving)), ledger.filled⟩
      rw [pending_written, writes, item]
      rfl
    · dsimp only at item
      have arrived : ∀ offer : Offer, offer.arrival = ⟨thread, moving, frameData⟩ → ∀ other,
          before.arrivals.filter (fun arrival => arrival.thread == other) =
            ((before.offers ++ [offer]).filter fun offer => offer.arrival.thread == other).map Offer.arrival ++
              pending other (Function.update before.callbacks thread (.written moving ring.producer) other) := by
        intro offer same other
        have moved := ledger.moved thread (.written moving ring.producer) [] [offer] (by simp) (by simp [same])
          (by rw [pending_written, writes, pending, item, gone]; simp [same]) other
        simpa using moved
      have filled : ∀ offer : Offer, offer.accepted = decide (offer.filled < capacity offer.arrival.kind - 1) →
          ∀ other ∈ before.offers ++ [offer], other.accepted = decide (other.filled < capacity other.arrival.kind - 1) := by
        intro offer exact_ other member
        rcases List.mem_append.mp member with earlier | last
        · exact ledger.filled other earlier
        · rw [List.mem_singleton.mp last]
          exact exact_
      rcases outcome with ⟨verdict, written, held⟩ | ⟨verdict, written, held⟩
      · dsimp only at verdict
        rw [verdict]
        refine ⟨arrived _ rfl, others ?_ ?_, filled _ ?_⟩
        · intro kind differs
          rw [accepted_snoc]
          simp
        · rw [written, accepted_snoc]
          simpa using ledger.written moving
        · have held : (before.rings moving).held = capacity moving - 1 := held
          simp [held]
      · dsimp only at verdict
        rw [verdict]
        refine ⟨arrived _ rfl, others ?_ ?_, filled _ ?_⟩
        · intro kind differs
          rw [accepted_snoc]
          simp [Ne.symm differs]
        · rw [written, accepted_snoc, ← ledger.written moving]
          simp
        · have held : (before.rings moving).held < capacity moving - 1 := held
          simp [held]
  | begins moving reading ring checking running moved =>
    exact ⟨ledger.arrived, ledger.other (.read .moveRead true) trivial moved, ledger.filled⟩
  | reads moving reading ring inRead moved =>
    have moved : step (capacity moving) (before.rings moving) .consumer = some ring := moved
    exact ⟨ledger.arrived, ledger.other .consumer trivial moved, ledger.filled⟩
  | wakes moving ring moved => exact ⟨ledger.arrived, ledger.other .wake trivial moved, ledger.filled⟩
  | calls thread moving call rest ring calling moved =>
    exact ⟨ledger.arrived, ledger.other call.event (other_event call) moved, ledger.filled⟩
  | _ => exact ⟨ledger.arrived, ledger.written, ledger.filled⟩

/-! The whole server. -/

structure Invariant (server : FrameServer setup) : Prop where
  served : Served server
  launches : Launches server
  consumes : ∀ kind, Consumes server kind
  ledger : Ledger server

theorem step_invariant : Preserved FrameStep (@Invariant setup) := by
  intro before event after moved kept
  have effect := step_effect moved
  constructor
  · exact effect_served kept.served effect
  · exact effect_launches kept.launches effect
  · exact fun kind => effect_consumes kept.served (fun _ => kept.launches.starting) effect (kept.consumes kind)
  · exact effect_ledger kept.served effect kept.ledger

theorem run_invariant {events : List FrameEvent} {server : FrameServer setup} (run : FrameRun events server) :
    Invariant server :=
  run.keeps step_invariant ⟨start_served, fun kind => by simp [launched], start_consumes, start_ledger⟩

/-- The frames that have been accepted are those processed, the one in hand and those that wait. -/
theorem Invariant.accounted {server : FrameServer setup} (invariant : Invariant server) (kind : Kind) :
    ∃ (processed : List (FrameData × Reading)) (queued : List FrameData),
      processed.foldlM (process setup kind) (startEncoders setup kind) = some (server.encoders kind) ∧
      accepted kind server.offers = processed.map Prod.fst ++ inHand (server.workers kind) ++ queued ∧
      queued.length < capacity kind := by
  obtain ⟨processed, folded, returned⟩ := (invariant.consumes kind).processed
  have indices := (invariant.served.inv kind).indices
  have gapless := (invariant.served.gapless kind).returned
  have written : (ringOf server kind).written = accepted kind server.offers := invariant.ledger.written kind
  refine ⟨processed, (accepted kind server.offers).drop (ringOf server kind).popped, folded, ?_, ?_⟩
  · have same : (ringOf server kind).returned = processed.map Prod.fst ++ inHand (server.workers kind) := returned
    rw [← same, gapless, written, List.take_append_drop]
  · have bounded := indices.bounded
    rw [List.length_drop, ← written]
    have positive := capacity_pos kind
    omega

/-- Whatever the sensor threads, the processing threads and `stop_all` do in whatever order: only one thread at a time
writes a ring buffer, and no check of it fails; a frame is refused exactly when all slots but one are filled; and each
processing thread goes through the accepted frames of its buffer in the order of the lock, none lost and none twice. -/
theorem frames_accounted {events : List FrameEvent} {server : FrameServer setup} (run : FrameRun events server)
    (kind : Kind) :
    (∃ (processed : List (FrameData × Reading)) (queued : List FrameData),
      processed.foldlM (process setup kind) (startEncoders setup kind) = some (server.encoders kind) ∧
      accepted kind server.offers = processed.map Prod.fst ++ inHand (server.workers kind) ++ queued ∧
      queued.length < capacity kind) ∧
    (∀ thread, server.arrivals.filter (fun arrival => arrival.thread == thread) =
      (server.offers.filter fun offer => offer.arrival.thread == thread).map Offer.arrival ++
        pending thread (server.callbacks thread)) ∧
    (∀ offer ∈ server.offers, offer.accepted = decide (offer.filled < capacity offer.arrival.kind - 1)) ∧
    (∀ first second one two, server.callbacks first = .writing kind one → server.callbacks second = .writing kind two →
      first = second ∧ one ≠ .aborted) ∧
    (server.rings kind).consumer ≠ .aborted := by
  have invariant := run_invariant run
  have exclusive := invariant.served.exclusive
  refine ⟨invariant.accounted kind, invariant.ledger.arrived, invariant.ledger.filled, ?_, ?_⟩
  · intro first second one two writes other
    have same := (exclusive.owner writes).symm.trans (exclusive.owner other)
    refine ⟨Option.some.inj same, fun aborted => ?_⟩
    have ok := (invariant.served.inv kind).producer
    rw [ringOf_writing exclusive writes, aborted] at ok
    exact ok
  · intro aborted
    have ok := (invariant.served.inv kind).consumer
    have point : (ringOf server kind).consumer = .aborted := aborted
    rw [point] at ok
    exact ok

def webcamMeta : StreamMeta where
  id := { serialNumber := ⟨Vector.replicate 24 55, 3⟩, type := .color, index := 0 }
  deviceName := ⟨Vector.replicate 24 0, 0⟩
  format := .rgb8
  fps := 30
  intrinsics := { width := 1, height := 1, ppx := 0, ppy := 0, fx := 0, fy := 0 }
  extrinsics := Vector.replicate 16 0
  depthScale := 0

theorem plain_bound (data : List UInt8) : data.length ≤ data.length + data.length / 256 + 64 := by omega

/-- One camera, and codecs that send what they get as it is. -/
def webcam : Setup where
  vpx :=
    { Codec := Unit
      Image := List UInt8
      initVpxEncoder := fun _ => ()
      rgb24Yuv420 := fun _ _ data => data
      encode := fun _ image _ _ => some ((), [⟨true, image⟩]) }
  zstd := { compress := fun data => data, decompress := some, restores := fun _ => rfl, bound := plain_bound }
  uidToStreamMeta uid := if uid = 3 then some webcamMeta else none

def pixel : Frame := { profileUid := 3, data := [1, 2, 3], width := 1, height := 1, motionData := (0, 0, 0) }

def plainReading : Reading := ⟨true, (Vector.replicate 3 0, 0)⟩

/-- A frame is delivered, the threads are started, and the frame is processed. -/
def onePixel : List FrameEvent :=
  [.callback 0 pixel 7] ++ List.replicate 13 (.sensor 0) ++ List.replicate 4 .main ++
    List.replicate 19 (.worker .color plainReading)

/-- Two threads deliver a frame each, the processing threads are started, and the first frame is processed. -/
def twoPixels : List FrameEvent :=
  [.callback 0 pixel 7, .callback 1 pixel 9] ++ List.replicate 13 (.sensor 0) ++ List.replicate 13 (.sensor 1) ++
    List.replicate 4 .main ++ List.replicate 19 (.worker .color plainReading)

theorem frames_accounted_pixel : ∃ server : FrameServer webcam, FrameRun twoPixels server ∧
    accepted .color server.offers = [⟨3, 7, pixel⟩, ⟨3, 9, pixel⟩] ∧
    (∃ (processed : List (FrameData × Reading)) (queued : List FrameData),
      processed.foldlM (process webcam .color) (startEncoders webcam .color) = some (server.encoders .color) ∧
      accepted .color server.offers = processed.map Prod.fst ++ inHand (server.workers .color) ++ queued) ∧
    (∀ offer ∈ server.offers, offer.accepted = decide (offer.filled < capacity offer.arrival.kind - 1)) ∧
    (server.rings .color).consumer ≠ .aborted := by
  have executed : execute FrameServer.next ({} : FrameServer webcam) twoPixels = some _ := rfl
  have run := Run.of_execute executed
  obtain ⟨⟨processed, queued, folded, split, _⟩, _, filled, _, alive⟩ := frames_accounted run .color
  exact ⟨_, run, rfl, ⟨processed, queued, folded, split⟩, filled, alive⟩

end AxbyCore.Proofs.FrameServer
