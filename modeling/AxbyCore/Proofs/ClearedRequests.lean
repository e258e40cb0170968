import AxbyCore.Proofs.RingBufferQueue
import AxbyCore.Pubsub.PublisherQueue

/-! What clearing the publish requests discards. The clear is a flag that the publisher
thread looks at between two requests, so until it does every request that arrives is
wiped with the earlier ones, unless the thread takes it first. -/

namespace AxbyCore.Pubsub.Proofs
open RingBuffer RingBuffer.Proofs

/-- A wipe is to come: the flag is set and the thread has not yet loaded the tail. -/
def Pending (queue : PublisherQueue) : Prop :=
  queue.clearRequested = true ∧ (queue.point = .top ∨ queue.point = .reading ∨
    queue.point = .clearing ∧ queue.ring.consumer = .clearTail)

/-- A wipe must not discard the ticket: its call began after a clear that is still to be
carried out, or it is a bind request. -/
def Exposed (queue : PublisherQueue) (ticket : Ticket) : Prop :=
  queue.resets < ticket.clearsBefore ∨ ticket.request.bindAddress ≠ []

/-- The thread is in `move_read` and takes the item at this position. -/
def TakenNext (queue : PublisherQueue) (index : Nat) : Prop := queue.point = .reading ∧ index = queue.ring.popped

/-- No clear while a bind request is in the queue, and no request is enqueued while a clear
is to be carried out, except what the thread takes before it looks at the flag again. -/
def Careful (queue : PublisherQueue) : PublisherQueueEvent → Prop
  | .clear => queue.clearRequested = false → ∀ index ticket, Queued queue.ring index ticket →
      ticket.request.bindAddress ≠ [] → TakenNext queue index
  | .write => ∀ ticket tail, queue.ring.producer = .storeTail ticket tail → Pending queue → Exposed queue ticket →
      TakenNext queue queue.ring.written.length
  | _ => True

/-- The reader of the ring buffer is where the thread is. -/
def Located (queue : PublisherQueue) : Prop :=
  match queue.point with
  | .top | .resetting => queue.ring.consumer = .idle
  | .clearing => queue.ring.consumer = .clearTail ∨ ∃ tail, queue.ring.consumer = .clearStore tail
  | .reading => InRead queue.ring.consumer
  | .gone => True

/-- Each call began after the clears that it has seen. -/
structure Dated (queue : PublisherQueue) : Prop where
  waiting : ∀ ticket ∈ queue.waiting, ticket.clearsBefore ≤ queue.clears
  written : ∀ ticket ∈ queue.ring.written, ticket.clearsBefore ≤ queue.clears
  writing : ∀ ticket, writing queue.ring.producer = some ticket → ticket.clearsBefore ≤ queue.clears

/-- A discarded ticket's call began before every clear that caused the wipe had returned,
and it is no bind request. -/
def Rightly (entry : Ticket × Nat) : Prop := entry.1.clearsBefore ≤ entry.2 ∧ entry.1.request.bindAddress = []

structure Sound (queue : PublisherQueue) : Prop where
  ring : Inv publisherRequestsSize queue.ring
  dated : Dated queue
  located : Located queue
  flag : queue.clearRequested = false → queue.resets = queue.clears
  asked : queue.point = .clearing → queue.clearRequested = true
  risk : Pending queue → ∀ index ticket, Queued queue.ring index ticket → Exposed queue ticket → TakenNext queue index
  wipe : ∀ tail, queue.ring.consumer = .clearStore tail → ∃ count, tail = count % publisherRequestsSize ∧
    queue.ring.popped ≤ count ∧ count ≤ queue.ring.written.length ∧
    ∀ index ticket, index < count → Queued queue.ring index ticket → ¬ Exposed queue ticket
  discarded : ∀ entry ∈ queue.discarded, Rightly entry

/-- Behind a wipe, and when it has gone, the thread takes no pending clear any more. -/
theorem not_pending {queue : PublisherQueue} (elsewhere : queue.point = .resetting ∨ queue.point = .gone) : ¬ Pending queue := by
  rintro ⟨-, place⟩
  rcases elsewhere with point | point
  · simp [point] at place
  · simp [point] at place

theorem Dated.keeps {before after : PublisherQueue} (dated : Dated before) (waiting : after.waiting = before.waiting)
    (clears : after.clears = before.clears) (written : after.ring.written = before.ring.written)
    (producer : after.ring.producer = before.ring.producer) : Dated after := by
  constructor
  · rw [waiting, clears]
    exact dated.waiting
  · rw [written, clears]
    exact dated.written
  · rw [producer, clears]
    exact dated.writing

theorem initial_sound : Sound {} := by
  refine ⟨initial_inv (by decide), ⟨by simp, by simp [State.initial], by simp [State.initial, writing]⟩, rfl, ?_, ?_, ?_, ?_,
    by simp⟩
  · intro _
    rfl
  · intro clearing
    cases clearing
  · intro pending
    exact absurd pending.1 (by decide)
  · intro tail point
    exact absurd point (by simp [State.initial])

section
variable {queue : PublisherQueue}

theorem Sound.clear (sound : Sound queue) (careful : Careful queue .clear) :
    Sound { queue with clearRequested := true, clears := queue.clears + 1 } := by
  refine ⟨sound.ring, ⟨?_, ?_, ?_⟩, sound.located, ?_, fun _ => rfl, ?_, sound.wipe, sound.discarded⟩
  · exact fun ticket member => Nat.le_succ_of_le (sound.dated.waiting ticket member)
  · exact fun ticket member => Nat.le_succ_of_le (sound.dated.written ticket member)
  · exact fun ticket held => Nat.le_succ_of_le (sound.dated.writing ticket held)
  · intro unset
    exact absurd unset (by simp)
  · intro pending index ticket queued exposed
    cases set : queue.clearRequested with
    | true => exact sound.risk ⟨set, pending.2⟩ index ticket queued exposed
    | false =>
      -- the clears so far have all been carried out, so only a bind request is exposed
      have early := sound.dated.written ticket (List.mem_of_getElem? queued.2)
      have resets := sound.flag set
      rcases exposed with late | bind
      · have late : queue.resets < ticket.clearsBefore := late
        omega
      · exact careful set index ticket queued bind

theorem Sound.call (sound : Sound queue) (request : PublisherRequest) :
    Sound { queue with waiting := queue.waiting ++ [⟨request, queue.clears⟩] } := by
  refine ⟨sound.ring, ⟨?_, sound.dated.written, sound.dated.writing⟩, sound.located, sound.flag, sound.asked, sound.risk, sound.wipe,
    sound.discarded⟩
  intro ticket member
  rcases List.mem_append.mp member with earlier | here
  · exact sound.dated.waiting ticket earlier
  · obtain rfl := List.mem_singleton.mp here
    exact Nat.le_refl _

theorem Sound.lock (sound : Sound queue) {index : Nat} {ticket : Ticket} {ring : State Ticket}
    (found : queue.waiting[index]? = some ticket)
    (moved : RingBuffer.step publisherRequestsSize queue.ring (.write ticket) = some ring) :
    Sound { queue with ring, waiting := queue.waiting.eraseIdx index } := by
  have valid := step_inv _ _ _ moved sound.ring
  cases point : queue.ring.producer <;> simp only [RingBuffer.step, point, reduceCtorEq, Option.some.injEq] at moved
  subst ring
  refine ⟨valid, ⟨?_, sound.dated.written, ?_⟩, sound.located, sound.flag, sound.asked, sound.risk, sound.wipe,
    sound.discarded⟩
  · exact fun other member => sound.dated.waiting other (List.mem_of_mem_eraseIdx member)
  · intro other held
    obtain rfl : ticket = other := Option.some.inj held
    exact sound.dated.waiting ticket (List.mem_of_getElem? found)

/-- A notification only moves a reader that waits. -/
theorem frame_elsewhere {before after : State Ticket} (frame : WriterFrame before after) {point : ConsumerPoint Ticket}
    (elsewhere : ∀ call, point ≠ .resample call) (held : after.consumer = point) : before.consumer = point := by
  rcases frame.consumer with same | ⟨call, old, _, resampled⟩
  · rw [← same]
    exact held
  · rw [resampled] at held
    exact absurd held.symm (elsewhere call)

theorem Located.frame {ring : State Ticket} (located : Located queue) (frame : WriterFrame queue.ring ring) :
    Located { queue with ring } := by
  rcases frame.consumer with same | ⟨call, old, parked, resampled⟩
  · unfold Located at *
    simp only [same]
    exact located
  · unfold Located at *
    simp only [parked] at located
    cases point : queue.point <;> simp only [point, resampled] at located ⊢
    · exact absurd located (by simp)
    · exact absurd located (by simp)
    · exact absurd located (by simp)
    · exact located

/-- What the steps of a write keep. The items they publish have to be safe. -/
theorem Sound.writes (sound : Sound queue) {ring : State Ticket} {extra : List Ticket}
    (valid : Inv publisherRequestsSize ring) (frame : WriterFrame queue.ring ring)
    (held : ∀ ticket, writing ring.producer = some ticket → writing queue.ring.producer = some ticket)
    (written : ring.written = queue.ring.written ++ extra) (fits : ∀ ticket ∈ extra, ticket.clearsBefore ≤ queue.clears)
    (safe : Pending queue → ∀ index ticket, queue.ring.written.length ≤ index → ring.written[index]? = some ticket →
      Exposed queue ticket → TakenNext queue index) : Sound { queue with ring } := by
  have popped := frame.popped
  have earlier : ∀ index ticket, index < queue.ring.written.length → Queued ring index ticket →
      Queued queue.ring index ticket := by
    intro index ticket inside queued
    refine ⟨popped ▸ queued.1, ?_⟩
    rw [← queued.2, written, List.getElem?_append_left inside]
  refine ⟨valid, ⟨sound.dated.waiting, ?_, ?_⟩, sound.located.frame frame, sound.flag, sound.asked, ?_, ?_,
    sound.discarded⟩
  · intro ticket member
    rw [written] at member
    rcases List.mem_append.mp member with old | new
    · exact sound.dated.written ticket old
    · exact fits ticket new
  · exact fun ticket same => sound.dated.writing ticket (held ticket same)
  · intro pending index ticket queued exposed
    have before : Pending queue := by
      refine ⟨pending.1, pending.2.imp id (Or.imp id ?_)⟩
      exact fun ⟨clearing, tail⟩ => ⟨clearing, frame_elsewhere frame (by simp) tail⟩
    have next : TakenNext queue index := by
      rcases Nat.lt_or_ge index queue.ring.written.length with inside | after
      · exact sound.risk before index ticket (earlier index ticket inside queued) exposed
      · exact safe before index ticket after queued.2 exposed
    exact ⟨next.1, next.2.trans popped.symm⟩
  · intro tail clearing
    obtain ⟨count, same, low, high, spared⟩ := sound.wipe tail (frame_elsewhere frame (by simp) clearing)
    refine ⟨count, same, by rw [popped]; exact low, by rw [written, List.length_append]; omega, ?_⟩
    exact fun index ticket inside queued => spared index ticket inside (earlier index ticket (by omega) queued)

theorem Sound.write (sound : Sound queue) (careful : Careful queue .write) {ring : State Ticket}
    (moved : RingBuffer.step publisherRequestsSize queue.ring .producer = some ring) : Sound { queue with ring } := by
  have valid := step_inv _ _ _ moved sound.ring
  have frame := producerStep_frame moved
  cases producerStep_effect sound.ring moved with
  | quiet written refusals item =>
    apply sound.writes valid frame (by rw [item]; exact fun _ => id) (written.trans (List.append_nil _).symm) (by simp)
    intro _ index ticket after found
    rw [written, List.getElem?_eq_none after] at found
    cases found
  | refuses value tail point idle written refusals =>
    have empty : writing ring.producer = none := by
      rw [idle]
      rfl
    apply sound.writes valid frame (by rw [empty]; simp) (written.trans (List.append_nil _).symm) (by simp)
    intro _ index ticket after found
    rw [written, List.getElem?_eq_none after] at found
    cases found
  | publishes value tail point written refusals done =>
    have empty : writing ring.producer = none := by
      rw [done]
      rfl
    have item : writing queue.ring.producer = some value := by
      rw [point]
      rfl
    apply sound.writes valid frame (by rw [empty]; simp) written
    · intro ticket member
      obtain rfl := List.mem_singleton.mp member
      exact sound.dated.writing ticket item
    · intro pending index ticket after found exposed
      have inside := (List.getElem?_eq_some_iff.mp found).1
      rw [written, List.length_append, List.length_singleton] at inside
      obtain rfl : index = queue.ring.written.length := by omega
      rw [written, List.getElem?_concat_length] at found
      obtain rfl := Option.some.inj found
      exact careful value tail point pending exposed

theorem Sound.wake (sound : Sound queue) {ring : State Ticket}
    (moved : RingBuffer.step publisherRequestsSize queue.ring .wake = some ring) : Sound { queue with ring } := by
  have valid := step_inv _ _ _ moved sound.ring
  cases point : queue.ring.consumer <;> simp only [RingBuffer.step, point, reduceCtorEq] at moved
  split at moved
  · cases moved
  · obtain rfl := Option.some.inj moved
    apply sound.writes valid ⟨rfl, rfl, .inr ⟨_, _, point, rfl⟩⟩ (fun _ => id) (List.append_nil _).symm (by simp)
    intro _ index ticket after found
    rw [List.getElem?_eq_none after] at found
    cases found

theorem inRead_not_idle {consumer : ConsumerPoint Ticket} (inRead : InRead consumer) : isIdle consumer = false := by
  cases consumer with
  | idle => exact inRead.elim
  | _ => rfl

/-- With the flag taken back no wipe is to come. -/
theorem Sound.startRead {after : PublisherQueue} (sound : Sound queue) (idle : queue.ring.consumer = .idle)
    (unset : queue.clearRequested = false) (moved : queue.startRead = some after) : Sound after := by
  obtain ⟨ring, stepped, rfl⟩ := Option.map_eq_some_iff.mp moved
  have valid := step_inv _ _ _ stepped sound.ring
  simp only [RingBuffer.step, idle, if_true, Option.some.injEq] at stepped
  subst ring
  refine ⟨valid, ⟨sound.dated.waiting, sound.dated.written, sound.dated.writing⟩, by simp [Located, InRead], sound.flag,
    ?_, ?_, ?_, sound.discarded⟩
  · intro clearing
    cases clearing
  · intro pending
    exact absurd pending.1 (by simp [unset])
  · intro tail clearing
    cases clearing

/-- The thread sees the flag; nothing in the queue is exposed, as it takes no more. -/
theorem Sound.startClear {after : State Ticket} (sound : Sound queue) (point : queue.point = .top)
    (set : queue.clearRequested = true) (moved : RingBuffer.step publisherRequestsSize queue.ring .clear = some after) :
    Sound { queue with ring := after, point := .clearing } := by
  have valid := step_inv _ _ _ moved sound.ring
  cases idle : queue.ring.consumer <;> simp only [RingBuffer.step, idle, reduceCtorEq, Option.some.injEq] at moved
  subst after
  refine ⟨valid, ⟨sound.dated.waiting, sound.dated.written, sound.dated.writing⟩, .inl rfl, sound.flag, fun _ => set, ?_, ?_,
    sound.discarded⟩
  · intro _ index ticket queued exposed
    have next := sound.risk ⟨set, .inl point⟩ index ticket queued exposed
    exact absurd (point.symm.trans next.1) (by decide)
  · intro tail clearing
    cases clearing

/-- The load of the tail settles what is wiped. -/
theorem Sound.clearTail {after : State Ticket} (sound : Sound queue) (point : queue.point = .clearing)
    (tail : queue.ring.consumer = .clearTail)
    (moved : RingBuffer.step publisherRequestsSize queue.ring .consumer = some after) :
    Sound { queue with ring := after, point := .clearing } := by
  have valid := step_inv _ _ _ moved sound.ring
  obtain rfl := clearTail_step tail moved
  refine ⟨valid, ⟨sound.dated.waiting, sound.dated.written, sound.dated.writing⟩, .inr ⟨_, rfl⟩, sound.flag,
    fun _ => sound.asked point, ?_, ?_, sound.discarded⟩
  · intro pending
    rcases pending.2 with other | other | ⟨_, other⟩
    · cases other
    · cases other
    · cases other
  · intro loaded same
    obtain rfl := (ConsumerPoint.clearStore.inj same)
    refine ⟨queue.ring.written.length, sound.ring.indices.tail, sound.ring.indices.ordered, Nat.le_refl _, ?_⟩
    intro index ticket _ queued exposed
    have next := sound.risk ⟨sound.asked point, .inr (.inr ⟨point, tail⟩)⟩ index ticket queued exposed
    exact absurd (point.symm.trans next.1) (by decide)

/-- The store to the head wipes only what is not exposed. -/
theorem Sound.clearStore {after : State Ticket} (sound : Sound queue) {tail : Nat}
    (loaded : queue.ring.consumer = .clearStore tail)
    (moved : RingBuffer.step publisherRequestsSize queue.ring .consumer = some after) :
    isIdle after.consumer = true ∧ Sound { queue with
      ring := after
      point := .resetting
      discarded := queue.discarded ++ (passed queue.ring after).map fun ticket => (ticket, queue.resets) } := by
  have valid := step_inv _ _ _ moved sound.ring
  obtain ⟨count, rfl, low, high, spared⟩ := sound.wipe tail loaded
  obtain ⟨idle, popped⟩ := clearStore_step sound.ring loaded low high moved
  obtain ⟨written, producer, _⟩ := consumerStep_frame moved
  refine ⟨by rw [idle]; rfl, valid, sound.dated.keeps rfl rfl written producer, idle, sound.flag, ?_, ?_, ?_, ?_⟩
  · intro clearing
    cases clearing
  · intro pending
    exact absurd pending (not_pending (.inl rfl))
  · intro tail clearing
    rw [idle] at clearing
    cases clearing
  · intro entry member
    rcases List.mem_append.mp member with earlier | wiped
    · exact sound.discarded entry earlier
    · obtain ⟨ticket, inside, rfl⟩ := List.mem_map.mp wiped
      obtain ⟨offset, found⟩ := List.mem_iff_getElem?.mp inside
      have within := (List.getElem?_eq_some_iff.mp found).1
      have there : queue.ring.written[queue.ring.popped + offset]? = some ticket := by
        rw [passed, List.getElem?_take, popped] at found
        split at found
        · rw [← List.getElem?_drop]
          exact found
        · cases found
      have bound : queue.ring.popped + offset < count := by
        rw [passed, List.length_take, popped] at within
        omega
      have safe := spared _ ticket bound ⟨by omega, there⟩
      unfold Exposed at safe
      constructor
      · have : ¬ queue.resets < ticket.clearsBefore := fun late => safe (.inl late)
        exact Nat.not_lt.mp this
      · by_contra bind
        exact safe (.inr bind)

/-- A step of a read takes the first item of the queue or leaves the queue alone. -/
theorem Sound.read {after : State Ticket} (sound : Sound queue) (point : queue.point = .reading)
    (moved : RingBuffer.step publisherRequestsSize queue.ring .consumer = some after) :
    Sound { queue with
      ring := after
      point := if isIdle after.consumer then
        (if after.returned.length != queue.ring.returned.length then .top else .gone) else .reading } := by
  have valid := step_inv _ _ _ moved sound.ring
  have inRead : InRead queue.ring.consumer := by
    have located := sound.located
    unfold Located at located
    rwa [point] at located
  obtain ⟨written, producer, _⟩ := consumerStep_frame moved
  have queued : after.popped = queue.ring.popped → ∀ index ticket, Queued after index ticket → Queued queue.ring index ticket := by
    intro popped index ticket held
    exact ⟨popped ▸ held.1, written ▸ held.2⟩
  cases readStep_effect sound.ring inRead moved with
  | goesOn inRead popped results =>
    rw [inRead_not_idle inRead]
    refine ⟨valid, sound.dated.keeps rfl rfl written producer, inRead, sound.flag, ?_, ?_, ?_, sound.discarded⟩
    · intro clearing
      cases clearing
    · intro pending index ticket held exposed
      have next := sound.risk ⟨pending.1, .inr (.inl point)⟩ index ticket (queued popped index ticket held) exposed
      exact ⟨rfl, next.2.trans popped.symm⟩
    · intro tail clearing
      rw [clearing] at inRead
      exact inRead.elim
  | fails idle popped returned =>
    have gone : (after.returned.length != queue.ring.returned.length) = false := by simp [returned]
    rw [idle, gone]
    refine ⟨valid, sound.dated.keeps rfl rfl written producer, trivial, sound.flag, ?_, ?_, ?_, sound.discarded⟩
    · intro clearing
      cases clearing
    · intro pending
      exact absurd pending (not_pending (.inr rfl))
    · intro tail clearing
      rw [idle] at clearing
      cases clearing
  | takes item found idle popped returned =>
    have taken : (after.returned.length != queue.ring.returned.length) = true := by simp [returned]
    rw [idle, taken]
    refine ⟨valid, sound.dated.keeps rfl rfl written producer, idle, sound.flag, ?_, ?_, ?_, sound.discarded⟩
    · intro clearing
      cases clearing
    · intro pending index ticket held exposed
      have later : after.popped ≤ index := held.1
      have before : Queued queue.ring index ticket := ⟨by omega, written ▸ held.2⟩
      have next := sound.risk ⟨pending.1, .inr (.inl point)⟩ index ticket before exposed
      have same := next.2
      omega
    · intro tail clearing
      rw [idle] at clearing
      cases clearing

/-- The store to the flag takes back every clear so far. -/
theorem Sound.reset (sound : Sound queue) (point : queue.point = .resetting) (idle : queue.ring.consumer = .idle) :
    Sound { queue with clearRequested := false, resets := queue.clears } := by
  refine ⟨sound.ring, ⟨sound.dated.waiting, sound.dated.written, sound.dated.writing⟩, sound.located, fun _ => rfl, ?_, ?_,
    ?_, sound.discarded⟩
  · intro clearing
    exact absurd (point.symm.trans clearing) (by decide)
  · intro pending
    cases pending.1
  · intro tail clearing
    exact absurd (idle.symm.trans clearing) (by simp)

theorem Sound.thread {after : PublisherQueue} (sound : Sound queue) (moved : queue.threadStep = some after) : Sound after := by
  have located := sound.located
  unfold Located at located
  unfold PublisherQueue.threadStep at moved
  cases point : queue.point with
  | gone =>
    rw [point] at moved
    cases moved
  | top =>
    simp only [point] at moved located
    cases set : queue.clearRequested with
    | true =>
      rw [if_pos set] at moved
      obtain ⟨ring, stepped, rfl⟩ := Option.map_eq_some_iff.mp moved
      exact sound.startClear point set stepped
    | false =>
      rw [if_neg (by simp [set])] at moved
      exact sound.startRead located set moved
  | clearing =>
    simp only [point] at moved located
    obtain ⟨ring, stepped, rfl⟩ := Option.map_eq_some_iff.mp moved
    rcases located with tail | ⟨tail, loaded⟩
    · have still := sound.clearTail point tail stepped
      obtain rfl := clearTail_step tail stepped
      simpa [isIdle, passed] using still
    · obtain ⟨idle, wiped⟩ := sound.clearStore loaded stepped
      rw [idle]
      exact wiped
  | resetting =>
    simp only [point] at moved located
    exact (sound.reset point located).startRead located rfl moved
  | reading =>
    simp only [point] at moved
    obtain ⟨ring, stepped, rfl⟩ := Option.map_eq_some_iff.mp moved
    exact sound.read point stepped

end

/-- A step that meets the condition. -/
def CarefulStep (before : PublisherQueue) (event : PublisherQueueEvent) (after : PublisherQueue) : Prop :=
  PublisherQueueStep before event after ∧ Careful before event

theorem sound_step : Transitions.Preserved CarefulStep Sound := by
  intro before event after ⟨moved, careful⟩ sound
  unfold PublisherQueueStep PublisherQueue.next at moved
  cases event with
  | clear =>
    obtain rfl := Option.some.inj moved
    exact sound.clear careful
  | call request =>
    obtain rfl := Option.some.inj moved
    exact sound.call request
  | lock index =>
    simp only [Option.bind_eq_bind, Option.bind_eq_some_iff, Option.pure_def, Option.some.injEq] at moved
    obtain ⟨ticket, found, ring, stepped, rfl⟩ := moved
    exact sound.lock found stepped
  | write =>
    simp only [Option.bind_eq_bind, Option.bind_eq_some_iff, Option.pure_def] at moved
    obtain ⟨ring, stepped, accepted⟩ := moved
    split at accepted
    · obtain rfl := Option.some.inj accepted
      exact sound.write careful stepped
    · cases accepted
  | thread => exact sound.thread moved
  | wake =>
    obtain ⟨ring, stepped, rfl⟩ := Option.map_eq_some_iff.mp moved
    exact sound.wake stepped

/-- In a run whose steps meet the condition, whatever is wiped belongs to a call that
began before every clear behind the wipe had returned, and is no bind request. -/
theorem clear_discards_earlier {events : List PublisherQueueEvent} {queue : PublisherQueue}
    (run : Transitions.Run CarefulStep {} events queue) : ∀ entry ∈ queue.discarded, Rightly entry :=
  (Transitions.Run.keeps run sound_step initial_sound).discarded

/-! Runs with one request. -/

/-- A call gets the mutex and writes its request. -/
def enqueue (request : PublisherRequest) : List PublisherQueueEvent :=
  [.call request, .lock 0] ++ List.replicate 11 .write

/-- A test of the condition for when no read is in progress. -/
def testedClear (queue : PublisherQueue) : PublisherQueueEvent → Bool
  | .clear => (queue.ring.written.drop queue.ring.popped).all fun ticket => ticket.request.bindAddress.isEmpty
  | .write => !queue.clearRequested
  | _ => true

def testedClearNext (queue : PublisherQueue) (event : PublisherQueueEvent) : Option PublisherQueue :=
  if testedClear queue event then queue.next event else none

theorem testedClearNext_careful {before after : PublisherQueue} {event : PublisherQueueEvent}
    (moved : testedClearNext before event = some after) : CarefulStep before event after := by
  unfold testedClearNext at moved
  split at moved
  · rename_i safe
    refine ⟨moved, ?_⟩
    cases event with
    | clear =>
      intro _ index ticket queued bind
      have inside : ticket ∈ before.ring.written.drop before.ring.popped := by
        apply List.mem_of_getElem?
        rw [List.getElem?_drop, Nat.add_sub_cancel' queued.1]
        exact queued.2
      have none := List.all_eq_true.mp safe ticket inside
      exact absurd (List.isEmpty_iff.mp none) bind
    | write =>
      intro ticket tail _ pending
      rw [testedClear, pending.1] at safe
      cases safe
    | call | lock | thread | wake => trivial
  · cases moved

theorem clear_discards_earlier_once :
    ∃ queue : PublisherQueue, queue.discarded = [(⟨publishTopicOnly [7], 0⟩, 0)] ∧
      ∀ entry ∈ queue.discarded, Rightly entry := by
  have executed : Transitions.execute testedClearNext {} (enqueue (publishTopicOnly [7]) ++ [.clear, .thread, .thread, .thread]) =
      some _ := rfl
  have run := (Transitions.Run.of_execute executed).mono fun _ _ _ => testedClearNext_careful
  exact ⟨_, rfl, clear_discards_earlier run⟩

/-- A request made after a clear, and a bind request made before one, are wiped. -/
theorem clear_discards_later :
    (∃ queue, PublisherQueueRun ([.clear] ++ enqueue (publishTopicOnly [7]) ++ [.thread, .thread, .thread]) queue ∧
      (⟨publishTopicOnly [7], 1⟩, 0) ∈ queue.discarded ∧ ¬ Rightly (⟨publishTopicOnly [7], 1⟩, 0)) ∧
    (∃ queue, PublisherQueueRun (enqueue (bind [7]) ++ [.clear, .thread, .thread, .thread]) queue ∧
      (⟨bind [7], 0⟩, 0) ∈ queue.discarded ∧ ¬ Rightly (⟨bind [7], 0⟩, 0)) := by
  constructor
  · have executed : Transitions.execute PublisherQueue.next {}
        ([.clear] ++ enqueue (publishTopicOnly [7]) ++ [.thread, .thread, .thread]) = some _ := rfl
    refine ⟨_, Transitions.Run.of_execute executed, List.mem_singleton.mpr rfl, ?_⟩
    exact fun rightly => absurd rightly.1 (by decide)
  · have executed : Transitions.execute PublisherQueue.next {}
        (enqueue (bind [7]) ++ [.clear, .thread, .thread, .thread]) = some _ := rfl
    refine ⟨_, Transitions.Run.of_execute executed, List.mem_singleton.mpr rfl, ?_⟩
    exact fun rightly => absurd rightly.2 (by decide)

end AxbyCore.Pubsub.Proofs
