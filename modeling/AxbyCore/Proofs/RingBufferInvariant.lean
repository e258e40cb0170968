import AxbyCore.Concurrency.RingBuffer
import AxbyCore.Library.RingIndex
import Mathlib.Tactic.Common

/-! What holds of a ring buffer at every program point of both parties. The head
and tail are the remainders of two counts that only grow; each party's local
facts are stable under every step of the other. -/

namespace AxbyCore.RingBuffer.Proofs
open Transitions

universe u
variable {T : Type u} {size : Nat}

def Nonempty (state : State T) : Prop := state.popped < state.written.length

/-- There is a slot left to write, and there still is one whatever the consumer does. -/
def Room (size : Nat) (state : State T) : Prop := state.written.length + 1 < state.popped + size

/-- The item at the head has been copied out, so its slot may be empty. -/
def Taken : ConsumerPoint T → Prop
  | .endSlot _ _ _ | .endHead _ _ | .endTail _ _ _ | .advanceLoad _ _ | .advanceStore _ _ _ => True
  | _ => False

/-- The shared members against the counts of published and passed items. -/
structure Indices (size : Nat) (state : State T) : Prop where
  head : state.head = state.popped % size
  tail : state.tail = state.written.length % size
  ordered : state.popped ≤ state.written.length
  bounded : state.written.length < state.popped + size
  slots : ∀ index, state.popped ≤ index → index < state.written.length →
    (index = state.popped → ¬ Taken state.consumer) → state.data (index % size) = state.written[index]?

def ProducerOk (size : Nat) (state : State T) : ProducerPoint T → Prop
  | .idle | .fullTail _ | .increment | .notify => True
  | .fullHead _ tail => tail = state.tail
  | .slot _ => Room size state
  | .assigning _ slot => Room size state ∧ slot = state.tail
  | .checkTail value slot | .checkSlot value slot =>
    Room size state ∧ slot = state.tail ∧ state.data state.tail = some value
  | .checkHead value slot tail =>
    Room size state ∧ slot = state.tail ∧ tail = state.tail ∧ state.data state.tail = some value
  | .loadTail value => Room size state ∧ state.data state.tail = some value
  | .storeTail value tail =>
    Room size state ∧ tail = (state.tail + 1) % size ∧ state.data state.tail = some value
  | .aborted => False

/-- A read that started after the stop flag was set still sees it. -/
def Promised (state : State T) (call : Call) : Prop := call.afterStop = true → state.stopped = true

/-- A blocking read has come out of its wait. -/
def Released (state : State T) (call : Call) : Prop :=
  call.blocking = true → state.stopped = true ∨ Nonempty state

/-- The read has passed its tests and will return the item at the head. -/
structure Ready (state : State T) (call : Call) : Prop where
  fresh : call.afterStop = false
  nonempty : Nonempty state
  newest : call.op = .readLatest → call.published = state.popped + 1

def ConsumerOk (size : Nat) (state : State T) : ConsumerPoint T → Prop
  | .idle | .clearTail => True
  | .sampleCounter call | .loopStopped call _ | .loopHead call _ | .wait call _ | .parked call _ | .resample call =>
    Promised state call
  | .loopTail call _ head => Promised state call ∧ head = state.head
  | .checkStopped call => Promised state call ∧ (state.stopped = true ∨ Nonempty state)
  | .checkHead call => Promised state call ∧ Nonempty state
  | .checkTail call head => Promised state call ∧ Nonempty state ∧ head = state.head
  | .beginStopped call => call.op ≠ .readLatest ∧ Promised state call ∧ Released state call
  | .beginHead call => call.op ≠ .readLatest ∧ call.afterStop = false ∧ (call.blocking = true → Nonempty state)
  | .beginTail call head =>
    call.op ≠ .readLatest ∧ call.afterStop = false ∧ (call.blocking = true → Nonempty state) ∧ head = state.head
  | .latestHead call => call.op = .readLatest ∧ Promised state call ∧ Released state call
  | .latestTail call head =>
    call.op = .readLatest ∧ Promised state call ∧ Released state call ∧ head = state.head
  | .latestStopped call => call.op = .readLatest ∧ Promised state call ∧ Nonempty state
  | .latestLoad call => call.op = .readLatest ∧ call.afterStop = false ∧ Nonempty state
  | .latestStore call head =>
    call.op = .readLatest ∧ call.afterStop = false ∧ state.popped < call.published ∧
      call.published ≤ state.written.length ∧ head = (call.published - 1) % size
  | .slotHead call => Ready state call
  | .copying call slot => Ready state call ∧ slot = state.head
  | .endSlot call slot value => Ready state call ∧ slot = state.head ∧ state.written[state.popped]? = some value
  | .endHead call value | .advanceLoad call value => Ready state call ∧ state.written[state.popped]? = some value
  | .endTail call value head =>
    Ready state call ∧ state.written[state.popped]? = some value ∧ head = state.head
  | .advanceStore call value head =>
    Ready state call ∧ state.written[state.popped]? = some value ∧ head = (state.popped + 1) % size
  | .clearStore tail => ∃ count, state.popped ≤ count ∧ count ≤ state.written.length ∧ tail = count % size
  | .aborted => False

/-- What a completed read may have returned. -/
structure ResultOk (written : List T) (result : ReadResult T) : Prop where
  stopped : result.call.afterStop = true → result.item = none
  blocking : result.call.blocking = true → result.item = none → result.stopped = true
  newest : result.call.op = .readLatest → ∀ value, result.item = some value →
    0 < result.call.published ∧ written[result.call.published - 1]? = some value

/-- The positions, in write order, of the items returned so far. -/
structure History (size : Nat) (state : State T) : Prop where
  positions : ∃ indices : List Nat, indices.Pairwise (· < ·) ∧ (∀ index ∈ indices, index < state.popped) ∧
    state.returned.map some = indices.map (state.written[·]?)
  refusals : ∀ held ∈ state.refusals, held = size - 1
  results : ∀ result ∈ state.results, ResultOk state.written result

structure Inv (size : Nat) (state : State T) : Prop where
  indices : Indices size state
  producer : ProducerOk size state state.producer
  consumer : ConsumerOk size state state.consumer
  history : History size state

/-- The head store moves the passed count exactly to the position it stands for. -/
theorem storeHead_popped {state : State T} (valid : Indices size state) (count : Nat)
    (after : state.popped ≤ count) (within : count < state.popped + size) :
    (state.storeHead size (count % size)).popped = count := by
  obtain ⟨offset, rfl⟩ := Nat.exists_eq_add_of_le after
  have small : offset < size := by omega
  simp only [State.storeHead, valid.head, RingIndex.distance state.popped offset small]

theorem initial_inv (positive : 0 < size) : Inv size (State.initial T) := by
  refine ⟨⟨?_, ?_, ?_, ?_, ?_⟩, trivial, trivial, ⟨[], ?_, ?_, ?_⟩, ?_, ?_⟩
  all_goals simp [State.initial, State.returned, positive]

/-! Facts that one party relies on survive whatever the other may do meanwhile. -/

/-- What the producer may change under the consumer's feet. -/
structure Published (before after : State T) : Prop where
  head : after.head = before.head
  popped : after.popped = before.popped
  stopped : before.stopped = true → after.stopped = true
  written : before.written <+: after.written

theorem Published.nonempty {before after : State T} (grows : Published before after) (holds : Nonempty before) :
    Nonempty after := by
  have longer := grows.written.length_le
  have same := grows.popped
  unfold Nonempty at *
  omega

theorem Published.lookup {before after : State T} (grows : Published before after) {index : Nat} {value : T}
    (found : before.written[index]? = some value) : after.written[index]? = some value := by
  obtain ⟨rest, extended⟩ := grows.written
  rw [← extended]
  exact List.getElem?_append_left (List.getElem?_eq_some_iff.mp found).1 |>.trans found

theorem Published.ready {before after : State T} (grows : Published before after) {call : Call}
    (ready : Ready before call) : Ready after call :=
  ⟨ready.fresh, grows.nonempty ready.nonempty, by rw [grows.popped]; exact ready.newest⟩

theorem Published.released {before after : State T} (grows : Published before after) {call : Call}
    (released : Released before call) : Released after call :=
  fun blocking => (released blocking).imp grows.stopped grows.nonempty

theorem Published.consumer {before after : State T} (grows : Published before after) {point : ConsumerPoint T}
    (valid : ConsumerOk size before point) : ConsumerOk size after point := by
  have promised : ∀ {call}, Promised before call → Promised after call :=
    fun kept late => grows.stopped (kept late)
  have longer := grows.written.length_le
  cases point with
  | idle | clearTail => trivial
  | sampleCounter | loopStopped | loopHead | wait | parked | resample => exact promised valid
  | loopTail => exact ⟨promised valid.1, valid.2.trans grows.head.symm⟩
  | checkStopped => exact ⟨promised valid.1, valid.2.imp grows.stopped grows.nonempty⟩
  | checkHead => exact ⟨promised valid.1, grows.nonempty valid.2⟩
  | checkTail => exact ⟨promised valid.1, grows.nonempty valid.2.1, valid.2.2.trans grows.head.symm⟩
  | beginStopped | latestHead => exact ⟨valid.1, promised valid.2.1, grows.released valid.2.2⟩
  | beginHead => exact ⟨valid.1, valid.2.1, fun blocking => grows.nonempty (valid.2.2 blocking)⟩
  | beginTail =>
    exact ⟨valid.1, valid.2.1, fun blocking => grows.nonempty (valid.2.2.1 blocking), valid.2.2.2.trans grows.head.symm⟩
  | latestTail => exact ⟨valid.1, promised valid.2.1, grows.released valid.2.2.1, valid.2.2.2.trans grows.head.symm⟩
  | latestStopped => exact ⟨valid.1, promised valid.2.1, grows.nonempty valid.2.2⟩
  | latestLoad => exact ⟨valid.1, valid.2.1, grows.nonempty valid.2.2⟩
  | latestStore =>
    obtain ⟨op, fresh, ahead, seen, same⟩ := valid
    exact ⟨op, fresh, by rw [grows.popped]; exact ahead, by omega, same⟩
  | slotHead => exact grows.ready valid
  | copying => exact ⟨grows.ready valid.1, valid.2.trans grows.head.symm⟩
  | endSlot =>
    refine ⟨grows.ready valid.1, valid.2.1.trans grows.head.symm, ?_⟩
    rw [grows.popped]
    exact grows.lookup valid.2.2
  | endHead | advanceLoad =>
    refine ⟨grows.ready valid.1, ?_⟩
    rw [grows.popped]
    exact grows.lookup valid.2
  | endTail =>
    refine ⟨grows.ready valid.1, ?_, valid.2.2.trans grows.head.symm⟩
    rw [grows.popped]
    exact grows.lookup valid.2.1
  | advanceStore =>
    refine ⟨grows.ready valid.1, ?_, ?_⟩
    all_goals rw [grows.popped]
    · exact grows.lookup valid.2.1
    · exact valid.2.2
  | clearStore =>
    obtain ⟨count, after, seen, same⟩ := valid
    exact ⟨count, by rw [grows.popped]; exact after, by omega, same⟩
  | aborted => exact valid

theorem Published.history {before after : State T} (grows : Published before after)
    (results : after.results = before.results)
    (refusals : ∀ held ∈ after.refusals, held = size - 1) (valid : History size before) : History size after := by
  obtain ⟨indices, increasing, passed, values⟩ := valid.positions
  refine ⟨⟨indices, increasing, fun index member => ?_, ?_⟩, refusals, ?_⟩
  · rw [grows.popped]
    exact passed index member
  · have same : after.returned = before.returned := by simp only [State.returned, results]
    rw [same, values]
    apply List.map_congr_left
    intro index member
    obtain ⟨value, found⟩ : ∃ value, before.written[index]? = some value := by
      have inside : before.written[index]? ∈ before.returned.map some :=
        values ▸ List.mem_map_of_mem member
      obtain ⟨value, _, same⟩ := List.mem_map.mp inside
      exact ⟨value, same.symm⟩
    rw [found, grows.lookup found]
  · intro result member
    obtain ⟨stopped, blocking, newest⟩ := valid.results result (results ▸ member)
    refine ⟨stopped, blocking, fun op value same => ?_⟩
    obtain ⟨positive, found⟩ := newest op value same
    exact ⟨positive, grows.lookup found⟩

/-- What the consumer may change under the producer's feet. -/
structure Consumed (before after : State T) : Prop where
  tail : after.tail = before.tail
  written : after.written = before.written
  popped : before.popped ≤ after.popped
  data : after.data before.tail = before.data before.tail

theorem Consumed.producer {before after : State T} (moves : Consumed before after) {point : ProducerPoint T}
    (valid : ProducerOk size before point) : ProducerOk size after point := by
  have room : Room size before → Room size after := by
    intro space
    have := moves.popped
    simp only [Room, moves.written] at *
    omega
  have data : ∀ {value}, before.data before.tail = some value → after.data after.tail = some value := by
    intro value found
    rw [moves.tail, moves.data, found]
  cases point with
  | idle | fullTail | increment | notify => trivial
  | fullHead => exact valid.trans moves.tail.symm
  | slot => exact room valid
  | assigning => exact ⟨room valid.1, valid.2.trans moves.tail.symm⟩
  | checkTail | checkSlot => exact ⟨room valid.1, valid.2.1.trans moves.tail.symm, data valid.2.2⟩
  | checkHead =>
    exact ⟨room valid.1, valid.2.1.trans moves.tail.symm, valid.2.2.1.trans moves.tail.symm, data valid.2.2.2⟩
  | loadTail => exact ⟨room valid.1, data valid.2⟩
  | storeTail => exact ⟨room valid.1, by rw [moves.tail]; exact valid.2.1, data valid.2.2⟩
  | aborted => exact valid

/-! A step that only moves a program point. -/

theorem Inv.at_producer {state : State T} (valid : Inv size state) {point : ProducerPoint T}
    (ok : ProducerOk size state point) : Inv size { state with producer := point } := by
  have grows : Published state { state with producer := point } := ⟨rfl, rfl, id, List.prefix_rfl⟩
  have moves : Consumed state { state with producer := point } := ⟨rfl, rfl, Nat.le_refl _, rfl⟩
  exact ⟨⟨valid.indices.head, valid.indices.tail, valid.indices.ordered, valid.indices.bounded, valid.indices.slots⟩,
    moves.producer ok, grows.consumer valid.consumer, grows.history rfl valid.history.refusals valid.history⟩

theorem Inv.at_consumer {state : State T} (valid : Inv size state) {point : ConsumerPoint T}
    (taken : Taken state.consumer → Taken point) (ok : ConsumerOk size state point) :
    Inv size { state with consumer := point } := by
  have grows : Published state { state with consumer := point } := ⟨rfl, rfl, id, List.prefix_rfl⟩
  have moves : Consumed state { state with consumer := point } := ⟨rfl, rfl, Nat.le_refl _, rfl⟩
  refine ⟨⟨valid.indices.head, valid.indices.tail, valid.indices.ordered, valid.indices.bounded, ?_⟩,
    moves.producer valid.producer, grows.consumer ok, grows.history rfl valid.history.refusals valid.history⟩
  intro index after inside whole
  exact valid.indices.slots index after inside (fun same late => whole same (taken late))

end AxbyCore.RingBuffer.Proofs
