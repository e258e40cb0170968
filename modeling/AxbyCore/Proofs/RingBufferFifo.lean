import AxbyCore.Proofs.RingBufferSteps

/-! The ring buffer is a first-in first-out queue under every interleaving of its
two parties and of the threads that stop it. -/

namespace AxbyCore.RingBuffer.Proofs
open Transitions

universe u
variable {T : Type u} {size : Nat}

/-- The consumer only uses `read` and `move_read`. -/
def InOrder : Event T → Prop
  | .read .readLatest _ | .clear => False
  | _ => True

/-- Program points of a consumer that takes every item in turn. -/
def Plain : ConsumerPoint T → Prop
  | .latestHead _ | .latestTail _ _ | .latestStopped _ | .latestLoad _ | .latestStore _ _ => False
  | .clearTail | .clearStore _ => False
  | .idle | .aborted => True
  | .sampleCounter call | .loopStopped call _ | .loopHead call _ | .loopTail call _ _ | .wait call _ | .parked call _
  | .resample call | .checkStopped call | .checkHead call | .checkTail call _ | .beginStopped call | .beginHead call
  | .beginTail call _ | .slotHead call | .copying call _ | .endSlot call _ _ | .endHead call _ | .endTail call _ _
  | .advanceLoad call _ | .advanceStore call _ _ => call.op ≠ .readLatest

/-- Nothing has been skipped: every passed item was returned. -/
structure Gapless (state : State T) : Prop where
  plain : Plain state.consumer
  returned : state.returned = state.written.take state.popped

theorem beginRead_plain {call : Call} (inOrder : call.op ≠ .readLatest) : Plain (beginRead (T := T) call) := by
  cases op : call.op with
  | read | moveRead => simp [beginRead, op, Plain]
  | readLatest => exact absurd op inOrder

theorem gapless_consumer {before after : State T} (valid : Inv size before)
    (moved : consumerStep size before = some after) (kept : Gapless before) : Gapless after := by
  have plain := kept.plain
  cases point : before.consumer with
  | idle | parked | aborted => simp [consumerStep, point] at moved
  | latestHead | latestTail | latestStopped | latestLoad | latestStore | clearTail | clearStore =>
    rw [point] at plain
    exact plain.elim
  | sampleCounter | resample | loopHead | checkHead | beginHead | slotHead | endHead | advanceLoad =>
    rw [point] at plain
    simp only [consumerStep, point, Option.some.injEq] at moved
    subst after
    exact ⟨plain, kept.returned⟩
  | loopStopped | loopTail | wait | endSlot =>
    rw [point] at plain
    simp only [consumerStep, point, Option.some.injEq] at moved
    subst after
    refine ⟨?_, kept.returned⟩
    dsimp only
    split
    · exact plain
    · first | exact plain | trivial
  | checkStopped call | checkTail call | endTail call =>
    rw [point] at plain
    simp only [consumerStep, point, Option.some.injEq] at moved
    subst after
    refine ⟨?_, kept.returned⟩
    dsimp only
    split
    · first | exact beginRead_plain plain | trivial
    · first | exact plain | exact beginRead_plain plain
  | beginStopped call | beginTail call head =>
    rw [point] at plain
    simp only [consumerStep, point] at moved
    split at moved
    · obtain rfl := Option.some.inj moved
      refine ⟨trivial, ?_⟩
      rw [returned_finish, Option.toList_none, List.append_nil]
      exact kept.returned
    · obtain rfl := Option.some.inj moved
      exact ⟨plain, kept.returned⟩
  | copying call slot =>
    rw [point] at plain
    simp only [consumerStep, point] at moved
    split at moved
    · obtain rfl := Option.some.inj moved
      exact ⟨trivial, kept.returned⟩
    · obtain rfl := Option.some.inj moved
      exact ⟨plain, kept.returned⟩
  | advanceStore call value head =>
    have ok := valid.consumer
    rw [point] at ok
    obtain ⟨ready, found, rfl⟩ := ok
    have inside : before.popped < before.written.length := ready.nonempty
    have bounded := valid.indices.bounded
    have popped := storeHead_popped valid.indices (before.popped + 1) (by omega) (by omega)
    simp only [consumerStep, point, Option.some.injEq] at moved
    subst after
    refine ⟨trivial, ?_⟩
    rw [returned_finish]
    simp only [State.finish, popped, State.storeHead_written, State.storeHead_returned, List.take_add_one, found,
      Option.toList_some]
    exact congrArg (· ++ [value]) kept.returned

theorem gapless_notifyOne {state : State T} (kept : Gapless state) : Gapless state.notifyOne := by
  unfold State.notifyOne
  cases point : state.consumer with
  | parked call old =>
    have plain := kept.plain
    rw [point] at plain
    simp only
    split
    · exact kept
    · exact ⟨plain, kept.returned⟩
  | _ => exact kept

theorem gapless_producer {before after : State T} (valid : Inv size before)
    (moved : producerStep size before = some after) (kept : Gapless before) : Gapless after := by
  have ordered := valid.indices.ordered
  cases point : before.producer with
  | idle | aborted => simp [producerStep, point] at moved
  | storeTail value tail =>
    simp only [producerStep, point, Option.some.injEq] at moved
    subst after
    refine ⟨kept.plain, ?_⟩
    simp only [List.take_append_of_le_length ordered]
    exact kept.returned
  | notify =>
    simp only [producerStep, point, Option.some.injEq] at moved
    subst after
    have notified := gapless_notifyOne kept
    exact ⟨notified.plain, notified.returned⟩
  | fullHead | checkHead | checkSlot =>
    simp only [producerStep, point] at moved
    split at moved
    all_goals
      obtain rfl := Option.some.inj moved
      exact ⟨kept.plain, kept.returned⟩
  | _ =>
    simp only [producerStep, point, Option.some.injEq] at moved
    subst after
    exact ⟨kept.plain, kept.returned⟩

theorem gapless_step {before after : State T} {event : Event T} (inOrder : InOrder event)
    (moved : Step size before event after) (valid : Inv size before) (kept : Gapless before) : Gapless after := by
  cases event with
  | write value =>
    obtain ⟨point, rfl⟩ := step_write moved
    exact ⟨kept.plain, kept.returned⟩
  | producer => exact gapless_producer valid moved kept
  | read op blocking =>
    have plain : op ≠ .readLatest := by
      intro latest
      subst latest
      exact inOrder
    obtain ⟨point, rfl⟩ := step_read moved
    refine ⟨?_, kept.returned⟩
    dsimp only
    split
    · exact plain
    · exact beginRead_plain plain
  | clear => exact inOrder.elim
  | consumer => exact gapless_consumer valid moved kept
  | wake =>
    obtain ⟨call, old, point, -, rfl⟩ := step_wake moved
    have plain := kept.plain
    rw [point] at plain
    exact ⟨plain, kept.returned⟩
  | stop =>
    obtain rfl := step_stop moved
    exact ⟨kept.plain, kept.returned⟩
  | stopIncrement =>
    obtain ⟨-, rfl⟩ := step_stopIncrement moved
    exact ⟨kept.plain, kept.returned⟩
  | stopNotify =>
    obtain ⟨-, rfl⟩ := step_stopNotify moved
    have notified := gapless_notifyOne kept
    exact ⟨notified.plain, notified.returned⟩

theorem run_gapless (positive : 0 < size) {events : List (Event T)} {state : State T} (run : Run size events state)
    (inOrder : ∀ event ∈ events, InOrder event) : Gapless state := by
  have steps : ∀ (before : State T) event after, InOrder event → Step size before event after →
      (Inv size before ∧ Gapless before) → Inv size after ∧ Gapless after := by
    intro before event after allowed moved ⟨valid, kept⟩
    exact ⟨step_inv before event after moved valid, gapless_step allowed moved valid kept⟩
  have initially : Inv size (State.initial T) ∧ Gapless (State.initial T) := ⟨initial_inv positive, trivial, rfl⟩
  exact (Transitions.Run.keeps_allowed run inOrder steps initially).2

/-- The slots in use differ because the count of held items is positive for a
reader and short of the size for a writer. -/
theorem slots_apart {state : State T} (valid : Inv size state) {value : T} {call : Call} {writing reading : Nat}
    (producer : state.producer = .assigning value writing) (consumer : state.consumer = .copying call reading) :
    writing ≠ reading := by
  have filled := valid.producer
  have copied := valid.consumer
  rw [producer] at filled
  rw [consumer] at copied
  rw [filled.2, copied.2, valid.indices.tail, valid.indices.head]
  exact (RingIndex.ne_of_lt copied.1.nonempty valid.indices.bounded).symm

theorem numSlotsFilled_eq {state : State T} (valid : Indices size state) :
    numSlotsFilled size state = (state.held : Int) := by
  have ordered := valid.ordered
  have bounded := valid.bounded
  obtain ⟨offset, length⟩ := Nat.exists_eq_add_of_le ordered
  have small : offset < size := by omega
  have below : state.popped % size < size := Nat.mod_lt _ (by omega)
  have distance := RingIndex.distance state.popped offset small
  have tail : (state.popped + offset) % size < size := Nat.mod_lt _ (by omega)
  unfold numSlotsFilled State.held
  simp only [valid.head, valid.tail, length]
  rcases Nat.lt_or_ge ((state.popped + offset) % size) (state.popped % size) with wraps | straight
  · rw [Nat.mod_eq_of_lt (by omega)] at distance
    rw [if_pos (by omega)]
    omega
  · rw [show (state.popped + offset) % size + size - state.popped % size =
      (state.popped + offset) % size - state.popped % size + size by omega, Nat.add_mod_right,
      Nat.mod_eq_of_lt (by omega)] at distance
    rw [if_neg (by omega)]
    omega

/-- No int expression of the source leaves the range of int. -/
theorem int_arithmetic_fits (small : size < 2 ^ 30) {state : State T} (valid : Indices size state) :
    state.head + 1 < 2 ^ 31 ∧ state.tail + size < 2 ^ 31 := by
  have bounded := valid.bounded
  have ordered := valid.ordered
  have head : state.popped % size < size := Nat.mod_lt _ (by omega)
  have tail : state.written.length % size < size := Nat.mod_lt _ (by omega)
  rw [valid.head, valid.tail]
  omega

/-- `RingBuffer` is a first-in first-out queue. -/
theorem fifo_queue (capacity : 2 ≤ size) {events : List (Event T)} {state : State T} (run : Run size events state) :
    (∃ indices : List Nat, indices.Pairwise (· < ·) ∧
      state.returned.map some = indices.map (state.written[·]?)) ∧
    ((∀ event ∈ events, InOrder event) → state.returned <+: state.written) ∧
    (∀ value writing call reading, state.producer = .assigning value writing →
      state.consumer = .copying call reading → writing ≠ reading) ∧
    state.held ≤ size - 1 ∧ (∀ held ∈ state.refusals, held = size - 1) ∧
    state.producer ≠ .aborted ∧ state.consumer ≠ .aborted ∧
    (∀ result ∈ state.results, result.call.op = .readLatest → ∀ value, result.item = some value →
      0 < result.call.published ∧ state.written[result.call.published - 1]? = some value) ∧
    (∀ result ∈ state.results, result.call.afterStop = true → result.item = none) := by
  have valid := reachable_inv (by omega) ⟨events, run⟩
  obtain ⟨indices, increasing, _, values⟩ := valid.history.positions
  have bounded := valid.indices.bounded
  refine ⟨⟨indices, increasing, values⟩, ?_, ?_, ?_, valid.history.refusals, ?_, ?_, ?_, ?_⟩
  · intro inOrder
    rw [(run_gapless (by omega) run inOrder).returned]
    exact List.take_prefix _ _
  · exact fun value writing call reading => slots_apart valid
  · unfold State.held
    omega
  · intro point
    have ok := valid.producer
    rw [point] at ok
    exact ok
  · intro point
    have ok := valid.consumer
    rw [point] at ok
    exact ok
  · exact fun result member => (valid.history.results result member).newest
  · exact fun result member => (valid.history.results result member).stopped

/-- Two items fill a buffer of three slots, which refuses a third. Both are read, and a read after `stop()` finds nothing. -/
def handover : List (Event Nat) :=
  [.write 7] ++ List.replicate 11 .producer ++ [.write 8] ++ List.replicate 11 .producer ++
    [.write 9, .producer, .producer, .read .read true] ++ List.replicate 17 .consumer ++
    [.read .moveRead false] ++ List.replicate 10 .consumer ++ [.stop, .read .read false, .consumer]

theorem fifo_queue_handover : ∃ state : State Nat, Run 3 handover state ∧ state.returned = [7, 8] ∧
    state.returned <+: state.written ∧ state.refusals = [2] ∧
    ∃ last, state.results.getLast? = some last ∧ last.call.afterStop = true ∧ last.item = none := by
  have executed : execute (step 3) (State.initial Nat) handover = some _ := rfl
  have run := Run.of_execute executed
  obtain ⟨_, inOrder, _, _, _, _, _, _, stopped⟩ := fifo_queue (by decide) run
  refine ⟨_, run, rfl, inOrder (by simp [handover, InOrder]), rfl, ⟨⟨.read, false, true, 0⟩, none, true⟩, rfl, rfl, ?_⟩
  exact stopped _ (List.mem_of_getLast? rfl) rfl

end AxbyCore.RingBuffer.Proofs
