import AxbyCore.Proofs.RingBufferInvariant

/-! Every step of the producer, of the consumer and of a stopping thread keeps
the ring buffer invariant. -/

namespace AxbyCore.RingBuffer.Proofs
open Transitions

universe u
variable {T : Type u} {size : Nat}

theorem full_iff {state : State T} (valid : Indices size state) :
    full size state.tail state.head = true ↔ state.written.length + 1 = state.popped + size := by
  simp only [full, beq_iff_eq, valid.tail, valid.head]
  exact RingIndex.succ_eq_iff valid.ordered valid.bounded

theorem empty_iff {state : State T} (valid : Indices size state) :
    empty state.head state.tail = true ↔ state.popped = state.written.length := by
  simp only [empty, beq_iff_eq, valid.tail, valid.head]
  exact RingIndex.eq_iff valid.ordered valid.bounded

theorem nonempty_of_not_empty {state : State T} (valid : Indices size state)
    (some : ¬ empty state.head state.tail = true) : Nonempty state := by
  rw [empty_iff valid] at some
  have := valid.ordered
  unfold Nonempty
  omega

theorem not_empty_of_nonempty {state : State T} (valid : Indices size state) (nonempty : Nonempty state) :
    ¬ empty state.head state.tail = true := by
  rw [empty_iff valid]
  exact Nat.ne_of_lt nonempty

theorem room_of_not_full {state : State T} (valid : Indices size state)
    (space : ¬ full size state.tail state.head = true) : Room size state := by
  rw [full_iff valid] at space
  have := valid.bounded
  unfold Room
  omega

theorem not_full_of_room {state : State T} (valid : Indices size state) (space : Room size state) :
    ¬ full size state.tail state.head = true := by
  rw [full_iff valid]
  unfold Room at space
  omega

/-- The slot at the tail belongs to no published item. -/
theorem Inv.fill {state : State T} (valid : Inv size state) (cell : Option T) {point : ProducerPoint T}
    (ok : ProducerOk size { state with data := Function.update state.data state.tail cell } point) :
    Inv size { state with data := Function.update state.data state.tail cell, producer := point } := by
  have grows : Published state { state with
      data := Function.update state.data state.tail cell
      producer := point } := ⟨rfl, rfl, id, List.prefix_rfl⟩
  have moves : Consumed { state with data := Function.update state.data state.tail cell }
      { state with data := Function.update state.data state.tail cell, producer := point } :=
    ⟨rfl, rfl, Nat.le_refl _, rfl⟩
  refine ⟨⟨valid.indices.head, valid.indices.tail, valid.indices.ordered, valid.indices.bounded, ?_⟩,
    moves.producer ok, grows.consumer valid.consumer, grows.history rfl valid.history.refusals valid.history⟩
  intro index after inside whole
  dsimp only at after inside
  have bounded := valid.indices.bounded
  have apart : index % size ≠ state.tail := by
    rw [valid.indices.tail]
    exact RingIndex.ne_of_lt inside (by omega)
  exact (Function.update_of_ne apart _ _).trans (valid.indices.slots index after inside whole)

/-- Storing the tail publishes the item in the slot just filled. -/
theorem Inv.publish {state : State T} (valid : Inv size state) {value : T} (space : Room size state)
    (filled : state.data state.tail = some value) :
    Inv size { state with
      tail := (state.tail + 1) % size
      written := state.written ++ [value]
      producer := .increment } := by
  have grows : Published state { state with
      tail := (state.tail + 1) % size
      written := state.written ++ [value]
      producer := .increment } := ⟨rfl, rfl, id, List.prefix_append _ _⟩
  have ordered := valid.indices.ordered
  refine ⟨⟨valid.indices.head, ?_, ?_, ?_, ?_⟩, trivial, grows.consumer valid.consumer,
    grows.history rfl valid.history.refusals valid.history⟩
  · simp [valid.indices.tail]
  · simp only [List.length_append, List.length_singleton]
    omega
  · simp only [List.length_append, List.length_singleton]
    exact space
  · intro index after inside whole
    simp only [List.length_append, List.length_singleton] at inside
    rcases Nat.lt_or_eq_of_le (Nat.le_of_lt_succ inside) with older | rfl
    · exact (valid.indices.slots index after older whole).trans (List.getElem?_append_left older).symm
    · simpa [← valid.indices.tail] using filled

theorem notifyOne_inv {state : State T} (valid : Inv size state) : Inv size state.notifyOne := by
  unfold State.notifyOne
  cases point : state.consumer with
  | parked call old =>
    simp only
    split
    · exact valid
    · have ok := valid.consumer
      rw [point] at ok
      exact valid.at_consumer (by simp [point, Taken]) ok
  | _ => exact valid

theorem bump_inv {state : State T} (valid : Inv size state) : Inv size state.bump := by
  have grows : Published state state.bump := ⟨rfl, rfl, id, List.prefix_rfl⟩
  have moves : Consumed state state.bump := ⟨rfl, rfl, Nat.le_refl _, rfl⟩
  exact ⟨⟨valid.indices.head, valid.indices.tail, valid.indices.ordered, valid.indices.bounded, valid.indices.slots⟩,
    moves.producer valid.producer, grows.consumer valid.consumer, grows.history rfl valid.history.refusals valid.history⟩

/-- The refused write found the buffer full at the moment it loaded the head. -/
theorem Inv.refuse {state : State T} (valid : Inv size state)
    (refused : full size state.tail state.head = true) :
    Inv size { state with producer := .idle, refusals := state.refusals ++ [state.held] } := by
  have grows : Published state { state with producer := .idle, refusals := state.refusals ++ [state.held] } :=
    ⟨rfl, rfl, id, List.prefix_rfl⟩
  have count := (full_iff valid.indices).mp refused
  refine ⟨⟨valid.indices.head, valid.indices.tail, valid.indices.ordered, valid.indices.bounded, valid.indices.slots⟩,
    trivial, grows.consumer valid.consumer, grows.history rfl ?_ valid.history⟩
  intro held member
  rcases List.mem_append.mp member with older | newest
  · exact valid.history.refusals held older
  · obtain rfl := List.mem_singleton.mp newest
    unfold State.held
    omega

theorem producer_step_inv {before after : State T} (valid : Inv size before)
    (moved : producerStep size before = some after) : Inv size after := by
  have ok := valid.producer
  cases point : before.producer with
  | idle | aborted => simp [producerStep, point] at moved
  | fullTail value =>
    simp only [producerStep, point, Option.some.injEq] at moved
    subst after
    exact valid.at_producer rfl
  | fullHead value tail =>
    simp only [producerStep, point] at moved
    rw [point] at ok
    obtain rfl : tail = before.tail := ok
    split at moved
    · obtain rfl := Option.some.inj moved
      exact valid.refuse ‹_›
    · obtain rfl := Option.some.inj moved
      exact valid.at_producer (room_of_not_full valid.indices ‹_›)
  | slot value =>
    simp only [producerStep, point, Option.some.injEq] at moved
    rw [point] at ok
    subst after
    exact valid.fill none ⟨ok, rfl⟩
  | assigning value slot =>
    simp only [producerStep, point, Option.some.injEq] at moved
    rw [point] at ok
    obtain ⟨space, rfl⟩ := ok
    subst after
    exact valid.fill (some value) ⟨space, rfl, Function.update_self _ _ _⟩
  | checkTail value slot =>
    simp only [producerStep, point, Option.some.injEq] at moved
    rw [point] at ok
    subst after
    exact valid.at_producer ⟨ok.1, ok.2.1, rfl, ok.2.2⟩
  | checkHead value slot tail =>
    simp only [producerStep, point] at moved
    rw [point] at ok
    obtain ⟨space, same, rfl, filled⟩ := ok
    rw [if_neg (not_full_of_room valid.indices space)] at moved
    obtain rfl := Option.some.inj moved
    exact valid.at_producer ⟨space, same, filled⟩
  | checkSlot value slot =>
    simp only [producerStep, point] at moved
    rw [point] at ok
    rw [if_pos ok.2.1.symm] at moved
    obtain rfl := Option.some.inj moved
    exact valid.at_producer ⟨ok.1, ok.2.2⟩
  | loadTail value =>
    simp only [producerStep, point, Option.some.injEq] at moved
    rw [point] at ok
    subst after
    exact valid.at_producer ⟨ok.1, rfl, ok.2⟩
  | storeTail value tail =>
    simp only [producerStep, point, Option.some.injEq] at moved
    rw [point] at ok
    obtain ⟨space, rfl, filled⟩ := ok
    subst after
    exact valid.publish space filled
  | increment =>
    simp only [producerStep, point, Option.some.injEq] at moved
    subst after
    exact (bump_inv valid).at_producer trivial
  | notify =>
    simp only [producerStep, point, Option.some.injEq] at moved
    subst after
    exact (notifyOne_inv valid).at_producer trivial

/-! The consumer's steps that change more than its program point. -/

theorem returned_finish (state : State T) (call : Call) (item : Option T) :
    (state.finish call item).returned = state.returned ++ item.toList := by
  cases item <;> simp [State.returned, State.finish, List.filterMap_append]

theorem Inv.fail {state : State T} (valid : Inv size state) {call : Call} (untaken : ¬ Taken state.consumer)
    (released : call.blocking = true → state.stopped = true) : Inv size (state.finish call none) := by
  have moves : Consumed state (state.finish call none) := ⟨rfl, rfl, Nat.le_refl _, rfl⟩
  refine ⟨⟨valid.indices.head, valid.indices.tail, valid.indices.ordered, valid.indices.bounded, ?_⟩,
    moves.producer valid.producer, trivial, ?_, valid.history.refusals, ?_⟩
  · intro index after inside _
    exact valid.indices.slots index after inside (fun _ => untaken)
  · rw [returned_finish, Option.toList_none, List.append_nil]
    exact valid.history.positions
  · intro result member
    rcases List.mem_append.mp member with older | newest
    · exact valid.history.results result older
    · obtain rfl := List.mem_singleton.mp newest
      exact ⟨fun _ => rfl, fun blocking _ => released blocking, fun _ _ impossible => by cases impossible⟩

/-- Moving the head forward to a published position. -/
theorem Indices.advance {state : State T} (valid : Indices size state) {count : Nat} {point : ConsumerPoint T}
    (after : state.popped ≤ count) (seen : count ≤ state.written.length)
    (whole : Taken state.consumer → state.popped < count) :
    Indices size { state.storeHead size (count % size) with consumer := point } := by
  have bounded := valid.bounded
  have popped := storeHead_popped valid count after (by omega)
  refine ⟨?_, valid.tail, ?_, ?_, ?_⟩
  all_goals dsimp only
  · rw [popped]
    rfl
  · rw [popped]
    exact seen
  · rw [popped]
    exact Nat.lt_of_lt_of_le bounded (by omega)
  · intro index later inside _
    rw [popped] at later
    exact valid.slots index (Nat.le_trans after later) inside (fun same taken => by have := whole taken; omega)

theorem storeHead_consumed (size : Nat) (state : State T) (head : Nat) (point : ConsumerPoint T) :
    Consumed state { state.storeHead size head with consumer := point } :=
  ⟨rfl, rfl, Nat.le_add_right _ _, rfl⟩

/-- Positions already returned stay below a head that only moves forward. -/
theorem Inv.skip {state : State T} (valid : Inv size state) {count : Nat} {point : ConsumerPoint T}
    (untaken : ¬ Taken state.consumer) (after : state.popped ≤ count) (seen : count ≤ state.written.length)
    (ok : ConsumerOk size { state.storeHead size (count % size) with consumer := point } point) :
    Inv size { state.storeHead size (count % size) with consumer := point } := by
  have moves := storeHead_consumed size state (count % size) point
  obtain ⟨indices, increasing, passed, values⟩ := valid.history.positions
  refine ⟨valid.indices.advance after seen (fun taken => absurd taken untaken), moves.producer valid.producer, ok,
    ⟨indices, increasing, ?_, values⟩, valid.history.refusals, valid.history.results⟩
  intro index member
  exact Nat.lt_of_lt_of_le (passed index member) moves.popped

theorem Inv.deliver {state : State T} (valid : Inv size state) {call : Call} {value : T}
    (ready : Ready state call) (found : state.written[state.popped]? = some value) :
    Inv size ((state.storeHead size ((state.popped + 1) % size)).finish call (some value)) := by
  have moves : Consumed state ((state.storeHead size ((state.popped + 1) % size)).finish call (some value)) :=
    ⟨rfl, rfl, Nat.le_add_right _ _, rfl⟩
  have inside : state.popped < state.written.length := ready.nonempty
  have bounded := valid.indices.bounded
  have popped := storeHead_popped valid.indices (state.popped + 1) (by omega) (by omega)
  obtain ⟨indices, increasing, passed, values⟩ := valid.history.positions
  have advanced : Indices size { state.storeHead size ((state.popped + 1) % size) with consumer := .idle } :=
    valid.indices.advance (by omega) inside (fun _ => by omega)
  refine ⟨⟨advanced.head, advanced.tail, advanced.ordered, advanced.bounded, advanced.slots⟩,
    moves.producer valid.producer, trivial, ⟨indices ++ [state.popped], ?_, ?_, ?_⟩, valid.history.refusals, ?_⟩
  · refine List.pairwise_append.mpr ⟨increasing, List.pairwise_singleton _ _, ?_⟩
    intro index member last same
    obtain rfl := List.mem_singleton.mp same
    exact passed index member
  · intro index member
    have below : index < state.popped + 1 := by
      rcases List.mem_append.mp member with older | newest
      · exact Nat.lt_succ_of_lt (passed index older)
      · obtain rfl := List.mem_singleton.mp newest
        exact Nat.lt_succ_self _
    exact popped.symm ▸ below
  · rw [returned_finish]
    simp only [List.map_append, Option.toList_some, List.map_cons, List.map_nil]
    exact congr (congrArg _ values) (by simp [State.finish, State.storeHead, found])
  · intro result member
    rcases List.mem_append.mp member with older | newest
    · exact valid.history.results result older
    · obtain rfl := List.mem_singleton.mp newest
      refine ⟨fun late => ?_, fun _ missing => ?_, fun op item same => ?_⟩
      · exact absurd ready.fresh (by simp [show call.afterStop = true from late])
      · cases missing
      · cases same
        have newest : call.published = state.popped + 1 := ready.newest op
        simp only [newest]
        exact ⟨Nat.succ_pos _, found⟩

/-- Copying the item at the head may empty its slot, which nobody else uses. -/
theorem Inv.copy {state : State T} (valid : Inv size state) {call : Call} {slot : Nat} {value : T}
    (untaken : ¬ Taken state.consumer) (ready : Ready state call) (same : slot = state.head)
    (found : state.data slot = some value) :
    Inv size { state with
      data := if call.op = .moveRead then Function.update state.data slot none else state.data
      consumer := .endSlot call slot value } := by
  have nonempty : state.popped < state.written.length := ready.nonempty
  have bounded := valid.indices.bounded
  have others : ∀ position, position ≠ slot →
      (if call.op = .moveRead then Function.update state.data slot none else state.data) position = state.data position := by
    intro position apart
    split
    · exact Function.update_of_ne apart _ _
    · rfl
  have moves : Consumed state { state with
      data := if call.op = .moveRead then Function.update state.data slot none else state.data
      consumer := .endSlot call slot value } := by
    refine ⟨rfl, rfl, Nat.le_refl _, others _ ?_⟩
    rw [same, valid.indices.head, valid.indices.tail]
    exact (RingIndex.ne_of_lt nonempty bounded).symm
  have item : state.written[state.popped]? = some value := by
    rw [← valid.indices.slots state.popped (Nat.le_refl _) nonempty (fun _ => untaken), ← valid.indices.head, ← same]
    exact found
  refine ⟨⟨valid.indices.head, valid.indices.tail, valid.indices.ordered, valid.indices.bounded, ?_⟩,
    moves.producer valid.producer, ⟨⟨ready.fresh, nonempty, ready.newest⟩, same, item⟩,
    valid.history.positions, valid.history.refusals, valid.history.results⟩
  intro index after inside whole
  dsimp only at after inside
  rcases Nat.lt_or_eq_of_le after with later | rfl
  · refine (others _ ?_).trans (valid.indices.slots index after inside (fun _ => untaken))
    rw [same, valid.indices.head]
    exact (RingIndex.ne_of_lt later (by omega)).symm
  · exact absurd trivial (whole rfl)

/-- A read that finds the flag unset began before any stop. -/
theorem promised_fresh {state : State T} {call : Call} (promised : Promised state call) (running : ¬ state.stopped = true) :
    call.afterStop = false := by
  by_contra late
  exact absurd (promised (by simpa using late)) running

theorem beginRead_ok {state : State T} {call : Call} (promised : Promised state call)
    (released : Released state call) : ConsumerOk size state (beginRead call) := by
  cases op : call.op with
  | read | moveRead =>
    simp only [beginRead, op]
    exact ⟨by simp [op], promised, released⟩
  | readLatest =>
    simp only [beginRead, op]
    exact ⟨op, promised, released⟩

theorem consumer_step_inv {before after : State T} (valid : Inv size before)
    (moved : consumerStep size before = some after) : Inv size after := by
  have ok := valid.consumer
  have indices := valid.indices
  have positive : 0 < size := by
    have := indices.ordered
    have := indices.bounded
    omega
  cases point : before.consumer with
  | idle | parked | aborted => simp [consumerStep, point] at moved
  | sampleCounter call | resample call | loopHead call old | checkHead call | latestHead call =>
    rw [point] at ok
    simp only [consumerStep, point, Option.some.injEq] at moved
    subst after
    refine valid.at_consumer (by simp [point, Taken]) ?_
    first | exact ok | exact ⟨ok, rfl⟩ | exact ⟨ok.1, ok.2, rfl⟩ | exact ⟨ok.1, ok.2.1, ok.2.2, rfl⟩
  | loopStopped call old =>
    rw [point] at ok
    simp only [consumerStep, point, Option.some.injEq] at moved
    subst after
    refine valid.at_consumer (by simp [point, Taken]) ?_
    split
    · exact ⟨ok, Or.inl ‹_›⟩
    · exact ok
  | loopTail call old head =>
    rw [point] at ok
    obtain ⟨promised, rfl⟩ := ok
    simp only [consumerStep, point, Option.some.injEq] at moved
    subst after
    refine valid.at_consumer (by simp [point, Taken]) ?_
    split
    · exact promised
    · exact ⟨promised, Or.inr (nonempty_of_not_empty indices ‹_›)⟩
  | wait call old =>
    rw [point] at ok
    simp only [consumerStep, point, Option.some.injEq] at moved
    subst after
    refine valid.at_consumer (by simp [point, Taken]) ?_
    split <;> exact ok
  | checkStopped call =>
    rw [point] at ok
    simp only [consumerStep, point, Option.some.injEq] at moved
    subst after
    refine valid.at_consumer (by simp [point, Taken]) ?_
    split
    · exact beginRead_ok ok.1 (fun _ => ok.2)
    · exact ⟨ok.1, ok.2.resolve_left ‹_›⟩
  | checkTail call head =>
    rw [point] at ok
    obtain ⟨promised, nonempty, rfl⟩ := ok
    simp only [consumerStep, point, if_neg (not_empty_of_nonempty indices nonempty), Option.some.injEq] at moved
    subst after
    exact valid.at_consumer (by simp [point, Taken]) (beginRead_ok promised (fun _ => Or.inr nonempty))
  | beginStopped call =>
    rw [point] at ok
    simp only [consumerStep, point] at moved
    split at moved
    · obtain rfl := Option.some.inj moved
      exact valid.fail (by simp [point, Taken]) (fun _ => ‹_›)
    · obtain rfl := Option.some.inj moved
      have fresh := promised_fresh ok.2.1 ‹_›
      exact valid.at_consumer (by simp [point, Taken])
        ⟨ok.1, fresh, fun blocking => (ok.2.2 blocking).resolve_left ‹_›⟩
  | beginHead call =>
    rw [point] at ok
    simp only [consumerStep, point, Option.some.injEq] at moved
    subst after
    exact valid.at_consumer (by simp [point, Taken]) ⟨ok.1, ok.2.1, ok.2.2, rfl⟩
  | beginTail call head =>
    rw [point] at ok
    obtain ⟨op, fresh, released, rfl⟩ := ok
    simp only [consumerStep, point] at moved
    split at moved
    next none =>
      obtain rfl := Option.some.inj moved
      refine valid.fail (by simp [point, Taken]) (fun blocking => ?_)
      exact absurd none (not_empty_of_nonempty indices (released blocking))
    next some =>
      obtain rfl := Option.some.inj moved
      exact valid.at_consumer (by simp [point, Taken])
        ⟨fresh, nonempty_of_not_empty indices some, fun latest => absurd latest op⟩
  | latestTail call head =>
    rw [point] at ok
    obtain ⟨op, promised, released, rfl⟩ := ok
    simp only [consumerStep, point] at moved
    split at moved
    next none =>
      obtain rfl := Option.some.inj moved
      refine valid.fail (by simp [point, Taken]) (fun blocking => (released blocking).resolve_right ?_)
      exact fun nonempty => not_empty_of_nonempty indices nonempty none
    next some =>
      obtain rfl := Option.some.inj moved
      exact valid.at_consumer (by simp [point, Taken]) ⟨op, promised, nonempty_of_not_empty indices some⟩
  | latestStopped call =>
    rw [point] at ok
    simp only [consumerStep, point] at moved
    split at moved
    · obtain rfl := Option.some.inj moved
      exact valid.fail (by simp [point, Taken]) (fun _ => ‹_›)
    · obtain rfl := Option.some.inj moved
      have fresh := promised_fresh ok.2.1 ‹_›
      exact valid.at_consumer (by simp [point, Taken]) ⟨ok.1, fresh, ok.2.2⟩
  | latestLoad call =>
    rw [point] at ok
    obtain ⟨op, fresh, nonempty⟩ := ok
    simp only [consumerStep, point, Option.some.injEq] at moved
    subst after
    refine valid.at_consumer (by simp [point, Taken]) ⟨op, fresh, nonempty, Nat.le_refl _, ?_⟩
    obtain ⟨last, same⟩ := Nat.exists_eq_add_one_of_ne_zero (Nat.ne_of_gt (Nat.zero_lt_of_lt nonempty))
    simp only [indices.tail, same, Nat.add_sub_cancel]
    exact RingIndex.pred last positive
  | latestStore call head =>
    rw [point] at ok
    obtain ⟨op, fresh, ahead, seen, rfl⟩ := ok
    simp only [consumerStep, point, Option.some.injEq] at moved
    subst after
    have bounded := indices.bounded
    have popped := storeHead_popped indices (call.published - 1) (by omega) (by omega)
    refine valid.skip (by simp [point, Taken]) (by omega) (by omega) ⟨fresh, ?_, fun _ => ?_⟩
    · unfold Nonempty
      dsimp only
      rw [popped]
      exact Nat.lt_of_lt_of_le (by omega) seen
    · dsimp only
      rw [popped]
      omega
  | slotHead call =>
    rw [point] at ok
    simp only [consumerStep, point, Option.some.injEq] at moved
    subst after
    exact valid.at_consumer (by simp [point, Taken]) ⟨ok, rfl⟩
  | copying call slot =>
    rw [point] at ok
    simp only [consumerStep, point] at moved
    have whole : before.data slot = before.written[before.popped]? := by
      rw [ok.2, indices.head]
      exact indices.slots _ (Nat.le_refl _) ok.1.nonempty (fun _ => by simp [point, Taken])
    rw [List.getElem?_eq_getElem ok.1.nonempty] at whole
    rw [whole] at moved
    obtain rfl := Option.some.inj moved
    exact valid.copy (by simp [point, Taken]) ok.1 ok.2 whole
  | endSlot call slot value =>
    rw [point] at ok
    simp only [consumerStep, point, if_pos ok.2.1.symm, Option.some.injEq] at moved
    subst after
    exact valid.at_consumer (by simp [Taken]) ⟨ok.1, ok.2.2⟩
  | endHead call value =>
    rw [point] at ok
    simp only [consumerStep, point, Option.some.injEq] at moved
    subst after
    exact valid.at_consumer (by simp [Taken]) ⟨ok.1, ok.2, rfl⟩
  | endTail call value head =>
    rw [point] at ok
    obtain ⟨ready, found, rfl⟩ := ok
    simp only [consumerStep, point, if_neg (not_empty_of_nonempty indices ready.nonempty), Option.some.injEq] at moved
    subst after
    exact valid.at_consumer (by simp [Taken]) ⟨ready, found⟩
  | advanceLoad call value =>
    rw [point] at ok
    simp only [consumerStep, point, Option.some.injEq] at moved
    subst after
    exact valid.at_consumer (by simp [Taken]) ⟨ok.1, ok.2, by rw [indices.head, Nat.mod_add_mod]⟩
  | advanceStore call value head =>
    rw [point] at ok
    obtain ⟨ready, found, rfl⟩ := ok
    simp only [consumerStep, point, Option.some.injEq] at moved
    subst after
    exact valid.deliver ready found
  | clearTail =>
    simp only [consumerStep, point, Option.some.injEq] at moved
    subst after
    exact valid.at_consumer (by simp [point, Taken])
      ⟨before.written.length, indices.ordered, Nat.le_refl _, indices.tail⟩
  | clearStore tail =>
    rw [point] at ok
    obtain ⟨count, after, seen, rfl⟩ := ok
    simp only [consumerStep, point, Option.some.injEq] at moved
    subst moved
    exact valid.skip (by simp [point, Taken]) after seen trivial

/-- A stopping thread changes nothing either party relies on, except that the
stop flag may become set. -/
theorem Inv.stop {state : State T} (valid : Inv size state) :
    Inv size { state with stopped := true, stopping := state.stopping + 1 } := by
  have grows : Published state { state with stopped := true, stopping := state.stopping + 1 } :=
    ⟨rfl, rfl, fun _ => rfl, List.prefix_rfl⟩
  have moves : Consumed state { state with stopped := true, stopping := state.stopping + 1 } :=
    ⟨rfl, rfl, Nat.le_refl _, rfl⟩
  exact ⟨⟨valid.indices.head, valid.indices.tail, valid.indices.ordered, valid.indices.bounded, valid.indices.slots⟩,
    moves.producer valid.producer, grows.consumer valid.consumer, grows.history rfl valid.history.refusals valid.history⟩

theorem Inv.count {state : State T} (valid : Inv size state) (stopping notifying : Nat) :
    Inv size { state with stopping, notifying } := by
  have grows : Published state { state with stopping, notifying } := ⟨rfl, rfl, id, List.prefix_rfl⟩
  have moves : Consumed state { state with stopping, notifying } := ⟨rfl, rfl, Nat.le_refl _, rfl⟩
  exact ⟨⟨valid.indices.head, valid.indices.tail, valid.indices.ordered, valid.indices.bounded, valid.indices.slots⟩,
    moves.producer valid.producer, grows.consumer valid.consumer, grows.history rfl valid.history.refusals valid.history⟩

/-! What each event other than a step of the two parties can do. -/

section
variable {before after : State T}

theorem step_write {value : T} (moved : Step size before (.write value) after) :
    before.producer = .idle ∧ after = { before with producer := beginWrite value } := by
  cases point : before.producer with
  | idle => exact ⟨rfl, by simpa [Step, step, point] using moved.symm⟩
  | _ => simp [Step, step, point] at moved

theorem step_read {op : ReadOp} {blocking : Bool} (moved : Step size before (.read op blocking) after) :
    before.consumer = .idle ∧ after = { before with
      consumer := if blocking then .sampleCounter { op, blocking, afterStop := before.stopped }
        else beginRead { op, blocking, afterStop := before.stopped } } := by
  cases point : before.consumer with
  | idle => exact ⟨rfl, by simpa [Step, step, point] using moved.symm⟩
  | _ => simp [Step, step, point] at moved

theorem step_clear (moved : Step size before .clear after) :
    before.consumer = .idle ∧ after = { before with consumer := .clearTail } := by
  cases point : before.consumer with
  | idle => exact ⟨rfl, by simpa [Step, step, point] using moved.symm⟩
  | _ => simp [Step, step, point] at moved

theorem step_wake (moved : Step size before .wake after) : ∃ call old, before.consumer = .parked call old ∧
    before.updateCounter ≠ old ∧ after = { before with consumer := .resample call } := by
  cases point : before.consumer with
  | parked call old =>
    simp only [Step, step, point] at moved
    split at moved
    next => contradiction
    next changed => exact ⟨call, old, rfl, changed, (Option.some.inj moved).symm⟩
  | _ => simp [Step, step, point] at moved

theorem step_stop (moved : Step size before .stop after) :
    after = { before with stopped := true, stopping := before.stopping + 1 } := (Option.some.inj moved).symm

theorem step_stopIncrement (moved : Step size before .stopIncrement after) : before.stopping ≠ 0 ∧
    after = { before.bump with stopping := before.stopping - 1, notifying := before.notifying + 1 } := by
  simp only [Step, step] at moved
  split at moved
  next => contradiction
  next pending => exact ⟨pending, (Option.some.inj moved).symm⟩

theorem step_stopNotify (moved : Step size before .stopNotify after) : before.notifying ≠ 0 ∧
    after = { before.notifyOne with notifying := before.notifying - 1 } := by
  simp only [Step, step] at moved
  split at moved
  next => contradiction
  next pending => exact ⟨pending, (Option.some.inj moved).symm⟩

end

theorem step_inv : Preserved (Step (T := T) size) (Inv size) := by
  intro before event after moved valid
  cases event with
  | write value =>
    obtain ⟨point, rfl⟩ := step_write moved
    exact valid.at_producer trivial
  | producer => exact producer_step_inv valid moved
  | read op blocking =>
    obtain ⟨point, rfl⟩ := step_read moved
    refine valid.at_consumer (by simp [point, Taken]) ?_
    split
    · exact id
    · exact beginRead_ok id (fun blocks => absurd blocks ‹_›)
  | clear =>
    obtain ⟨point, rfl⟩ := step_clear moved
    exact valid.at_consumer (by simp [point, Taken]) trivial
  | consumer => exact consumer_step_inv valid moved
  | wake =>
    obtain ⟨call, old, point, -, rfl⟩ := step_wake moved
    have ok := valid.consumer
    rw [point] at ok
    exact valid.at_consumer (by simp [point, Taken]) ok
  | stop =>
    obtain rfl := step_stop moved
    exact valid.stop
  | stopIncrement =>
    obtain ⟨-, rfl⟩ := step_stopIncrement moved
    exact (bump_inv valid).count _ _
  | stopNotify =>
    obtain ⟨-, rfl⟩ := step_stopNotify moved
    exact (notifyOne_inv valid).count _ _

theorem reachable_inv (positive : 0 < size) {state : State T} (reached : Reachable size state) : Inv size state := by
  obtain ⟨events, run⟩ := reached
  exact run.keeps step_inv (initial_inv positive)

end AxbyCore.RingBuffer.Proofs
