import AxbyCore.Proofs.SingleItemInvariant

/-! Every step of the writer, of the reader and of a stopping thread keeps the
invariant of the latest-value cell. -/

namespace AxbyCore.SingleItem.Proofs
open Transitions

universe u
variable {T : Type u}

/-- Writing to the write slot disturbs neither the spare slot nor the reader. -/
theorem Inv.fill {state : State T} (valid : Inv state) (cell : Option T) (swapped : List T) {point : WriterPoint T}
    (ok : WriterOk { state with slots := Function.update state.slots state.writeSlot cell } point) :
    Inv { state with
      slots := Function.update state.slots state.writeSlot cell
      swapped
      writer := point } := by
  have wrote : Wrote state { state with
      slots := Function.update state.slots state.writeSlot cell
      swapped
      writer := point } :=
    ⟨rfl, Function.update_of_ne (write_ne_read state).symm _ _, rfl, List.prefix_rfl, rfl, rfl⟩
  have took : Took { state with slots := Function.update state.slots state.writeSlot cell }
      { state with slots := Function.update state.slots state.writeSlot cell, swapped, writer := point } :=
    ⟨rfl, rfl, rfl⟩
  obtain ⟨item, held, latest⟩ := valid.cells.whole
  refine ⟨⟨valid.cells.claimed, valid.cells.unread, item, ?_, latest⟩, took.writer ok, wrote.reader valid.reader,
    wrote.history rfl valid.history⟩
  exact (Function.update_of_ne (spare_ne_write state) _ _).trans held

theorem Inv.mark {state : State T} (valid : Inv state) {write : Write T}
    (filled : state.slots state.writeSlot = some write.item) :
    Inv { state with haveUnread := Function.update state.haveUnread state.writeSlot true, writer := .load write } := by
  have wrote : Wrote state { state with
      haveUnread := Function.update state.haveUnread state.writeSlot true
      writer := .load write } :=
    ⟨rfl, rfl, Function.update_of_ne (write_ne_read state).symm _ _, List.prefix_rfl, rfl, rfl⟩
  refine ⟨⟨valid.cells.claimed, ?_, valid.cells.whole⟩, ⟨filled, Function.update_self _ _ _⟩,
    wrote.reader valid.reader, wrote.history rfl valid.history⟩
  exact (Function.update_of_ne (spare_ne_write state) _ _).trans valid.cells.unread

/-- The role swap of a write publishes its slot and recycles the spare one. -/
theorem Inv.publish {state : State T} (valid : Inv state) {write : Write T}
    (filled : state.slots state.writeSlot = some write.item) (marked : state.haveUnread state.writeSlot = true) :
    Inv { state with
      stateIdx := desired true state.stateIdx
      written := state.written ++ [write]
      writer := .increment } := by
  obtain ⟨readHead, writeHead, spareHead⟩ := desired_write state.stateIdx
  have wrote : Wrote state { state with
      stateIdx := desired true state.stateIdx
      written := state.written ++ [write]
      writer := .increment } := ⟨readHead, rfl, rfl, List.prefix_append _ _, rfl, rfl⟩
  have claimed := valid.cells.claimed
  obtain ⟨item, held, _⟩ := valid.cells.whole
  refine ⟨⟨?_, ?_, write.item, ?_, fun _ => itemOf_last _ _⟩, ⟨item, ?_⟩, wrote.reader valid.reader,
    wrote.history rfl valid.history⟩
  · simp only [List.length_append, List.length_singleton]
    omega
  · have later : state.claimed < (state.written ++ [write]).length := by
      simp only [List.length_append, List.length_singleton]
      omega
    exact (congrArg state.haveUnread spareHead).trans (marked.trans (decide_eq_true later).symm)
  · exact (congrArg state.slots spareHead).trans filled
  · exact (congrArg state.slots writeHead).trans held

theorem bump_inv {state : State T} (valid : Inv state) : Inv state.bump := by
  have took : Took state state.bump := ⟨rfl, rfl, rfl⟩
  have wrote : Wrote state state.bump := ⟨rfl, rfl, rfl, List.prefix_rfl, rfl, rfl⟩
  exact ⟨⟨valid.cells.claimed, valid.cells.unread, valid.cells.whole⟩, took.writer valid.writer,
    wrote.reader valid.reader, wrote.history rfl valid.history⟩

theorem notifyOne_inv {state : State T} (valid : Inv state) : Inv state.notifyOne := by
  unfold State.notifyOne
  split
  next call old point =>
    split
    · exact valid
    · apply valid.at_reader
      have settled := valid.reader
      rw [point] at settled
      exact settled
  next => exact valid

theorem notifyOne_writer (state : State T) : state.notifyOne.writer = state.writer := by
  unfold State.notifyOne
  split
  · split <;> rfl
  · rfl

theorem writer_step_inv {before after : State T} (valid : Inv before) (moved : writerStep before = some after) :
    Inv after := by
  have ok := valid.writer
  cases point : before.writer with
  | idle | aborted => simp [writerStep, point] at moved
  | getWriteSlot op =>
    rw [point] at ok
    simp only [writerStep, point, Option.some.injEq] at moved
    subst after
    exact valid.at_writer ⟨rfl, ok⟩
  | assign op slot =>
    rw [point] at ok
    obtain ⟨rfl, old, held⟩ := ok
    simp only [writerStep, point, held, Option.some.injEq] at moved
    subst after
    exact valid.fill none _ rfl
  | assigning write slot =>
    rw [point] at ok
    obtain rfl : slot = before.writeSlot := ok
    simp only [writerStep, point, Option.some.injEq] at moved
    subst after
    exact valid.fill (some write.item) before.swapped ⟨rfl, Function.update_self _ _ _⟩
  | setUnread write slot =>
    rw [point] at ok
    obtain ⟨rfl, filled⟩ := ok
    simp only [writerStep, point, Option.some.injEq] at moved
    subst after
    exact valid.mark filled
  | load write =>
    rw [point] at ok
    simp only [writerStep, point, Option.some.injEq] at moved
    subst after
    exact valid.at_writer ok
  | exchange write expected =>
    rw [point] at ok
    simp only [writerStep, point] at moved
    split at moved
    next same =>
      subst expected
      obtain rfl := Option.some.inj moved
      exact valid.publish ok.1 ok.2
    next =>
      obtain rfl := Option.some.inj moved
      exact valid.at_writer ok
  | increment =>
    rw [point] at ok
    simp only [writerStep, point, Option.some.injEq] at moved
    subst after
    exact (bump_inv valid).at_writer ok
  | notify =>
    simp only [writerStep, point, Option.some.injEq] at moved
    subst after
    have notified := notifyOne_inv valid
    have ok := notified.writer
    rw [notifyOne_writer, point] at ok
    exact notified.at_writer ok

/-! Completed reads. -/

theorem numbers_append (results : List (ReadResult T)) (result : ReadResult T) :
    numbers (results ++ [result]) = numbers results ++ if result.success then [result.published] else [] := by
  cases success : result.success <;> simp [numbers, success]

theorem mem_numbers {results : List (ReadResult T)} {number : Nat} :
    number ∈ numbers results ↔ ReturnedBy results number := by
  simp [numbers, ReturnedBy, and_assoc]

/-- A split of a list with `last` at its end is at `last` or within the rest. -/
theorem split_append {results earlier later : List (ReadResult T)} {last result : ReadResult T}
    (same : results ++ [last] = earlier ++ result :: later) :
    (result = last ∧ earlier = results) ∨ ∃ rest, results = earlier ++ result :: rest := by
  rcases List.eq_nil_or_concat later with rfl | ⟨rest, final, rfl⟩
  · have parts := List.append_inj' same rfl
    simp only [List.cons.injEq, and_true] at parts
    exact Or.inl ⟨parts.2.symm, parts.1.symm⟩
  · rw [List.concat_eq_append, ← List.cons_append, ← List.append_assoc] at same
    exact Or.inr ⟨rest, (List.append_inj' same rfl).1⟩

theorem ReturnedBy.later {results more : List (ReadResult T)} {number : Nat} (earlier : ReturnedBy results number) :
    ReturnedBy (results ++ more) number := by
  obtain ⟨result, member, success⟩ := earlier
  exact ⟨result, List.mem_append_left _ member, success⟩

/-- One more read, after which the write numbered `number` is the last returned. -/
theorem History.append {state after : State T} (valid : History state) (result : ReadResult T)
    (written : after.written = state.written) (results : after.results = state.results ++ [result])
    (ok : ResultOk state.written state.results result)
    (returned : after.returned = if result.success then result.published else state.returned)
    (fresh : result.success = true → state.returned < result.published) : History after := by
  have splits : ∀ earlier found later, after.results = earlier ++ found :: later →
      ResultOk after.written earlier found := by
    intro earlier found later same
    rw [written]
    rcases split_append (results ▸ same) with ⟨rfl, rfl⟩ | ⟨rest, split⟩
    · exact ok
    · exact valid.results earlier found rest split
  cases success : result.success with
  | false =>
    have same : numbers after.results = numbers state.results := by simp [results, numbers_append, success]
    have stays : after.returned = state.returned := by simp [returned, success]
    refine ⟨?_, ?_, ?_, splits⟩
    · rw [same]
      exact valid.increasing
    · rw [same, stays]
      exact valid.bounded
    · rw [stays, results]
      exact valid.last.imp id ReturnedBy.later
  | true =>
    have grows := fresh success
    have same : numbers after.results = numbers state.results ++ [result.published] := by
      simp [results, numbers_append, success]
    have moves : after.returned = result.published := by simp [returned, success]
    refine ⟨?_, ?_, Or.inr ⟨result, ?_, success, moves.symm⟩, splits⟩
    · rw [same, List.pairwise_append]
      refine ⟨valid.increasing, List.pairwise_singleton _ _, ?_⟩
      intro older member newer last
      obtain rfl := List.mem_singleton.mp last
      exact Nat.lt_of_le_of_lt (valid.bounded older member) grows
    · intro number member
      rw [same, List.mem_append, List.mem_singleton] at member
      rw [moves]
      rcases member with older | rfl
      · exact Nat.le_trans (valid.bounded number older) (Nat.le_of_lt grows)
      · exact Nat.le_refl _
    · simp [results]

/-- A read may give up when whatever has been claimed has been returned, a
blocking read only after a stop. -/
theorem Inv.give_up {state : State T} (valid : Inv state) {call : Call T} (settled : Settled state)
    (stopped : call.blocking = true → state.stopped = true) : Inv (state.giveUp call) := by
  have took : Took state (state.giveUp call) := ⟨rfl, rfl, rfl⟩
  have wrote : Wrote state (state.giveUp call) := ⟨rfl, rfl, rfl, List.prefix_rfl, rfl, rfl⟩
  refine ⟨⟨valid.cells.claimed, valid.cells.unread, valid.cells.whole⟩, took.writer valid.writer,
    wrote.settled settled, ?_⟩
  refine valid.history.append ⟨call, false, call.item, state.claimed, state.stopped⟩ ?_ ?_ ?_ ?_ ?_
  · rfl
  · rfl
  · refine ⟨by simp, fun _ => rfl, fun _ => ⟨fun _ => ?_, fun _ => rfl⟩, fun blocking _ => stopped blocking⟩
    dsimp only
    rw [← settled.returned]
    exact valid.history.last
  · rfl
  · simp

/-- Exchanging the reader's role with the spare slot claims the latest write. -/
theorem Inv.claim {state : State T} (valid : Inv state) {call : Call T} {old : Option Nat}
    (settled : Settled state) (blocking : call.blocking = old.isSome) :
    Inv { state with
      stateIdx := desired false state.stateIdx
      claimed := state.written.length
      reader := .getReadSlot call old } := by
  obtain ⟨writeHead, readHead, spareHead⟩ := desired_read state.stateIdx
  have took : Took state { state with
      stateIdx := desired false state.stateIdx
      claimed := state.written.length
      reader := .getReadSlot call old } := ⟨writeHead, rfl, rfl⟩
  obtain ⟨item, held, latest⟩ := valid.cells.whole
  obtain ⟨recycled, whole⟩ := settled.whole
  have returned := settled.returned
  refine ⟨⟨Nat.le_refl _, ?_, recycled, ?_, ?_⟩, took.writer valid.writer, ⟨⟨?_, ?_, item, ?_, ?_⟩, blocking⟩, ?_⟩
  · have empty : state.haveUnread state.readSlot = decide (state.written.length < state.written.length) := by
      simp [settled.unread]
    exact (congrArg state.haveUnread spareHead).trans empty
  · exact (congrArg state.slots spareHead).trans whole
  · exact fun later => absurd later (Nat.lt_irrefl _)
  · rw [returned]
    exact valid.cells.claimed
  · have unread := valid.cells.unread
    rw [← returned] at unread
    exact (congrArg state.haveUnread readHead).trans unread
  · exact (congrArg state.slots readHead).trans held
  · rw [returned]
    exact latest
  · exact ⟨valid.history.increasing, valid.history.bounded, valid.history.last, valid.history.results⟩

/-- Using the read slot disturbs neither the spare slot nor the writer. -/
theorem Inv.use {state : State T} (valid : Inv state) (cell : Option T) {swap : Prop} [Decidable swap]
    {point : ReaderPoint T} (ok : ReaderOk { state with
      slots := if swap then Function.update state.slots state.readSlot cell else state.slots } point) :
    Inv { state with
      slots := if swap then Function.update state.slots state.readSlot cell else state.slots
      reader := point } := by
  have elsewhere : ∀ slot, slot ≠ state.readSlot →
      (if swap then Function.update state.slots state.readSlot cell else state.slots) slot = state.slots slot := by
    intro slot apart
    split
    · exact Function.update_of_ne apart _ _
    · rfl
  have took : Took state { state with
      slots := if swap then Function.update state.slots state.readSlot cell else state.slots
      reader := point } := ⟨rfl, elsewhere _ (write_ne_read state), rfl⟩
  have wrote : Wrote { state with
      slots := if swap then Function.update state.slots state.readSlot cell else state.slots }
      { state with
        slots := if swap then Function.update state.slots state.readSlot cell else state.slots
        reader := point } := ⟨rfl, rfl, rfl, List.prefix_rfl, rfl, rfl⟩
  obtain ⟨item, held, latest⟩ := valid.cells.whole
  refine ⟨⟨valid.cells.claimed, valid.cells.unread, item, ?_, latest⟩, took.writer valid.writer, wrote.reader ok, ?_⟩
  · exact (elsewhere _ (spare_ne_read state)).trans held
  · exact ⟨valid.history.increasing, valid.history.bounded, valid.history.last, valid.history.results⟩

/-- Clearing the flag returns the claimed write. -/
theorem Inv.deliver {state : State T} (valid : Inv state) {call : Call T} {item : T}
    (fresh : state.returned < state.claimed) (found : itemOf state.written state.claimed = some item)
    (whole : Whole state state.readSlot) :
    Inv { state with
      haveUnread := Function.update state.haveUnread state.readSlot false
      reader := .idle
      returned := state.claimed
      results := state.results ++ [⟨call, true, item, state.claimed, state.stopped⟩] } := by
  have took : Took state { state with
      haveUnread := Function.update state.haveUnread state.readSlot false
      reader := .idle
      returned := state.claimed
      results := state.results ++ [⟨call, true, item, state.claimed, state.stopped⟩] } :=
    ⟨rfl, rfl, Function.update_of_ne (write_ne_read state) _ _⟩
  refine ⟨⟨valid.cells.claimed, ?_, valid.cells.whole⟩, took.writer valid.writer,
    ⟨rfl, Function.update_self _ _ _, whole⟩, ?_⟩
  · exact (Function.update_of_ne (spare_ne_read state) _ _).trans valid.cells.unread
  · refine valid.history.append ⟨call, true, item, state.claimed, state.stopped⟩ ?_ ?_ ?_ ?_ ?_
    · rfl
    · rfl
    · refine ⟨fun _ => ⟨Nat.zero_lt_of_lt fresh, found⟩, by simp, fun _ => ⟨by simp, ?_⟩, by simp⟩
      -- whatever was returned before is older than what is claimed now
      rintro (none | ⟨result, member, success, same⟩)
      · dsimp only at none
        omega
      · have older := valid.history.bounded result.published (mem_numbers.mpr ⟨result, member, success, rfl⟩)
        dsimp only at same
        omega
    · rfl
    · exact fun _ => fresh

theorem Swapped.settled {state : State T} (swapped : Swapped state) (empty : ¬ state.haveUnread state.readSlot = true) :
    Settled state := by
  have returned := swapped.returned
  have unread := swapped.unread
  obtain ⟨item, held, _⟩ := swapped.whole
  rw [Bool.not_eq_true] at empty
  rw [empty, eq_comm, decide_eq_false_iff_not] at unread
  exact ⟨by omega, empty, item, held⟩

theorem reader_step_inv {before after : State T} (valid : Inv before) (moved : readerStep before = some after) :
    Inv after := by
  have ok := valid.reader
  cases point : before.reader with
  | idle | parked | aborted => simp [readerStep, point] at moved
  | sampleCounter call | resample call =>
    rw [point] at ok
    simp only [readerStep, point, Option.some.injEq] at moved
    subst after
    exact valid.at_reader ok
  | loopStopped call old =>
    rw [point] at ok
    obtain ⟨settled, blocking⟩ := ok
    simp only [readerStep, point] at moved
    split at moved
    next stopped =>
      obtain rfl := Option.some.inj moved
      exact valid.give_up settled (fun _ => stopped)
    next =>
      obtain rfl := Option.some.inj moved
      exact valid.at_reader ⟨settled, blocking⟩
  | load call old =>
    rw [point] at ok
    simp only [readerStep, point, Option.some.injEq] at moved
    subst after
    exact valid.at_reader ok
  | exchange call old expected =>
    rw [point] at ok
    simp only [readerStep, point] at moved
    split at moved
    next same =>
      subst expected
      obtain rfl := Option.some.inj moved
      exact valid.claim ok.1 ok.2
    next =>
      obtain rfl := Option.some.inj moved
      exact valid.at_reader ok
  | getReadSlot call old =>
    rw [point] at ok
    simp only [readerStep, point, Option.some.injEq] at moved
    subst after
    exact valid.at_reader ⟨ok.1, rfl, ok.2⟩
  | loadUnread call old slot =>
    rw [point] at ok
    obtain ⟨swapped, rfl, blocking⟩ := ok
    simp only [readerStep, point] at moved
    split at moved
    next unread =>
      obtain rfl := Option.some.inj moved
      have fresh := swapped.unread
      rw [unread, eq_comm, decide_eq_true_iff] at fresh
      exact valid.at_reader ⟨swapped, fresh⟩
    next empty =>
      have settled := swapped.settled empty
      cases old with
      | none =>
        obtain rfl := Option.some.inj moved
        exact valid.give_up settled (fun waits => by simp [waits] at blocking)
      | some old =>
        obtain rfl := Option.some.inj moved
        exact valid.at_reader ⟨settled, blocking⟩
  | wait call old =>
    rw [point] at ok
    simp only [readerStep, point, Option.some.injEq] at moved
    subst after
    apply valid.at_reader
    split <;> exact ok
  | itemSlot call =>
    rw [point] at ok
    simp only [readerStep, point, Option.some.injEq] at moved
    subst after
    exact valid.at_reader ⟨ok.1, ok.2, rfl⟩
  | copy call slot =>
    rw [point] at ok
    obtain ⟨swapped, fresh, rfl⟩ := ok
    obtain ⟨item, held, latest⟩ := swapped.whole
    simp only [readerStep, point, held, Option.some.injEq] at moved
    subst after
    refine valid.use none ⟨fresh, rfl, latest fresh, fun op => ⟨item, ?_⟩⟩
    simp only [op, ite_false]
    exact held
  | copying call slot item =>
    rw [point] at ok
    obtain ⟨fresh, rfl, found, whole⟩ := ok
    simp only [readerStep, point, Option.some.injEq] at moved
    subst after
    refine valid.use (some call.item) ⟨fresh, rfl, found, ?_⟩
    by_cases op : call.op = .swapRead
    · exact ⟨call.item, by simp only [op, ite_true]; exact Function.update_self _ _ _⟩
    · obtain ⟨kept, held⟩ := whole op
      exact ⟨kept, by simp only [op, ite_false]; exact held⟩
  | clearUnread call slot item =>
    rw [point] at ok
    obtain ⟨fresh, rfl, found, whole⟩ := ok
    simp only [readerStep, point, Option.some.injEq] at moved
    subst after
    exact valid.deliver fresh found whole

theorem Inv.stop {state : State T} (valid : Inv state) :
    Inv { state with stopped := true, stopping := state.stopping + 1 } := by
  have took : Took state { state with stopped := true, stopping := state.stopping + 1 } := ⟨rfl, rfl, rfl⟩
  have wrote : Wrote state { state with stopped := true, stopping := state.stopping + 1 } :=
    ⟨rfl, rfl, rfl, List.prefix_rfl, rfl, rfl⟩
  exact ⟨⟨valid.cells.claimed, valid.cells.unread, valid.cells.whole⟩, took.writer valid.writer,
    wrote.reader valid.reader, wrote.history rfl valid.history⟩

theorem Inv.count {state : State T} (valid : Inv state) (stopping notifying : Nat) :
    Inv { state with stopping, notifying } := by
  have took : Took state { state with stopping, notifying } := ⟨rfl, rfl, rfl⟩
  have wrote : Wrote state { state with stopping, notifying } := ⟨rfl, rfl, rfl, List.prefix_rfl, rfl, rfl⟩
  exact ⟨⟨valid.cells.claimed, valid.cells.unread, valid.cells.whole⟩, took.writer valid.writer,
    wrote.reader valid.reader, wrote.history rfl valid.history⟩

/-! What each event other than a step of the two parties can do. -/

section
variable {before after : State T}

theorem step_write {op : WriteOp T} (moved : Step before (.write op) after) :
    before.writer = .idle ∧ after = { before with writer := .getWriteSlot op } := by
  cases point : before.writer with
  | idle => exact ⟨rfl, by simpa [Step, step, point] using moved.symm⟩
  | _ => simp [Step, step, point] at moved

theorem step_writerFails (moved : Step before .writerFails after) : ∃ write expected,
    before.writer = .exchange write expected ∧ after = { before with writer := .exchange write before.stateIdx } := by
  cases point : before.writer with
  | exchange write expected => exact ⟨write, expected, rfl, by simpa [Step, step, point] using moved.symm⟩
  | _ => simp [Step, step, point] at moved

theorem step_read {op : ReadOp} {item : T} {blocking : Bool} (moved : Step before (.read op item blocking) after) :
    before.reader = .idle ∧ after = { before with
      reader := if blocking then .sampleCounter { op, blocking, item } else .load { op, blocking, item } none } := by
  cases point : before.reader with
  | idle => exact ⟨rfl, by simpa [Step, step, point] using moved.symm⟩
  | _ => simp [Step, step, point] at moved

theorem step_readerFails (moved : Step before .readerFails after) : ∃ call old expected,
    before.reader = .exchange call old expected ∧
      after = { before with reader := .exchange call old before.stateIdx } := by
  cases point : before.reader with
  | exchange call old expected => exact ⟨call, old, expected, rfl, by simpa [Step, step, point] using moved.symm⟩
  | _ => simp [Step, step, point] at moved

theorem step_wake (moved : Step before .wake after) : ∃ call old, before.reader = .parked call old ∧
    before.updateCounter ≠ old ∧ after = { before with reader := .resample call } := by
  cases point : before.reader with
  | parked call old =>
    simp only [Step, step, point] at moved
    split at moved
    next => contradiction
    next changed => exact ⟨call, old, rfl, changed, (Option.some.inj moved).symm⟩
  | _ => simp [Step, step, point] at moved

theorem step_stop (moved : Step before .stop after) :
    after = { before with stopped := true, stopping := before.stopping + 1 } := (Option.some.inj moved).symm

theorem step_stopIncrement (moved : Step before .stopIncrement after) : before.stopping ≠ 0 ∧
    after = { before.bump with stopping := before.stopping - 1, notifying := before.notifying + 1 } := by
  simp only [Step, step] at moved
  split at moved
  next => contradiction
  next pending => exact ⟨pending, (Option.some.inj moved).symm⟩

theorem step_stopNotify (moved : Step before .stopNotify after) : before.notifying ≠ 0 ∧
    after = { before.notifyOne with notifying := before.notifying - 1 } := by
  simp only [Step, step] at moved
  split at moved
  next => contradiction
  next pending => exact ⟨pending, (Option.some.inj moved).symm⟩

end

theorem step_inv : Preserved (Step (T := T)) Inv := by
  intro before event after moved valid
  cases event with
  | writer => exact writer_step_inv valid moved
  | reader => exact reader_step_inv valid moved
  | write op =>
    obtain ⟨point, rfl⟩ := step_write moved
    have ok := valid.writer
    rw [point] at ok
    exact valid.at_writer ok
  | writerFails =>
    obtain ⟨write, expected, point, rfl⟩ := step_writerFails moved
    have ok := valid.writer
    rw [point] at ok
    exact valid.at_writer ok
  | read op item blocking =>
    obtain ⟨point, rfl⟩ := step_read moved
    have ok := valid.reader
    rw [point] at ok
    apply valid.at_reader
    cases blocking
    · exact ⟨ok, rfl⟩
    · exact ⟨ok, rfl⟩
  | readerFails =>
    obtain ⟨call, old, expected, point, rfl⟩ := step_readerFails moved
    have ok := valid.reader
    rw [point] at ok
    exact valid.at_reader ok
  | wake =>
    obtain ⟨call, old, point, -, rfl⟩ := step_wake moved
    have ok := valid.reader
    rw [point] at ok
    exact valid.at_reader ok
  | stop =>
    obtain rfl := step_stop moved
    exact valid.stop
  | stopIncrement =>
    obtain ⟨-, rfl⟩ := step_stopIncrement moved
    exact (bump_inv valid).count _ _
  | stopNotify =>
    obtain ⟨-, rfl⟩ := step_stopNotify moved
    exact (notifyOne_inv valid).count _ _

theorem reachable_inv {slots : Fin 3 → T} {state : State T} (reached : Reachable slots state) : Inv state := by
  obtain ⟨events, run⟩ := reached
  exact Transitions.Run.keeps run step_inv (initial_inv slots)

end AxbyCore.SingleItem.Proofs
