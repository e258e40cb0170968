import AxbyCore.Concurrency.SingleItem
import Mathlib.Tactic.Common

/-! What holds of a latest-value cell at every program point of both parties.
The spare slot is unread exactly while the reader has not claimed the latest
write; each party's local facts concern its own slot, which the other never
touches. -/

namespace AxbyCore.SingleItem.Proofs
open Transitions

universe u
variable {T : Type u}

/-! The six states are the assignments of the three roles. -/

theorem roles_apart (state : Fin 6) : (transitionTable state).readHead ≠ (transitionTable state).writeHead ∧
    spare state ≠ (transitionTable state).writeHead ∧ spare state ≠ (transitionTable state).readHead := by
  decide +revert

/-- A write exchanges the writer's role with the spare slot. -/
theorem desired_write (state : Fin 6) :
    (transitionTable (desired true state)).readHead = (transitionTable state).readHead ∧
      (transitionTable (desired true state)).writeHead = spare state ∧
      spare (desired true state) = (transitionTable state).writeHead := by
  decide +revert

/-- A read exchanges the reader's role with the spare slot. -/
theorem desired_read (state : Fin 6) :
    (transitionTable (desired false state)).writeHead = (transitionTable state).writeHead ∧
      (transitionTable (desired false state)).readHead = spare state ∧
      spare (desired false state) = (transitionTable state).readHead := by
  decide +revert

theorem write_ne_read (state : State T) : state.writeSlot ≠ state.readSlot :=
  (roles_apart state.stateIdx).1.symm

theorem spare_ne_write (state : State T) : state.spareSlot ≠ state.writeSlot := (roles_apart state.stateIdx).2.1

theorem spare_ne_read (state : State T) : state.spareSlot ≠ state.readSlot := (roles_apart state.stateIdx).2.2

/-- The item of a write, the writes being numbered from one. -/
def itemOf (written : List (Write T)) (number : Nat) : Option T := (written[number - 1]?).map Write.item

/-- The spare slot, and how far the reader has come. -/
structure Cells (state : State T) : Prop where
  claimed : state.claimed ≤ state.written.length
  unread : state.haveUnread state.spareSlot = decide (state.claimed < state.written.length)
  whole : ∃ item, state.slots state.spareSlot = some item ∧
    (state.claimed < state.written.length → itemOf state.written state.written.length = some item)

def Whole (state : State T) (slot : Fin 3) : Prop := ∃ item, state.slots slot = some item

def WriterOk (state : State T) : WriterPoint T → Prop
  | .idle | .getWriteSlot _ | .increment | .notify => Whole state state.writeSlot
  | .assign _ slot => slot = state.writeSlot ∧ Whole state state.writeSlot
  | .assigning _ slot => slot = state.writeSlot
  | .setUnread write slot => slot = state.writeSlot ∧ state.slots state.writeSlot = some write.item
  | .load write | .exchange write _ =>
    state.slots state.writeSlot = some write.item ∧ state.haveUnread state.writeSlot = true
  | .aborted => False

/-- The reader has returned whatever it has claimed. -/
structure Settled (state : State T) : Prop where
  returned : state.returned = state.claimed
  unread : state.haveUnread state.readSlot = false
  whole : Whole state state.readSlot

/-- The reader has swapped, and its flag tells whether it has claimed anything new. -/
structure Swapped (state : State T) : Prop where
  returned : state.returned ≤ state.claimed
  unread : state.haveUnread state.readSlot = decide (state.returned < state.claimed)
  whole : ∃ item, state.slots state.readSlot = some item ∧
    (state.returned < state.claimed → itemOf state.written state.claimed = some item)

def ReaderOk (state : State T) : ReaderPoint T → Prop
  | .idle => Settled state
  | .sampleCounter call | .loopStopped call _ | .wait call _ | .parked call _ | .resample call =>
    Settled state ∧ call.blocking = true
  | .load call old | .exchange call old _ => Settled state ∧ call.blocking = old.isSome
  | .getReadSlot call old => Swapped state ∧ call.blocking = old.isSome
  | .loadUnread call old slot => Swapped state ∧ slot = state.readSlot ∧ call.blocking = old.isSome
  | .itemSlot _ => Swapped state ∧ state.returned < state.claimed
  | .copy _ slot => Swapped state ∧ state.returned < state.claimed ∧ slot = state.readSlot
  | .copying call slot item =>
    state.returned < state.claimed ∧ slot = state.readSlot ∧ itemOf state.written state.claimed = some item ∧
      (call.op ≠ .swapRead → Whole state state.readSlot)
  | .clearUnread _ slot item =>
    state.returned < state.claimed ∧ slot = state.readSlot ∧ itemOf state.written state.claimed = some item ∧
      Whole state state.readSlot
  | .aborted => False

/-- The write was returned by one of these reads. -/
def ReturnedBy (results : List (ReadResult T)) (number : Nat) : Prop :=
  ∃ result ∈ results, result.success = true ∧ result.published = number

/-- What a read may have returned after the reads `earlier`. -/
structure ResultOk (written : List (Write T)) (earlier : List (ReadResult T)) (result : ReadResult T) : Prop where
  latest : result.success = true → 0 < result.published ∧ itemOf written result.published = some result.item
  untouched : result.success = false → result.item = result.call.item
  stale : result.call.blocking = false →
    (result.success = false ↔ result.published = 0 ∨ ReturnedBy earlier result.published)
  blocking : result.call.blocking = true → result.success = false → result.stopped = true

/-- The numbers of the writes that reads have returned, in the order of the reads. -/
def numbers (results : List (ReadResult T)) : List Nat := (results.filter (·.success)).map (·.published)

structure History (state : State T) : Prop where
  increasing : (numbers state.results).Pairwise (· < ·)
  bounded : ∀ number ∈ numbers state.results, number ≤ state.returned
  last : state.returned = 0 ∨ ReturnedBy state.results state.returned
  results : ∀ earlier result later, state.results = earlier ++ result :: later → ResultOk state.written earlier result

structure Inv (state : State T) : Prop where
  cells : Cells state
  writer : WriterOk state state.writer
  reader : ReaderOk state state.reader
  history : History state

theorem initial_inv (slots : Fin 3 → T) : Inv (State.initial slots) := by
  refine ⟨⟨Nat.le_refl _, rfl, ⟨_, rfl, fun later => absurd later (Nat.lt_irrefl _)⟩⟩, ⟨_, rfl⟩, ⟨rfl, rfl, ⟨_, rfl⟩⟩,
    ⟨.nil, ?_, .inl rfl, ?_⟩⟩
  · intro number member
    simp [State.initial, numbers] at member
  · intro earlier result later same
    simp [State.initial] at same

theorem itemOf_append {written more : List (Write T)} {number : Nat} {item : T}
    (found : itemOf written number = some item) : itemOf (written ++ more) number = some item := by
  obtain ⟨write, held, same⟩ := Option.map_eq_some_iff.mp found
  have inside := (List.getElem?_eq_some_iff.mp held).1
  rw [itemOf, List.getElem?_append_left inside]
  exact found

theorem itemOf_last (written : List (Write T)) (write : Write T) :
    itemOf (written ++ [write]) (written ++ [write]).length = some write.item := by
  simp [itemOf]

/-! Facts that one party relies on survive whatever the other may do meanwhile. -/

/-- What the writer may change under the reader's feet. -/
structure Wrote (before after : State T) : Prop where
  readSlot : after.readSlot = before.readSlot
  slots : after.slots before.readSlot = before.slots before.readSlot
  unread : after.haveUnread before.readSlot = before.haveUnread before.readSlot
  written : before.written <+: after.written
  claimed : after.claimed = before.claimed
  returned : after.returned = before.returned

theorem Wrote.item {before after : State T} (moves : Wrote before after) {number : Nat} {item : T}
    (found : itemOf before.written number = some item) : itemOf after.written number = some item := by
  obtain ⟨more, same⟩ := moves.written
  rw [← same]
  exact itemOf_append found

theorem Wrote.whole {before after : State T} (moves : Wrote before after)
    (whole : Whole before before.readSlot) : Whole after after.readSlot := by
  obtain ⟨item, held⟩ := whole
  exact ⟨item, by rw [moves.readSlot, moves.slots, held]⟩

theorem Wrote.settled {before after : State T} (moves : Wrote before after) (valid : Settled before) :
    Settled after where
  returned := by rw [moves.returned, moves.claimed, valid.returned]
  unread := by rw [moves.readSlot, moves.unread, valid.unread]
  whole := moves.whole valid.whole

theorem Wrote.swapped {before after : State T} (moves : Wrote before after) (valid : Swapped before) :
    Swapped after := by
  obtain ⟨item, held, same⟩ := valid.whole
  refine ⟨?_, ?_, item, ?_, ?_⟩
  · rw [moves.returned, moves.claimed]
    exact valid.returned
  · rw [moves.readSlot, moves.unread, moves.returned, moves.claimed, valid.unread]
  · rw [moves.readSlot, moves.slots, held]
  · rw [moves.returned, moves.claimed]
    exact fun fresh => moves.item (same fresh)

theorem Wrote.fresh {before after : State T} (moves : Wrote before after)
    (fresh : before.returned < before.claimed) : after.returned < after.claimed := by
  rw [moves.returned, moves.claimed]
  exact fresh

theorem Wrote.reader {before after : State T} (moves : Wrote before after) {point : ReaderPoint T}
    (valid : ReaderOk before point) : ReaderOk after point := by
  cases point with
  | idle => exact moves.settled valid
  | sampleCounter | loopStopped | wait | parked | resample | load | exchange => exact ⟨moves.settled valid.1, valid.2⟩
  | getReadSlot => exact ⟨moves.swapped valid.1, valid.2⟩
  | loadUnread => exact ⟨moves.swapped valid.1, valid.2.1.trans moves.readSlot.symm, valid.2.2⟩
  | itemSlot => exact ⟨moves.swapped valid.1, moves.fresh valid.2⟩
  | copy => exact ⟨moves.swapped valid.1, moves.fresh valid.2.1, valid.2.2.trans moves.readSlot.symm⟩
  | copying =>
    obtain ⟨fresh, slot, found, whole⟩ := valid
    refine ⟨moves.fresh fresh, slot.trans moves.readSlot.symm, ?_, fun op => moves.whole (whole op)⟩
    rw [moves.claimed]
    exact moves.item found
  | clearUnread =>
    obtain ⟨fresh, slot, found, whole⟩ := valid
    refine ⟨moves.fresh fresh, slot.trans moves.readSlot.symm, ?_, moves.whole whole⟩
    rw [moves.claimed]
    exact moves.item found
  | aborted => exact valid

theorem Wrote.history {before after : State T} (moves : Wrote before after)
    (results : after.results = before.results) (valid : History before) : History after := by
  refine ⟨?_, ?_, ?_, ?_⟩
  · rw [results]
    exact valid.increasing
  · rw [results, moves.returned]
    exact valid.bounded
  · rw [results, moves.returned]
    exact valid.last
  · intro earlier result later split
    obtain ⟨latest, untouched, stale, blocking⟩ := valid.results earlier result later (results ▸ split)
    exact ⟨fun success => ⟨(latest success).1, moves.item (latest success).2⟩, untouched, stale, blocking⟩

/-- What the reader may change under the writer's feet. -/
structure Took (before after : State T) : Prop where
  writeSlot : after.writeSlot = before.writeSlot
  slots : after.slots before.writeSlot = before.slots before.writeSlot
  unread : after.haveUnread before.writeSlot = before.haveUnread before.writeSlot

theorem Took.whole {before after : State T} (moves : Took before after)
    (whole : Whole before before.writeSlot) : Whole after after.writeSlot := by
  obtain ⟨item, held⟩ := whole
  exact ⟨item, by rw [moves.writeSlot, moves.slots, held]⟩

theorem Took.writer {before after : State T} (moves : Took before after) {point : WriterPoint T}
    (valid : WriterOk before point) : WriterOk after point := by
  have slots : ∀ {item}, before.slots before.writeSlot = some item → after.slots after.writeSlot = some item := by
    intro item held
    rw [moves.writeSlot, moves.slots, held]
  cases point with
  | idle | getWriteSlot | increment | notify => exact moves.whole valid
  | assign => exact ⟨valid.1.trans moves.writeSlot.symm, moves.whole valid.2⟩
  | assigning => exact Eq.trans valid moves.writeSlot.symm
  | setUnread => exact ⟨valid.1.trans moves.writeSlot.symm, slots valid.2⟩
  | load | exchange => exact ⟨slots valid.1, by rw [moves.writeSlot, moves.unread, valid.2]⟩
  | aborted => exact valid

/-! A step that only moves a program point. -/

theorem Inv.at_writer {state : State T} (valid : Inv state) {point : WriterPoint T}
    (ok : WriterOk state point) : Inv { state with writer := point } := by
  have took : Took state { state with writer := point } := ⟨rfl, rfl, rfl⟩
  have wrote : Wrote state { state with writer := point } := ⟨rfl, rfl, rfl, List.prefix_rfl, rfl, rfl⟩
  exact ⟨⟨valid.cells.claimed, valid.cells.unread, valid.cells.whole⟩, took.writer ok, wrote.reader valid.reader,
    wrote.history rfl valid.history⟩

theorem Inv.at_reader {state : State T} (valid : Inv state) {point : ReaderPoint T}
    (ok : ReaderOk state point) : Inv { state with reader := point } := by
  have took : Took state { state with reader := point } := ⟨rfl, rfl, rfl⟩
  have wrote : Wrote state { state with reader := point } := ⟨rfl, rfl, rfl, List.prefix_rfl, rfl, rfl⟩
  exact ⟨⟨valid.cells.claimed, valid.cells.unread, valid.cells.whole⟩, took.writer valid.writer, wrote.reader ok,
    wrote.history rfl valid.history⟩

end AxbyCore.SingleItem.Proofs
