import AxbyCore.Proofs.RingBufferWakeup
import AxbyCore.Proofs.SingleItemCell
import AxbyCore.Proofs.SingleItemWakeup

/-! Blocking reads of both containers. A reader waits only while there is nothing
for it to do, and comes back without an item only after `stop()`. -/

namespace AxbyCore.BlockingReads
open Transitions

universe u
variable {T : Type u}

/-- Neither container loses a wakeup. -/
theorem blocking_reads_wake {size : Nat} (capacity : 2 ≤ size) {slots : Fin 3 → T}
    {ring : RingBuffer.State T} (ringReached : RingBuffer.Reachable size ring)
    {cell : SingleItem.State T} (cellReached : SingleItem.Reachable slots cell)
    (ringBounded : ring.bumps < 2 ^ 64) (cellBounded : cell.bumps < 2 ^ 64) :
    ((∀ call old, ring.consumer = .parked call old →
        (ring.popped = ring.written.length ∧ ring.stopped = false) ∨ 0 < ring.stopping ∨
          ring.producer = .increment ∨ ring.producer = .notify ∨ 0 < ring.notifying) ∧
      ring.consumer ≠ .aborted ∧
      ∀ result ∈ ring.results, result.call.blocking = true → result.item = none → result.stopped = true) ∧
    (∀ call old, cell.reader = .parked call old →
        (cell.returned = cell.written.length ∧ cell.stopped = false) ∨ 0 < cell.stopping ∨
          cell.writer = .increment ∨ cell.writer = .notify ∨ 0 < cell.notifying) ∧
      ∀ result ∈ cell.results, result.call.blocking = true → result.success = false → result.stopped = true := by
  have ringValid := RingBuffer.Proofs.reachable_inv (by omega) ringReached
  have cellValid := SingleItem.Proofs.reachable_inv cellReached
  refine ⟨⟨?_, ?_, ?_⟩, ?_, ?_⟩
  · intro call old parked
    rcases RingBuffer.Proofs.no_lost_wakeup (by omega) ringReached parked ringBounded with ⟨none, running⟩ | pending
    · have ordered := ringValid.indices.ordered
      exact Or.inl ⟨Nat.le_antisymm ordered (Nat.not_lt.mp none), running⟩
    · exact Or.inr pending
  · intro point
    have ok := ringValid.consumer
    rw [point] at ok
    exact ok
  · exact fun result member => (ringValid.history.results result member).blocking
  · exact fun call old parked => SingleItem.Proofs.no_lost_wakeup cellReached parked cellBounded
  · intro result member
    obtain ⟨earlier, later, split⟩ := List.append_of_mem member
    exact (cellValid.history.results earlier result later split).blocking

def ringParks : List (RingBuffer.Event Nat) := [.read .read true] ++ List.replicate 5 .consumer

def cellParks : List (SingleItem.Event Nat) := [.read .read 0 true] ++ List.replicate 7 .reader

theorem blocking_reads_wake_parked : ∃ (ring : RingBuffer.State Nat) (cell : SingleItem.State Nat),
    ring.consumer = .parked ⟨.read, true, false, 0⟩ 0 ∧ cell.reader = .parked ⟨.read, true, 0⟩ 0 ∧
      ((ring.popped = ring.written.length ∧ ring.stopped = false) ∨ 0 < ring.stopping ∨
        ring.producer = .increment ∨ ring.producer = .notify ∨ 0 < ring.notifying) ∧
      ((cell.returned = cell.written.length ∧ cell.stopped = false) ∨ 0 < cell.stopping ∨
        cell.writer = .increment ∨ cell.writer = .notify ∨ 0 < cell.notifying) := by
  have ring : execute (RingBuffer.step 2) (RingBuffer.State.initial Nat) ringParks = some _ := rfl
  have cell : execute SingleItem.step (SingleItem.State.initial fun _ => 0) cellParks = some _ := rfl
  have waits := blocking_reads_wake (by decide) ⟨_, Run.of_execute ring⟩ ⟨_, Run.of_execute cell⟩ (by decide) (by decide)
  exact ⟨_, _, rfl, rfl, waits.1.1 _ _ rfl, waits.2.1 _ _ rfl⟩

end AxbyCore.BlockingReads
