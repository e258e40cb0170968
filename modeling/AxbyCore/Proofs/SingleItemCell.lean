import AxbyCore.Proofs.SingleItemSwaps

/-! The latest-value cell hands over each write at most once, and always the
latest one. -/

namespace AxbyCore.SingleItem.Proofs
open Transitions

universe u
variable {T : Type u}

/-- The slot that a write is filling. -/
def filling : WriterPoint T → Option (Fin 3)
  | .assign _ slot | .assigning _ slot | .setUnread _ slot => some slot
  | _ => none

/-- The slot that a read is using. -/
def inUse : ReaderPoint T → Option (Fin 3)
  | .loadUnread _ _ slot | .copy _ slot | .copying _ slot _ | .clearUnread _ slot _ => some slot
  | _ => none

theorem filling_slot {state : State T} {point : WriterPoint T} {slot : Fin 3} (valid : WriterOk state point)
    (fills : filling point = some slot) : slot = state.writeSlot := by
  cases point with
  | assign | setUnread =>
    obtain rfl := Option.some.inj fills
    exact valid.1
  | assigning =>
    obtain rfl := Option.some.inj fills
    exact valid
  | _ => simp [filling] at fills

theorem using_slot {state : State T} {point : ReaderPoint T} {slot : Fin 3} (valid : ReaderOk state point)
    (uses : inUse point = some slot) : slot = state.readSlot := by
  cases point with
  | loadUnread | copying | clearUnread =>
    obtain rfl := Option.some.inj uses
    exact valid.2.1
  | copy =>
    obtain rfl := Option.some.inj uses
    exact valid.2.2
  | _ => simp [inUse] at uses

theorem slots_apart {state : State T} (valid : Inv state) {writing reading : Fin 3}
    (fills : filling state.writer = some writing) (uses : inUse state.reader = some reading) : writing ≠ reading := by
  rw [filling_slot valid.writer fills, using_slot valid.reader uses]
  exact write_ne_read state

/-- `SingleItem` is a latest-value cell. What a read returns goes by the writes that had swapped when it swapped itself. -/
theorem latest_value_cell {slots : Fin 3 → T} {events : List (Event T)} {state : State T} (run : Run slots events state) :
    (∀ writing reading, filling state.writer = some writing → inUse state.reader = some reading → writing ≠ reading) ∧
    (∀ result ∈ state.results, result.success = true →
      0 < result.published ∧ itemOf state.written result.published = some result.item) ∧
    (∀ earlier result later, state.results = earlier ++ result :: later →
      result.success = true ∨ result.call.blocking = false →
      SwappedAt slots events state earlier result.call result.published) ∧
    (numbers state.results).Pairwise (· < ·) ∧
    (∀ earlier result later, state.results = earlier ++ result :: later → result.call.blocking = false →
      (result.success = false ↔ result.published = 0 ∨ ReturnedBy earlier result.published)) ∧
    (∀ result ∈ state.results, result.success = false → result.item = result.call.item) ∧
    (state.reader = .idle → state.haveUnread state.readSlot = false) ∧
    state.writer ≠ .aborted ∧ state.reader ≠ .aborted := by
  have valid := reachable_inv ⟨events, run⟩
  have each : ∀ result ∈ state.results, ∃ earlier, ResultOk state.written earlier result := by
    intro result member
    obtain ⟨earlier, later, split⟩ := List.append_of_mem member
    exact ⟨earlier, valid.history.results earlier result later split⟩
  refine ⟨fun _ _ => slots_apart valid, ?_, (run_tied run).returned, valid.history.increasing, ?_, ?_, ?_, ?_, ?_⟩
  · intro result member
    obtain ⟨_, ok⟩ := each result member
    exact ok.latest
  · exact fun earlier result later split => (valid.history.results earlier result later split).stale
  · intro result member
    obtain ⟨_, ok⟩ := each result member
    exact ok.untouched
  · intro point
    have ok := valid.reader
    rw [point] at ok
    exact Settled.unread ok
  · intro point
    have ok := valid.writer
    rw [point] at ok
    exact ok
  · intro point
    have ok := valid.reader
    rw [point] at ok
    exact ok

/-- Two writes, of which one read returns the second, a read that finds nothing new, and one after a third write. -/
def overwrite : List (Event Nat) :=
  [.write (.write 3)] ++ List.replicate 8 .writer ++ [.write (.swapWrite 7)] ++ List.replicate 8 .writer ++
    [.read .read 0 true] ++ List.replicate 10 .reader ++ [.read .swapRead 5 false] ++ List.replicate 4 .reader ++
    [.write (.moveWrite 9)] ++ List.replicate 8 .writer ++ [.read .read 6 false] ++ List.replicate 8 .reader

/-- The second read has swapped after two writes, and the third after all three. -/
theorem latest_value_cell_overwrite : ∃ state : State Nat, Run (fun _ => 0) overwrite state ∧
    state.results.map (fun result => (result.success, result.item)) = [(true, 7), (false, 5), (true, 9)] ∧
    (numbers state.results).Pairwise (· < ·) ∧
    ∃ first second third, state.results = [first, second, third] ∧
      SwappedAt (fun _ => 0) overwrite state [first] second.call 2 ∧
      SwappedAt (fun _ => 0) overwrite state [first, second] third.call 3 := by
  have executed : execute step (State.initial fun _ => 0) overwrite = some _ := rfl
  have run := Run.of_execute executed
  obtain ⟨-, -, swaps, increasing, -⟩ := latest_value_cell run
  exact ⟨_, run, rfl, increasing, _, _, _, rfl, swaps [_] _ _ rfl (.inr rfl), swaps [_, _] _ _ rfl (.inr rfl)⟩

end AxbyCore.SingleItem.Proofs
