import AxbyCore.Proofs.SingleItemSteps
import Mathlib.Data.List.Induction

/-! A read returns what the last role swap of its own has found: how many writes had
swapped by then is what its result goes by. -/

namespace AxbyCore.SingleItem.Proofs
open Transitions

universe u
variable {T : Type u}

/-- The read is past its role swap and has not gone back to wait. -/
def AfterSwap (call : Call T) : ReaderPoint T → Prop
  | .getReadSlot other _ | .loadUnread other _ _ | .itemSlot other | .copy other _ | .copying other _ _
  | .clearUnread other _ _ => other = call
  | _ => False

/-- In this run the read that came after `earlier` has exchanged the roles when `published` writes had, and was past
its swap from then on until it returned. -/
def SwappedAt (slots : Fin 3 → T) (events : List (Event T)) (state : State T) (earlier : List (ReadResult T))
    (call : Call T) (published : Nat) : Prop :=
  ∃ prior later before swapped old, events = prior ++ .reader :: later ∧ Run slots prior before ∧
    before.results = earlier ∧ before.reader = .exchange call old before.stateIdx ∧ before.written.length = published ∧
    Step before .reader swapped ∧
    Transitions.Run (fun before event after => Step before event after ∧ (after.results = earlier → AfterSwap call after.reader))
      swapped later state

section
variable {before after : State T} {event : Event T}

/-- What an event is to the read in progress: nothing, its role swap or its end. -/
inductive Seen (before : State T) (event : Event T) (after : State T) : Prop where
  | along (results : after.results = before.results) (claimed : after.claimed = before.claimed)
      (past : ∀ call, AfterSwap call after.reader → AfterSwap call before.reader)
  | swap {call : Call T} {old : Option Nat} (own : event = .reader) (point : before.reader = .exchange call old before.stateIdx)
      (results : after.results = before.results) (claimed : after.claimed = before.written.length)
      (past : after.reader = .getReadSlot call old)
  | result (result : ReadResult T) (results : after.results = before.results ++ [result]) (idle : after.reader = .idle)
      (own : result.success = true ∨ result.call.blocking = false →
        AfterSwap result.call before.reader ∧ result.published = before.claimed)

theorem notifyOne_results (state : State T) : state.notifyOne.results = state.results := by
  unfold State.notifyOne
  split
  · split <;> rfl
  · rfl

theorem notifyOne_claimed (state : State T) : state.notifyOne.claimed = state.claimed := by
  unfold State.notifyOne
  split
  · split <;> rfl
  · rfl

/-- A notification does not bring a read past its swap. -/
theorem notifyOne_past {state : State T} {call : Call T} (past : AfterSwap call state.notifyOne.reader) :
    AfterSwap call state.reader := by
  unfold State.notifyOne at past
  split at past
  · split at past
    · exact past
    · exact past.elim
  · exact past

theorem writer_seen (moved : writerStep before = some after) : Seen before .writer after := by
  cases point : before.writer with
  | idle | aborted => simp [writerStep, point] at moved
  | assign op slot =>
    simp only [writerStep, point] at moved
    split at moved
    · obtain rfl := Option.some.inj moved
      exact .along rfl rfl fun _ past => past
    · obtain rfl := Option.some.inj moved
      exact .along rfl rfl fun _ past => past
  | exchange write expected =>
    simp only [writerStep, point] at moved
    split at moved
    · obtain rfl := Option.some.inj moved
      exact .along rfl rfl fun _ past => past
    · obtain rfl := Option.some.inj moved
      exact .along rfl rfl fun _ past => past
  | notify =>
    simp only [writerStep, point, Option.some.injEq] at moved
    subst after
    exact .along (notifyOne_results before) (notifyOne_claimed before) fun _ => notifyOne_past
  | getWriteSlot | assigning | setUnread | load | increment =>
    simp only [writerStep, point, Option.some.injEq] at moved
    subst after
    exact .along rfl rfl fun _ past => past

theorem reader_seen (valid : Inv before) (moved : readerStep before = some after) : Seen before .reader after := by
  have ok := valid.reader
  cases point : before.reader with
  | idle | parked | aborted => simp [readerStep, point] at moved
  | sampleCounter | resample | load =>
    simp only [readerStep, point, Option.some.injEq] at moved
    subst after
    exact .along rfl rfl fun _ past => past.elim
  | wait call old =>
    simp only [readerStep, point, Option.some.injEq] at moved
    subst after
    refine .along rfl rfl fun _ past => ?_
    dsimp only at past
    split at past <;> exact past.elim
  | loopStopped call old =>
    rw [point] at ok
    have waits : call.blocking = true := ok.2
    simp only [readerStep, point] at moved
    split at moved
    next =>
      obtain rfl := Option.some.inj moved
      exact .result _ rfl rfl fun own => by simp [waits] at own
    next =>
      obtain rfl := Option.some.inj moved
      exact .along rfl rfl fun _ past => past.elim
  | exchange call old expected =>
    simp only [readerStep, point] at moved
    split at moved
    next same =>
      subst expected
      obtain rfl := Option.some.inj moved
      exact .swap rfl point rfl rfl rfl
    next =>
      obtain rfl := Option.some.inj moved
      exact .along rfl rfl fun _ past => past.elim
  | loadUnread call old slot =>
    simp only [readerStep, point] at moved
    split at moved
    next =>
      obtain rfl := Option.some.inj moved
      exact .along rfl rfl fun _ past => by rwa [point]
    next =>
      cases old with
      | none =>
        obtain rfl := Option.some.inj moved
        exact .result _ rfl rfl fun _ => ⟨by rw [point]; rfl, rfl⟩
      | some old =>
        obtain rfl := Option.some.inj moved
        exact .along rfl rfl fun _ past => past.elim
  | getReadSlot | itemSlot | copying =>
    simp only [readerStep, point, Option.some.injEq] at moved
    subst after
    exact .along rfl rfl fun _ past => by rwa [point]
  | copy call slot =>
    simp only [readerStep, point] at moved
    split at moved
    next =>
      obtain rfl := Option.some.inj moved
      exact .along rfl rfl fun _ past => past.elim
    next =>
      obtain rfl := Option.some.inj moved
      exact .along rfl rfl fun _ past => by rwa [point]
  | clearUnread call slot item =>
    simp only [readerStep, point, Option.some.injEq] at moved
    subst after
    exact .result _ rfl rfl fun _ => ⟨by rw [point]; rfl, rfl⟩

theorem step_seen (valid : Inv before) (moved : Step before event after) : Seen before event after := by
  cases event with
  | writer => exact writer_seen moved
  | reader => exact reader_seen valid moved
  | write op =>
    obtain ⟨-, rfl⟩ := step_write moved
    exact .along rfl rfl fun _ past => past
  | writerFails =>
    obtain ⟨write, expected, -, rfl⟩ := step_writerFails moved
    exact .along rfl rfl fun _ past => past
  | read op item blocking =>
    obtain ⟨-, rfl⟩ := step_read moved
    refine .along rfl rfl fun _ past => ?_
    cases blocking <;> exact past.elim
  | readerFails =>
    obtain ⟨call, old, expected, -, rfl⟩ := step_readerFails moved
    exact .along rfl rfl fun _ past => past.elim
  | wake =>
    obtain ⟨call, old, -, -, rfl⟩ := step_wake moved
    exact .along rfl rfl fun _ past => past.elim
  | stop =>
    obtain rfl := step_stop moved
    exact .along rfl rfl fun _ past => past
  | stopIncrement =>
    obtain ⟨-, rfl⟩ := step_stopIncrement moved
    exact .along rfl rfl fun _ past => past
  | stopNotify =>
    obtain ⟨-, rfl⟩ := step_stopNotify moved
    exact .along (notifyOne_results before) (notifyOne_claimed before) fun _ => notifyOne_past

end

section
variable {slots : Fin 3 → T} {events : List (Event T)} {before after : State T} {event : Event T}
  {earlier : List (ReadResult T)} {call : Call T} {published : Nat}

/-- The swap stays the read's last one. -/
theorem SwappedAt.extend (swapped : SwappedAt slots events before earlier call published) (moved : Step before event after)
    (past : after.results = earlier → AfterSwap call after.reader) :
    SwappedAt slots (events ++ [event]) after earlier call published := by
  obtain ⟨prior, later, start, first, old, rfl, run, results, point, length, exchanged, rest⟩ := swapped
  refine ⟨prior, later ++ [event], start, first, old, ?_, run, results, point, length, exchanged, .snoc rest ⟨moved, past⟩⟩
  rw [List.append_assoc, List.cons_append]

/-- What a run has of swaps: those of the reads that have returned, and that of the read in progress. -/
structure Tied (slots : Fin 3 → T) (events : List (Event T)) (state : State T) : Prop where
  run : Run slots events state
  returned : ∀ earlier result later, state.results = earlier ++ result :: later →
    result.success = true ∨ result.call.blocking = false → SwappedAt slots events state earlier result.call result.published
  underway : ∀ call, AfterSwap call state.reader → SwappedAt slots events state state.results call state.claimed

theorem tied_initial (slots : Fin 3 → T) : Tied slots [] (State.initial slots) := by
  refine ⟨.refl _, fun earlier result later split => ?_, fun call past => past.elim⟩
  simp [State.initial] at split

/-- What has returned stays tied, since the later results are not those it came after. -/
theorem Tied.returned_extend (tied : Tied slots events before) (moved : Step before event after)
    (grows : before.results <+: after.results) {result : ReadResult T} {later : List (ReadResult T)}
    (split : before.results = earlier ++ result :: later) (own : result.success = true ∨ result.call.blocking = false) :
    SwappedAt slots (events ++ [event]) after earlier result.call result.published := by
  apply (tied.returned earlier result later split own).extend moved
  intro same
  have shorter := grows.length_le
  rw [same, split] at shorter
  simp only [List.length_append, List.length_cons] at shorter
  omega

theorem Tied.step (tied : Tied slots events before) (moved : Step before event after) :
    Tied slots (events ++ [event]) after := by
  have run : Run slots (events ++ [event]) after := .snoc tied.run moved
  refine ⟨run, fun earlier result later split own => ?_, fun call past => ?_⟩
  · cases step_seen (reachable_inv ⟨_, tied.run⟩) moved with
    | along results | swap _ _ results =>
      rw [results] at split
      exact tied.returned_extend moved ⟨[], by rw [results, List.append_nil]⟩ split own
    | result last results idle seen =>
      rw [results] at split
      cases later using List.reverseRecOn with
      | nil =>
        obtain ⟨rfl, same⟩ := List.append_inj' split rfl
        obtain rfl := List.singleton_inj.mp same
        obtain ⟨past, number⟩ := seen own
        rw [number]
        apply (tied.underway _ past).extend moved
        intro same
        simp [results] at same
      | append_singleton later other =>
        rw [← List.cons_append, ← List.append_assoc] at split
        exact tied.returned_extend moved ⟨[last], results.symm⟩ (List.append_inj' split rfl).1 own
  · cases step_seen (reachable_inv ⟨_, tied.run⟩) moved with
    | along results claimed back =>
      rw [results, claimed]
      exact (tied.underway call (back call past)).extend moved fun _ => past
    | @swap swapping old own point results claimed there =>
      rw [there] at past
      obtain rfl : swapping = call := past
      subst own
      exact ⟨events, [], before, after, old, rfl, tied.run, results.symm, point, claimed.symm, moved, .refl _⟩
    | result _ _ idle =>
      rw [idle] at past
      exact past.elim

theorem run_tied (run : Run slots events after) : Tied slots events after := by
  apply Transitions.Run.history run (Tied slots) _ (tied_initial slots)
  exact fun earlier before event after moved tied => tied.step moved

end

end AxbyCore.SingleItem.Proofs
