import AxbyCore.Library.EventCounter
import AxbyCore.Proofs.SingleItemSteps

/-! A reader parked in `update_counter_.wait` misses nothing. Its test of the
unread flag counts from the role swap before it, at which nothing newer was in
the spare slot. -/

namespace AxbyCore.SingleItem.Proofs
open Transitions EventCounter

universe u
variable {T : Type u}

def signals (state : State T) : Signals where
  bumps := state.bumps
  stopped := state.stopped = true
  stopping := 0 < state.stopping
  item := state.claimed < state.written.length
  publishing := state.writer = .increment
  notifying := state.writer = .notify ∨ 0 < state.notifying

def stage : ReaderPoint T → Stage
  | .loopStopped _ old => .sampled old
  | .load _ (some old) | .exchange _ (some old) _ => .tested old
  | .getReadSlot _ (some old) | .loadUnread _ (some old) _ | .wait _ old => .waiting old
  | .parked _ old => .parked old
  | _ => .away

def waiter (state : State T) : Waiter where
  counter := state.updateCounter
  signals := signals state
  stage := stage state.reader

theorem initial_wakeful (slots : Fin 3 → T) : (waiter (State.initial slots)).Ok := ⟨rfl, trivial⟩

theorem stage_notifyOne (state : State T) :
    stage state.notifyOne.reader = (stage state.reader).notify state.updateCounter := by
  unfold State.notifyOne
  cases point : state.reader with
  | parked call old => by_cases same : state.updateCounter = old <;> simp [point, same, stage, Stage.notify]
  | load call old | exchange call old _ | getReadSlot call old | loadUnread call old _ =>
    cases old <;> simp [point, stage, Stage.notify]
  | _ => simp [point, stage, Stage.notify]

/-- A notification touches nothing but the reader. -/
theorem notifyOne_eq (state : State T) : ∃ point, state.notifyOne = { state with reader := point } := by
  unfold State.notifyOne
  split
  · split
    · exact ⟨state.reader, rfl⟩
    · exact ⟨_, rfl⟩
  · exact ⟨state.reader, rfl⟩

/-- After the role swap of a read nothing in the spare slot is unread. -/
theorem signals_claim {state : State T} {old : Option Nat} {call : Call T} {expected : Fin 6}
    (waiting : (signals state).Ok (stage (.exchange call old expected))) (idx : Fin 6) :
    (signals { state with stateIdx := idx, claimed := state.written.length, reader := .getReadSlot call old }).Ok
      (stage (.getReadSlot call old)) := by
  cases old with
  | none => trivial
  | some old =>
    apply Signals.Ok.no_item
    · apply waiting.later
      refine Signals.Quiet.later ⟨?_, ?_, ?_, ?_, ?_⟩ ?_
      · rfl
      · exact Or.inl
      · exact id
      · exact fun later => absurd later (Nat.lt_irrefl _)
      · exact id
      · exact id
    · exact Nat.lt_irrefl _

theorem wakeful_reader {before after : State T} (moved : readerStep before = some after)
    (kept : (waiter before).Ok) : (waiter after).Ok := by
  have waiting : (signals before).Ok (stage before.reader) := kept.waiting
  have counter : before.updateCounter = wrap before.bumps := kept.counter
  cases point : before.reader with
  | idle | parked | aborted => simp [readerStep, point] at moved
  | sampleCounter | resample =>
    simp only [readerStep, point, Option.some.injEq] at moved
    subst after
    refine ⟨counter, ?_⟩
    simp only [waiter, counter]
    exact Signals.Ok.now _
  | loopStopped call old =>
    rw [point] at waiting
    simp only [readerStep, point] at moved
    split at moved
    next =>
      obtain rfl := Option.some.inj moved
      exact ⟨counter, trivial⟩
    next running =>
      obtain rfl := Option.some.inj moved
      exact ⟨counter, waiting.not_stopped running⟩
  | load call old =>
    rw [point] at waiting
    simp only [readerStep, point, Option.some.injEq] at moved
    subst after
    refine ⟨counter, ?_⟩
    cases old <;> exact waiting
  | exchange call old expected =>
    rw [point] at waiting
    simp only [readerStep, point] at moved
    split at moved
    next =>
      obtain rfl := Option.some.inj moved
      exact ⟨counter, signals_claim waiting _⟩
    next =>
      obtain rfl := Option.some.inj moved
      refine ⟨counter, ?_⟩
      cases old <;> exact waiting
  | getReadSlot call old =>
    rw [point] at waiting
    simp only [readerStep, point, Option.some.injEq] at moved
    subst after
    refine ⟨counter, ?_⟩
    cases old <;> exact waiting
  | loadUnread call old slot =>
    rw [point] at waiting
    simp only [readerStep, point] at moved
    split at moved
    next =>
      obtain rfl := Option.some.inj moved
      exact ⟨counter, trivial⟩
    next =>
      cases old with
      | none =>
        obtain rfl := Option.some.inj moved
        exact ⟨counter, trivial⟩
      | some old =>
        obtain rfl := Option.some.inj moved
        exact ⟨counter, waiting⟩
  | wait call old =>
    rw [point] at waiting
    simp only [readerStep, point, Option.some.injEq] at moved
    subst after
    refine ⟨counter, ?_⟩
    dsimp only [waiter]
    split
    next unchanged => exact waiting.park (counter.symm.trans unchanged)
    next => trivial
  | copy =>
    simp only [readerStep, point] at moved
    split at moved
    all_goals
      obtain rfl := Option.some.inj moved
      exact ⟨counter, trivial⟩
  | itemSlot | copying | clearUnread =>
    simp only [readerStep, point, Option.some.injEq] at moved
    subst after
    exact ⟨counter, trivial⟩

theorem wakeful_writer {before after : State T} (moved : writerStep before = some after)
    (kept : (waiter before).Ok) : (waiter after).Ok := by
  cases point : before.writer with
  | idle | aborted => simp [writerStep, point] at moved
  | exchange write expected =>
    simp only [writerStep, point] at moved
    split at moved
    next =>
      obtain rfl := Option.some.inj moved
      refine kept.quiet rfl rfl ⟨rfl, Or.inl, id, fun _ => Or.inr rfl, fun _ => rfl⟩ ?_
      simp [waiter, signals, point]
    next =>
      obtain rfl := Option.some.inj moved
      refine kept.quiet rfl rfl ⟨rfl, Or.inl, id, Or.inl, ?_⟩ ?_
      all_goals simp [waiter, signals, point]
  | increment =>
    simp only [writerStep, point, Option.some.injEq] at moved
    subst after
    exact kept.bump rfl rfl rfl (Or.inl rfl)
  | notify =>
    simp only [writerStep, point, Option.some.injEq] at moved
    subst after
    refine kept.notify ?_ (stage_notifyOne before) ?_
    all_goals obtain ⟨stays, same⟩ := notifyOne_eq before
    all_goals rw [same]
    · rfl
    · exact ⟨rfl, Or.inl, id, Or.inl, fun soon => by simp [waiter, signals, point] at soon⟩
  | assign =>
    simp only [writerStep, point] at moved
    split at moved
    all_goals
      obtain rfl := Option.some.inj moved
      refine kept.quiet rfl rfl ⟨rfl, Or.inl, id, Or.inl, ?_⟩ ?_
      all_goals simp [waiter, signals, point]
  | _ =>
    simp only [writerStep, point, Option.some.injEq] at moved
    subst after
    refine kept.quiet rfl rfl ⟨rfl, Or.inl, id, Or.inl, ?_⟩ ?_
    all_goals simp [waiter, signals, point]

theorem wakeful_step : Preserved (Step (T := T)) fun state => (waiter state).Ok := by
  intro before event after moved kept
  cases event with
  | writer => exact wakeful_writer moved kept
  | reader => exact wakeful_reader moved kept
  | write op =>
    obtain ⟨point, rfl⟩ := step_write moved
    refine kept.quiet rfl rfl ⟨rfl, Or.inl, id, Or.inl, ?_⟩ ?_
    all_goals simp [waiter, signals, point]
  | writerFails =>
    obtain ⟨write, expected, point, rfl⟩ := step_writerFails moved
    refine kept.quiet rfl rfl ⟨rfl, Or.inl, id, Or.inl, ?_⟩ ?_
    all_goals simp [waiter, signals, point]
  | read op item blocking =>
    obtain ⟨point, rfl⟩ := step_read moved
    refine ⟨kept.counter, ?_⟩
    cases blocking <;> trivial
  | readerFails =>
    obtain ⟨call, old, expected, point, rfl⟩ := step_readerFails moved
    have waiting : (signals before).Ok (stage before.reader) := kept.waiting
    rw [point] at waiting
    refine ⟨kept.counter, ?_⟩
    cases old <;> exact waiting
  | wake =>
    obtain ⟨call, old, point, -, rfl⟩ := step_wake moved
    exact ⟨kept.counter, trivial⟩
  | stop =>
    obtain rfl := step_stop moved
    exact kept.quiet rfl rfl ⟨rfl, fun _ => Or.inr (Nat.succ_pos _), fun _ => Nat.succ_pos _, Or.inl, id⟩ id
  | stopIncrement =>
    obtain ⟨-, rfl⟩ := step_stopIncrement moved
    exact kept.bump rfl rfl rfl (Or.inr (Nat.succ_pos _))
  | stopNotify =>
    obtain ⟨-, rfl⟩ := step_stopNotify moved
    refine kept.notify ?_ (stage_notifyOne before) ?_
    all_goals obtain ⟨stays, same⟩ := notifyOne_eq before
    all_goals rw [same]
    · rfl
    · exact ⟨rfl, Or.inl, id, Or.inl, id⟩

theorem reachable_wakeful {slots : Fin 3 → T} {state : State T} (reached : Reachable slots state) :
    (waiter state).Ok := by
  obtain ⟨events, run⟩ := reached
  have kept := Transitions.Run.keeps run wakeful_step (initial_wakeful slots)
  exact kept

/-- The latest write has been returned by a read. -/
def UpToDate (state : State T) : Prop := state.returned = state.written.length

/-- A parked reader has returned the latest write and has not been stopped, or a
writer or a stopping thread is still on its way to the notification. -/
theorem no_lost_wakeup {slots : Fin 3 → T} {state : State T} (reached : Reachable slots state)
    {call : Call T} {old : Nat} (parked : state.reader = .parked call old) (bounded : state.bumps < 2 ^ 64) :
    (UpToDate state ∧ state.stopped = false) ∨ 0 < state.stopping ∨ state.writer = .increment ∨
      state.writer = .notify ∨ 0 < state.notifying := by
  have waiting : (signals state).Ok (stage state.reader) := (reachable_wakeful reached).waiting
  have valid := reachable_inv reached
  have settled := valid.reader
  rw [parked] at waiting settled
  rcases waiting.no_lost_wakeup bounded with ⟨none, running⟩ | pending
  · refine Or.inl ⟨?_, by simpa [signals] using running⟩
    have claimed := valid.cells.claimed
    exact settled.1.returned.trans (Nat.le_antisymm claimed (Nat.not_lt.mp none))
  · exact Or.inr pending

end AxbyCore.SingleItem.Proofs
