import AxbyCore.Library.EventCounter
import AxbyCore.Proofs.RingBufferSteps

/-! A consumer parked in `update_counter.wait` misses nothing. The counter is
sampled before the tests of the stop flag and of emptiness, and whatever makes a
test come out differently bumps the counter afterwards. -/

namespace AxbyCore.RingBuffer.Proofs
open Transitions EventCounter

universe u
variable {T : Type u} {size : Nat}

def signals (state : State T) : Signals where
  bumps := state.bumps
  stopped := state.stopped = true
  stopping := 0 < state.stopping
  item := Nonempty state
  publishing := state.producer = .increment
  notifying := state.producer = .notify ∨ 0 < state.notifying

def stage : ConsumerPoint T → Stage
  | .loopStopped _ old => .sampled old
  | .loopHead _ old | .loopTail _ old _ => .tested old
  | .wait _ old => .waiting old
  | .parked _ old => .parked old
  | _ => .away

def waiter (state : State T) : Waiter where
  counter := state.updateCounter
  signals := signals state
  stage := stage state.consumer

theorem initial_wakeful : (waiter (State.initial T)).Ok := ⟨rfl, trivial⟩

theorem stage_beginRead (call : Call) : stage (beginRead (T := T) call) = .away := by
  cases op : call.op <;> simp [beginRead, op, stage]

theorem stage_notifyOne (state : State T) :
    stage state.notifyOne.consumer = (stage state.consumer).notify state.updateCounter := by
  unfold State.notifyOne
  cases point : state.consumer with
  | parked call old => by_cases same : state.updateCounter = old <;> simp [point, same, stage, Stage.notify]
  | _ => simp [point, stage, Stage.notify]

/-- A notification touches nothing but the consumer. -/
theorem notifyOne_eq (state : State T) : ∃ point, state.notifyOne = { state with consumer := point } := by
  unfold State.notifyOne
  split
  · split
    · exact ⟨state.consumer, rfl⟩
    · exact ⟨_, rfl⟩
  · exact ⟨state.consumer, rfl⟩

theorem wakeful_consumer {before after : State T} (valid : Inv size before)
    (moved : consumerStep size before = some after) (kept : (waiter before).Ok) : (waiter after).Ok := by
  have waiting : (signals before).Ok (stage before.consumer) := kept.waiting
  have counter : before.updateCounter = wrap before.bumps := kept.counter
  cases point : before.consumer with
  | idle | parked | aborted => simp [consumerStep, point] at moved
  | sampleCounter | resample =>
    simp only [consumerStep, point, Option.some.injEq] at moved
    subst after
    refine ⟨counter, ?_⟩
    simp only [counter]
    exact Signals.Ok.now _
  | loopStopped call old =>
    rw [point] at waiting
    simp only [consumerStep, point, Option.some.injEq] at moved
    subst after
    refine ⟨counter, ?_⟩
    dsimp only [waiter]
    split
    · trivial
    · exact waiting.not_stopped ‹_›
  | loopHead call old =>
    rw [point] at waiting
    simp only [consumerStep, point, Option.some.injEq] at moved
    subst after
    exact ⟨counter, waiting⟩
  | loopTail call old head =>
    have ok := valid.consumer
    rw [point] at waiting ok
    obtain ⟨_, rfl⟩ := ok
    simp only [consumerStep, point, Option.some.injEq] at moved
    subst after
    refine ⟨counter, ?_⟩
    dsimp only [waiter]
    split
    next none =>
      apply waiting.no_item
      have same := (empty_iff valid.indices).mp none
      exact Nat.not_lt.mpr (Nat.le_of_eq same.symm)
    next => trivial
  | wait call old =>
    rw [point] at waiting
    simp only [consumerStep, point, Option.some.injEq] at moved
    subst after
    refine ⟨counter, ?_⟩
    dsimp only [waiter]
    split
    next unchanged => exact waiting.park (counter.symm.trans unchanged)
    next => trivial
  | checkStopped call | checkTail call =>
    simp only [consumerStep, point, Option.some.injEq] at moved
    subst after
    refine ⟨counter, ?_⟩
    dsimp only [waiter]
    split
    all_goals first | (rw [stage_beginRead]; trivial) | trivial
  | endSlot | endTail =>
    simp only [consumerStep, point, Option.some.injEq] at moved
    subst after
    refine ⟨counter, ?_⟩
    dsimp only [waiter]
    split <;> trivial
  | beginStopped | beginTail | latestTail | latestStopped | copying =>
    simp only [consumerStep, point] at moved
    split at moved
    all_goals
      obtain rfl := Option.some.inj moved
      exact ⟨counter, trivial⟩
  | _ =>
    simp only [consumerStep, point, Option.some.injEq] at moved
    subst after
    exact ⟨counter, trivial⟩

theorem wakeful_producer {before after : State T} (moved : producerStep size before = some after)
    (kept : (waiter before).Ok) :
    (waiter after).Ok := by
  cases point : before.producer with
  | idle | aborted => simp [producerStep, point] at moved
  | storeTail value tail =>
    simp only [producerStep, point, Option.some.injEq] at moved
    subst after
    refine kept.quiet rfl rfl ⟨rfl, Or.inl, id, fun _ => Or.inr rfl, fun _ => rfl⟩ ?_
    simp [waiter, signals, point]
  | increment =>
    simp only [producerStep, point, Option.some.injEq] at moved
    subst after
    exact kept.bump rfl rfl rfl (Or.inl rfl)
  | notify =>
    simp only [producerStep, point, Option.some.injEq] at moved
    subst after
    refine kept.notify ?_ (stage_notifyOne before) ?_
    all_goals obtain ⟨stays, same⟩ := notifyOne_eq before
    all_goals rw [same]
    · rfl
    · exact ⟨rfl, Or.inl, id, Or.inl, fun soon => by simp [waiter, signals, point] at soon⟩
  | fullHead | checkHead | checkSlot =>
    simp only [producerStep, point] at moved
    split at moved
    all_goals
      obtain rfl := Option.some.inj moved
      refine kept.quiet rfl rfl ⟨rfl, Or.inl, id, Or.inl, ?_⟩ ?_
      all_goals simp [waiter, signals, point]
  | _ =>
    simp only [producerStep, point, Option.some.injEq] at moved
    subst after
    refine kept.quiet rfl rfl ⟨rfl, Or.inl, id, Or.inl, ?_⟩ ?_
    all_goals simp [waiter, signals, point]

theorem wakeful_step {before after : State T} {event : Event T} (valid : Inv size before)
    (moved : Step size before event after) (kept : (waiter before).Ok) :
    (waiter after).Ok := by
  cases event with
  | producer => exact wakeful_producer moved kept
  | consumer => exact wakeful_consumer valid moved kept
  | write value =>
    obtain ⟨point, rfl⟩ := step_write moved
    refine kept.quiet rfl rfl ⟨rfl, Or.inl, id, Or.inl, ?_⟩ ?_
    all_goals simp +contextual [waiter, signals, point]
  | read op blocking =>
    obtain ⟨point, rfl⟩ := step_read moved
    refine ⟨kept.counter, ?_⟩
    cases blocking
    · dsimp only [waiter]
      rw [if_neg (by simp), stage_beginRead]
      trivial
    · trivial
  | clear =>
    obtain ⟨point, rfl⟩ := step_clear moved
    exact ⟨kept.counter, trivial⟩
  | wake =>
    obtain ⟨call, old, point, -, rfl⟩ := step_wake moved
    exact ⟨kept.counter, trivial⟩
  | stop =>
    obtain rfl := step_stop moved
    exact kept.quiet rfl rfl ⟨rfl, fun _ => Or.inr (Nat.succ_pos _), fun _ => Nat.succ_pos _, Or.inl, id⟩ id
  | stopIncrement =>
    obtain ⟨-, rfl⟩ := step_stopIncrement moved
    exact kept.bump rfl rfl rfl (Or.inr (Nat.succ_pos _))
  | stopNotify =>
    obtain ⟨-, rfl⟩ := step_stopNotify moved
    refine kept.notify ?_ (stage_notifyOne before) ?_
    all_goals obtain ⟨stays, same⟩ := notifyOne_eq before
    all_goals rw [same]
    · rfl
    · exact ⟨rfl, Or.inl, id, Or.inl, id⟩

theorem reachable_wakeful (positive : 0 < size) {state : State T} (reached : Reachable size state) :
    (waiter state).Ok := by
  obtain ⟨events, run⟩ := reached
  have both : Inv size state ∧ (waiter state).Ok := by
    apply Transitions.Run.keeps run
    · intro before event after moved ⟨valid, kept⟩
      exact ⟨step_inv before event after moved valid, wakeful_step valid moved kept⟩
    · exact ⟨initial_inv positive, initial_wakeful⟩
  exact both.2

/-- A parked consumer has nothing to read and has not been stopped, or a writer
or a stopping thread is still on its way to the notification. -/
theorem no_lost_wakeup (positive : 0 < size) {state : State T} (reached : Reachable size state)
    {call : Call} {old : Nat} (parked : state.consumer = .parked call old) (bounded : state.bumps < 2 ^ 64) :
    (¬ Nonempty state ∧ state.stopped = false) ∨ 0 < state.stopping ∨ state.producer = .increment ∨
      state.producer = .notify ∨ 0 < state.notifying := by
  have waiting : (signals state).Ok (stage state.consumer) := (reachable_wakeful positive reached).waiting
  rw [parked] at waiting
  rcases waiting.no_lost_wakeup bounded with ⟨none, running⟩ | pending
  · exact Or.inl ⟨none, by simpa [signals] using running⟩
  · exact Or.inr pending

end AxbyCore.RingBuffer.Proofs
