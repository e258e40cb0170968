import AxbyCore.Proofs.FrameShutdown

/-! Once `stop_all` has returned, the processing threads and `main` have few steps left, and nothing keeps them from
taking those. -/

namespace AxbyCore.Proofs.FrameServer
open Transitions Realsense RingBuffer RingBuffer.Proofs

variable {setup : Setup}

/-- A state after a call of `stop_all` has returned. -/
structure Ending (server : FrameServer setup) : Prop where
  invariant : Invariant server
  stopping : Stopping server
  leaving : Leaving server
  ended : ∃ thread, server.stoppers thread = .returned

theorem effect_ended {before after : FrameServer setup} {event : FrameEvent} {thread : Nat}
    (effect : Effect before event after) (ended : before.stoppers thread = .returned) :
    after.stoppers thread = .returned := by
  have others : ∀ {other : Nat} (point : StopPoint), before.stoppers other ≠ .returned →
      Function.update before.stoppers other point thread = .returned := by
    intro other point busy
    have differs : thread ≠ other := by
      intro same
      rw [← same] at busy
      exact busy ended
    rw [Function.update_of_ne differs]
    exact ended
  cases effect with
  | stops other outside => exact others _ (by simp [outside])
  | takes other locking free => exact others _ (by simp [locking])
  | clears other calling => exact others _ (by simp [calling])
  | calls other moving call rest ring calling moved => exact others _ (by simp [calling])
  | gives other unlocking => exact others _ (by simp [unlocking])
  | _ => exact ended

theorem Ending.next {before after : FrameServer setup} {event : FrameEvent} (ending : Ending before)
    (moved : FrameStep before event after) : Ending after := by
  have effect := step_effect moved
  obtain ⟨thread, returned⟩ := ending.ended
  constructor
  · exact step_invariant before event after moved ending.invariant
  · exact effect_stopping ending.invariant.launches effect ending.stopping
  · exact effect_leaving ending.invariant ending.stopping effect ending.leaving
  · exact ⟨thread, effect_ended effect returned⟩

theorem Ending.stop {server : FrameServer setup} (ending : Ending server) : server.stop = true := by
  obtain ⟨thread, returned⟩ := ending.ended
  exact ending.stopping.flag thread (by simp [returned])

/-- A processing thread that is still in a round of its loop has had its ring buffer stopped for good. -/
theorem Ending.settled {server : FrameServer setup} (ending : Ending server) (kind : Kind)
    (busy : ¬ Between (server.workers kind)) :
    (server.rings kind).stopped = true ∧ (server.rings kind).stopping = 0 ∧ (server.rings kind).notifying = 0 := by
  obtain ⟨thread, returned⟩ := ending.ended
  have gone : server.onStopAll ≠ true := by
    intro registered
    exact busy (ending.stopping.late thread (by rw [returned]; trivial) registered kind)
  have away : server.main ≠ .registering := by
    intro registering
    have waiting := (ending.invariant.launches kind).mpr (by rw [registering]; rfl)
    exact busy (by rw [waiting]; trivial)
  have nothing : due server kind = none := by
    unfold due
    split
    next => rfl
    next holder mutex =>
      split
      next rest calling =>
        cases rest with
        | nil => rfl
        | cons first rest => exact absurd ((ending.stopping.calling holder _ calling).2 (by simp)) gone
      next => rfl
  have underway := ending.stopping.underway kind
  rw [nothing] at underway
  exact ⟨(ending.stopping.settled away).resolve_left gone kind, underway⟩

/-! How many steps are left. -/

/-- Steps of a read in a ring buffer that has been stopped. -/
def readRank : ConsumerPoint FrameData → Nat
  | .beginHead _ => 9
  | .beginTail _ _ | .loopHead _ _ => 8
  | .slotHead _ | .loopTail _ _ _ => 7
  | .copying _ _ | .wait _ _ => 6
  | .endSlot _ _ _ | .parked _ _ => 5
  | .endHead _ _ | .sampleCounter _ | .resample _ => 4
  | .endTail _ _ _ | .loopStopped _ _ | .checkHead _ => 3
  | .advanceLoad _ _ | .checkStopped _ | .checkTail _ _ => 2
  | .advanceStore _ _ _ | .beginStopped _ => 1
  | _ => 0

def workerRank : ProcessingPoint → ConsumerPoint FrameData → Nat
  | .waiting, _ | .checking, _ => 1
  | .reading, point => 2 + readRank point
  | .processing _, _ => 2
  | .crashed _, _ | .returned, _ => 0

def rankOf (server : FrameServer setup) (kind : Kind) : Nat :=
  workerRank (server.workers kind) (server.rings kind).consumer

def mainRank : ServerPoint → Nat
  | .registering => 8
  | .starting .color => 7
  | .starting .depth => 6
  | .starting .motion => 5
  | .looping => 4
  | .joining .color => 3
  | .joining .motion => 2
  | .joining .depth => 1
  | .cleanup => 0

theorem readRank_le (point : ConsumerPoint FrameData) : readRank point ≤ 9 := by
  cases point <;> simp [readRank]

theorem rankOf_le (server : FrameServer setup) (kind : Kind) : rankOf server kind ≤ 11 := by
  have bound := readRank_le (server.rings kind).consumer
  unfold rankOf
  cases server.workers kind with
  | reading =>
    simp only [workerRank]
    omega
  | _ => simp [workerRank]

theorem mainRank_le (main : ServerPoint) : mainRank main ≤ 8 := by
  cases main with
  | starting kind | joining kind => cases kind <;> decide
  | _ => decide

theorem readRank_beginRead {call : Call} (inOrder : call.op ≠ .readLatest) : readRank (beginRead call) = 1 := by
  cases op : call.op with
  | read | moveRead => simp [beginRead, op, readRank]
  | readLatest => exact absurd op inOrder

theorem readRank_step {size : Nat} {before after : State FrameData} (inRead : InRead before.consumer)
    (stopped : before.stopped = true) (moved : consumerStep size before = some after) :
    readRank after.consumer < readRank before.consumer := by
  cases point : before.consumer with
  | idle | parked | aborted => simp [consumerStep, point] at moved
  | latestHead | latestTail | latestStopped | latestLoad | latestStore | clearTail | clearStore =>
    rw [point] at inRead
    exact inRead.elim
  | beginStopped | beginTail | copying =>
    simp only [consumerStep, point] at moved
    split at moved
    all_goals
      obtain rfl := Option.some.inj moved
      simp [readRank, State.finish]
  | checkStopped call | checkTail call =>
    rw [point] at inRead
    have next := readRank_beginRead inRead
    simp only [consumerStep, point, Option.some.injEq] at moved
    subst after
    dsimp only
    split
    all_goals simp_all [readRank]
  | loopStopped | loopTail | wait | endSlot | endTail =>
    simp only [consumerStep, point, Option.some.injEq] at moved
    subst after
    dsimp only
    split
    all_goals simp_all [readRank]
  | _ =>
    simp only [consumerStep, point, Option.some.injEq] at moved
    subst after
    simp [readRank, State.finish]

/-- Waking a reader brings it nearer to its end. -/
theorem Undisturbed.rank {before after : State FrameData} (quiet : Undisturbed before after) :
    readRank after.consumer ≤ readRank before.consumer := by
  rcases quiet.consumer with same | ⟨call, old, parked, woken⟩
  · exact Nat.le_of_eq (by rw [same])
  · rw [parked, woken]
    simp [readRank]

theorem workerRank_read (ring : State FrameData) :
    workerRank (.read ring) ring.consumer ≤ 2 + readRank ring.consumer := by
  unfold ProcessingPoint.read
  split
  · split <;> simp [workerRank]
  · exact Nat.le_refl _

theorem workerRank_mono (worker : ProcessingPoint) {before after : ConsumerPoint FrameData}
    (less : readRank after ≤ readRank before) : workerRank worker after ≤ workerRank worker before := by
  cases worker with
  | reading =>
    simp only [workerRank]
    omega
  | _ => exact Nat.le_refl _

def isWorker (kind : Kind) : FrameEvent → Bool
  | .worker other _ | .wake other => other == kind
  | _ => false

def isMain : FrameEvent → Bool
  | .main => true
  | _ => false

/-- A step of another thread. -/
theorem rank_other {before after : FrameServer setup} {kind : Kind}
    (quiet : Undisturbed (before.rings kind) (after.rings kind)) (workers : after.workers kind = before.workers kind) :
    rankOf after kind ≤ rankOf before kind := by
  unfold rankOf
  rw [workers]
  exact workerRank_mono _ quiet.rank

theorem effect_rank {before after : FrameServer setup} {event : FrameEvent} (ending : Ending before)
    (effect : Effect before event after) (kind : Kind) :
    rankOf after kind + (isWorker kind event).toNat ≤ rankOf before kind := by
  have still : ∀ {other : Kind} {point : ProcessingPoint}, kind ≠ other →
      Function.update before.workers other point kind = before.workers kind :=
    fun differs => Function.update_of_ne differs ..
  have idle : ∀ {other : Kind}, kind ≠ other → ∀ reading, isWorker kind (.worker other reading) = false := by
    intro other differs reading
    exact beq_false_of_ne (Ne.symm differs)
  cases effect with
  | writes thread moving point ring writing moved => exact rank_other (undisturbed_update (.writer moved) kind) rfl
  | calls thread moving call rest ring calling moved => exact rank_other (undisturbed_update (.stop moved) kind) rfl
  | wakes moving ring moved =>
    by_cases here : kind = moving
    · subst here
      obtain ⟨call, old, parked, changed, rfl⟩ := step_wake moved
      have reading : before.workers kind = .reading := by
        apply Classical.byContradiction
        intro away
        have idle := (ending.invariant.consumes kind).idle away
        rw [idle] at parked
        cases parked
      simp [rankOf, isWorker, reading, parked, workerRank, readRank]
    · have other : isWorker kind (.wake moving) = false := beq_false_of_ne (Ne.symm here)
      rw [other]
      exact rank_other (undisturbed_update (.wake moved) kind) rfl
  | begins moving reading ring checking running moved =>
    rw [ending.stop] at running
    cases running
  | leaves moving reading checking stop =>
    by_cases here : kind = moving
    · subst here
      simp [rankOf, isWorker, checking, workerRank]
    · rw [idle here]
      exact rank_other (.refl _) (still here)
  | reads moving reading ring inRead moved =>
    by_cases here : kind = moving
    · subst here
      have stopped := (ending.settled kind (by rw [inRead]; exact id)).1
      have inside := (ending.invariant.consumes kind).reads inRead
      have less := readRank_step inside stopped moved
      have most := workerRank_read ring
      have now : rankOf before kind = 2 + readRank (before.rings kind).consumer := by simp [rankOf, inRead, workerRank]
      have counts : isWorker kind (.worker kind reading) = true := BEq.rfl
      rw [now, counts, rankOf]
      simp only [Function.update_self, Bool.toNat_true]
      omega
    · rw [idle here]
      apply rank_other
      · dsimp only
        rw [Function.update_of_ne here]
        exact .refl _
      · exact still here
  | crashes moving reading frameData busy =>
    by_cases here : kind = moving
    · subst here
      simp [rankOf, isWorker, busy, workerRank]
    · rw [idle here]
      exact rank_other (.refl _) (still here)
  | processes moving reading frameData encoders busy done =>
    by_cases here : kind = moving
    · subst here
      simp [rankOf, isWorker, busy, workerRank]
    · rw [idle here]
      exact rank_other (.refl _) (still here)
  | starts moving starting =>
    by_cases here : kind = moving
    · subst here
      have waiting := ending.invariant.launches.starting starting
      simp [rankOf, isWorker, waiting, workerRank]
    · exact rank_other (.refl _) (still here)
  | _ => exact rank_other (.refl _) rfl

theorem effect_mainRank {before after : FrameServer setup} {event : FrameEvent} (ending : Ending before)
    (effect : Effect before event after) : mainRank after.main + (isMain event).toNat ≤ mainRank before.main := by
  cases effect with
  | registers registering free =>
    dsimp only
    rw [registering]
    decide
  | starts moving starting =>
    dsimp only
    rw [starting]
    cases moving <;> decide
  | looks looping =>
    dsimp only
    rw [looping, if_pos ending.stop]
    decide
  | joins moving joining returned =>
    dsimp only
    rw [joining]
    cases moving <;> decide
  | _ => exact Nat.le_refl _

/-! Nobody waits for something that does not come. -/

/-- The processing thread can go on at once. -/
def Active (server : FrameServer setup) (kind : Kind) : Prop := ∀ reading, (server.next (.worker kind reading)).isSome

theorem consumerStep_isSome {size : Nat} {ring : State FrameData} (inRead : InRead ring.consumer)
    (awake : ∀ call old, ring.consumer ≠ .parked call old) : (consumerStep size ring).isSome := by
  cases point : ring.consumer with
  | idle | aborted | latestHead | latestTail | latestStopped | latestLoad | latestStore | clearTail | clearStore =>
    rw [point] at inRead
    exact inRead.elim
  | parked call old => exact absurd point (awake call old)
  | beginStopped | beginTail | copying =>
    simp only [consumerStep, point]
    split <;> rfl
  | _ => simp [consumerStep, point]

theorem active_reading {server : FrameServer setup} {kind : Kind} (reading : server.workers kind = .reading)
    (goes : (consumerStep (capacity kind) (server.rings kind)).isSome) : Active server kind := by
  intro entry
  obtain ⟨ring, moved⟩ := Option.isSome_iff_exists.mp goes
  simp [FrameServer.next, workerStep, reading, moved]

/-- A reader that still waits after its buffer has been stopped is about to be woken by the thread that writes. -/
theorem Ending.parked {server : FrameServer setup} (ending : Ending server) {kind : Kind}
    (reading : server.workers kind = .reading) (unwrapped : (server.rings kind).bumps < 2 ^ 64) {call : Call} {old : Nat}
    (parked : (server.rings kind).consumer = .parked call old) :
    ∃ other after, server.next (.sensor other) = some after ∧ Active after kind := by
  obtain ⟨stopped, none, nobody⟩ := ending.settled kind (by rw [reading]; exact id)
  have exclusive := ending.invariant.served.exclusive
  have awake := (reachable_wakeful (capacity_pos kind) (ending.invariant.served.reachable kind))
  have counter : (server.rings kind).updateCounter = EventCounter.wrap (server.rings kind).bumps := awake.counter
  have waiting : (signals (ringOf server kind)).Ok (stage (server.rings kind).consumer) := awake.waiting
  rw [parked] at waiting
  obtain ⟨ticket, sampled, stop, _, notice⟩ := waiting
  -- the bump of `stop` came after the sample, so whoever notifies next finds the counter changed
  have later : ticket < (server.rings kind).bumps := by
    rcases stop stopped with later | stopping
    · exact later
    · have stopping : 0 < (server.rings kind).stopping := stopping
      omega
  have changed : (server.rings kind).updateCounter ≠ old := by
    intro same
    have current := sampled.current unwrapped (counter.symm.trans same)
    have current : ticket = (server.rings kind).bumps := current
    omega
  have notifies : writer server kind = .notify := by
    rcases notice unwrapped later with notifies | notifying
    · exact notifies
    · have notifying : 0 < (server.rings kind).notifying := notifying
      omega
  obtain ⟨thread, place⟩ : ∃ thread, server.callbacks thread = .writing kind .notify := by
    unfold writer at notifies
    cases mutex : server.mutexes kind with
    | none => simp [mutex] at notifies
    | some thread =>
      rw [mutex] at notifies
      dsimp only at notifies
      have holds := (exclusive.held kind thread).mp mutex
      cases point : server.callbacks thread with
      | writing other inside =>
        rw [point] at holds notifies
        have same : other = kind := holds
        subst same
        simp only [placeIn, if_true] at notifies
        exact ⟨thread, by rw [point, notifies]⟩
      | _ => simp [point, placeIn] at notifies
  have woken : ({ server.rings kind with producer := ProducerPoint.notify } : State FrameData).notifyOne =
      { server.rings kind with producer := .notify, consumer := .resample call } := by
    simp [State.notifyOne, parked, changed]
  have goes : (server.next (.sensor thread)).isSome := by simp [FrameServer.next, sensorStep, place, producerStep]
  obtain ⟨after, moved⟩ := Option.isSome_iff_exists.mp goes
  refine ⟨thread, after, moved, ?_⟩
  cases step_effect moved with
  | writes _ other point ring writing stepped =>
    rw [place] at writing
    cases writing
    simp only [producerStep, woken, Option.some.injEq] at stepped
    subst ring
    refine active_reading reading ?_
    simp [consumerStep]
  | locks _ other frameData locking =>
    rw [place] at locking
    cases locking
  | unlocks _ other unlocking =>
    rw [place] at unlocking
    cases unlocking

/-- A processing thread after `stop_all` has returned. -/
theorem Ending.progress {server : FrameServer setup} (ending : Ending server) {kind : Kind}
    (unwrapped : (server.rings kind).bumps < 2 ^ 64) :
    (server.workers kind = .waiting ∧ launched server.main kind = false) ∨ server.workers kind = .returned ∨
      (∃ frameData, server.workers kind = .crashed frameData) ∨ Active server kind ∨
      ∃ other after, server.next (.sensor other) = some after ∧ Active after kind := by
  cases worker : server.workers kind with
  | waiting => exact .inl ⟨rfl, (ending.invariant.launches kind).mp worker⟩
  | returned => exact .inr (.inl rfl)
  | crashed frameData => exact .inr (.inr (.inl ⟨frameData, rfl⟩))
  | checking =>
    refine .inr (.inr (.inr (.inl fun reading => ?_)))
    simp [FrameServer.next, workerStep, worker, ending.stop]
  | processing frameData =>
    refine .inr (.inr (.inr (.inl fun reading => ?_)))
    simp only [FrameServer.next, workerStep, worker]
    split <;> rfl
  | reading =>
    refine .inr (.inr (.inr ?_))
    by_cases parked : ∃ call old, (server.rings kind).consumer = .parked call old
    · obtain ⟨call, old, parked⟩ := parked
      exact .inr (ending.parked worker unwrapped parked)
    · refine .inl (active_reading worker (consumerStep_isSome ((ending.invariant.consumes kind).reads worker) ?_))
      intro call old point
      exact parked ⟨call, old, point⟩

/-- A thread that holds the mutex of `stop_all` can go on. -/
theorem Stopping.progress {server : FrameServer setup} (stopping : Stopping server) {thread : Nat}
    (mutex : server.onStopAllMutex = some thread) : (server.next (.stopper thread)).isSome := by
  have inside := (stopping.owner thread).mp mutex
  cases point : server.stoppers thread with
  | outside | locking | returned =>
    rw [point] at inside
    exact inside.elim
  | unlocking => simp [FrameServer.next, stopperStep, point]
  | calling rest =>
    cases rest with
    | nil => simp [FrameServer.next, stopperStep, point]
    | cons first rest =>
      obtain ⟨kind, call⟩ := first
      have underway := stopping.underway kind
      simp only [due, mutex, point, List.lookup_cons_self] at underway
      simp only [FrameServer.next, stopperStep, point, Option.bind_eq_bind]
      cases call with
      | store => rfl
      | increment => simp [StopCall.event, step, underway.2.1]
      | notify => simp [StopCall.event, step, underway.2.2]

theorem Ending.main_progress {server : FrameServer setup} (ending : Ending server) :
    server.main = .cleanup ∨ (server.next .main).isSome ∨
      (∃ kind, server.main = .joining kind ∧ server.workers kind ≠ .returned) ∨
      (server.main = .registering ∧ ∃ other, (server.next (.stopper other)).isSome) := by
  cases main : server.main with
  | cleanup => exact .inl rfl
  | starting kind => exact .inr (.inl (by simp [FrameServer.next, mainStep, main]))
  | looping => exact .inr (.inl (by simp [FrameServer.next, mainStep, main]))
  | registering =>
    cases mutex : server.onStopAllMutex with
    | none => exact .inr (.inl (by simp [FrameServer.next, mainStep, main, mutex]))
    | some thread => exact .inr (.inr (.inr ⟨rfl, thread, ending.stopping.progress mutex⟩))
  | joining kind =>
    by_cases returned : server.workers kind = .returned
    · exact .inr (.inl (by simp [FrameServer.next, mainStep, main, returned]))
    · exact .inr (.inr (.inl ⟨kind, rfl, returned⟩))

theorem run_leaving {events : List FrameEvent} {server : FrameServer setup} (run : FrameRun events server) :
    Invariant server ∧ Stopping server ∧ Leaving server := by
  apply run.keeps
  · intro before event after moved ⟨invariant, stopping, leaving⟩
    have effect := step_effect moved
    exact ⟨step_invariant before event after moved invariant, effect_stopping invariant.launches effect stopping,
      effect_leaving invariant stopping effect leaving⟩
  · exact ⟨⟨start_served, fun kind => by simp [launched], start_consumes, start_ledger⟩, start_stopping, start_leaving⟩

/-- The processing threads run until `stop_all` is called. From where it has returned they have at most eleven steps left
each and `main` has eight, whatever the sensors still deliver; and a thread that has not come to its end, nor been ended by
what it processes, can go on, or waits for one that can. -/
theorem shutdown_ends {events : List FrameEvent} {server : FrameServer setup} (run : FrameRun events server) :
    (∀ kind, server.workers kind = .returned → server.stop = true) ∧
    (server.main = .cleanup → ∀ kind, server.workers kind = .returned) ∧
    ∀ thread, server.stoppers thread = .returned → ∀ (more : List FrameEvent) (later : FrameServer setup),
      Transitions.Run FrameStep server more later → (∀ kind, (later.rings kind).bumps < 2 ^ 64) →
      (∀ kind, more.countP (isWorker kind) ≤ 11) ∧ more.countP isMain ≤ 8 ∧
      (∀ kind, (later.workers kind = .waiting ∧ launched later.main kind = false) ∨ later.workers kind = .returned ∨
        (∃ frameData, later.workers kind = .crashed frameData) ∨ Active later kind ∨
        ∃ other after, later.next (.sensor other) = some after ∧ Active after kind) ∧
      (later.main = .cleanup ∨ (later.next .main).isSome ∨
        (∃ kind, later.main = .joining kind ∧ later.workers kind ≠ .returned) ∨
        (later.main = .registering ∧ ∃ other, (later.next (.stopper other)).isSome)) := by
  obtain ⟨invariant, stopping, leaving⟩ := run_leaving run
  refine ⟨leaving.returned, fun main kind => leaving.joined kind (by rw [main]; rfl), ?_⟩
  intro thread returned more later onward unwrapped
  have ending : Ending server := ⟨invariant, stopping, leaving, thread, returned⟩
  have all : ∀ event ∈ more, (fun _ : FrameEvent => True) event := fun _ _ => trivial
  have workers : ∀ kind, Ending later ∧ more.countP (isWorker kind) + rankOf later kind ≤ rankOf server kind := by
    intro kind
    exact onward.spends Ending (isWorker kind) (rankOf · kind) all
      (fun before event after _ moved kept => ⟨kept.next moved, effect_rank kept (step_effect moved) kind⟩) ending
  have main := onward.spends Ending isMain (mainRank ·.main) all
    (fun before event after _ moved kept => ⟨kept.next moved, effect_mainRank kept (step_effect moved)⟩) ending
  refine ⟨fun kind => ?_, ?_, fun kind => (workers kind).1.progress (unwrapped kind), main.1.main_progress⟩
  · have most := rankOf_le server kind
    have spent := (workers kind).2
    omega
  · have most := mainRank_le server.main
    have spent := main.2
    omega

/-- `stop_all` is called in some thread and returns. -/
def stopped : List FrameEvent := onePixel ++ [.stopAll 5] ++ List.replicate 12 (.stopper 5)

/-- Each processing thread returns, and `main` joins them. -/
def joins : List FrameEvent :=
  [.worker .color plainReading, .worker .depth plainReading, .worker .motion plainReading] ++ List.replicate 4 .main

def webcamAfter (events : List FrameEvent) : FrameServer webcam := (execute FrameServer.next {} events).getD {}

theorem shutdown_ends_pixel : ∃ server later : FrameServer webcam, FrameRun stopped server ∧
    Transitions.Run FrameStep server joins later ∧ joins.countP isMain ≤ 8 ∧ later.main = .cleanup := by
  have executed : execute FrameServer.next {} stopped = some (webcamAfter stopped) := rfl
  have run := Run.of_execute executed
  have ended : execute FrameServer.next (webcamAfter stopped) joins = some (webcamAfter (stopped ++ joins)) := rfl
  have onward := Run.of_execute ended
  exact ⟨_, _, run, onward, ((shutdown_ends run).2.2 5 rfl joins _ onward (fun kind => by cases kind <;> decide)).2.1, rfl⟩

end AxbyCore.Proofs.FrameServer
