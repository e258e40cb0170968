import AxbyCore.Proofs.FrameServer

/-! How the frame server ends. The flag of `stop_all` keeps a processing thread from reading again, and the callback that
`main` registers before it starts the threads gets one out of a read in which it waits. -/

namespace AxbyCore.Proofs.FrameServer
open Transitions Realsense RingBuffer RingBuffer.Proofs

variable {setup : Setup}

/-! What `stop_all` has done. -/

/-- The thread is between the lock and the unlock of `on_stop_all_mutex_`. -/
def InStop : StopPoint → Prop
  | .calling _ | .unlocking => True
  | _ => False

/-- The thread has cleared the callbacks. -/
def Past : StopPoint → Prop
  | .unlocking | .returned => True
  | _ => False

/-- The thread is not in a round of its loop. -/
def Between : ProcessingPoint → Prop
  | .waiting | .checking | .returned => True
  | _ => False

/-- What is next of `stop` for a ring buffer that the callback is about to stop or stopping. -/
def due (server : FrameServer setup) (kind : Kind) : Option StopCall :=
  match server.onStopAllMutex with
  | none => none
  | some thread =>
    match server.stoppers thread with
    | .calling rest => rest.lookup kind
    | _ => none

/-- A ring buffer while the callback is on its way through `stop`. -/
def Underway (ring : State FrameData) : Option StopCall → Prop
  | none | some .store => ring.stopping = 0 ∧ ring.notifying = 0
  | some .increment => ring.stopped = true ∧ ring.stopping = 1 ∧ ring.notifying = 0
  | some .notify => ring.stopped = true ∧ ring.stopping = 0 ∧ ring.notifying = 1

/-- `stop` of a ring buffer is not touched. -/
structure Steady (before after : State FrameData) : Prop where
  stopped : after.stopped = before.stopped
  stopping : after.stopping = before.stopping
  notifying : after.notifying = before.notifying

theorem Steady.refl (ring : State FrameData) : Steady ring ring := ⟨rfl, rfl, rfl⟩

theorem Steady.underway {before after : State FrameData} (steady : Steady before after) {call : Option StopCall}
    (underway : Underway before call) : Underway after call := by
  obtain ⟨stopped, stopping, notifying⟩ := steady
  unfold Underway at *
  rw [stopped, stopping, notifying]
  exact underway

theorem Steady.notifyOne (ring : State FrameData) : Steady ring ring.notifyOne := by
  rcases notifyOne_cases ring with same | ⟨call, old, parked, woken⟩
  · rw [same]
    exact .refl ring
  · rw [woken]
    exact ⟨rfl, rfl, rfl⟩

theorem Steady.writer {size : Nat} {point other : ProducerPoint FrameData} {before after : State FrameData}
    (moved : producerStep size { before with producer := point } = some after) :
    Steady before { after with producer := other } := by
  cases point with
  | idle | aborted => cases moved
  | notify =>
    simp only [producerStep, Option.some.injEq] at moved
    subst after
    have steady := Steady.notifyOne { before with producer := .notify }
    exact ⟨steady.stopped, steady.stopping, steady.notifying⟩
  | fullHead | checkHead | checkSlot =>
    simp only [producerStep] at moved
    split at moved
    all_goals
      obtain rfl := Option.some.inj moved
      exact ⟨rfl, rfl, rfl⟩
  | _ =>
    simp only [producerStep, Option.some.injEq] at moved
    subst after
    exact ⟨rfl, rfl, rfl⟩

theorem Steady.reader {size : Nat} {before after : State FrameData} (moved : consumerStep size before = some after) :
    Steady before after := by
  cases point : before.consumer with
  | idle | parked | aborted => simp [consumerStep, point] at moved
  | beginStopped | beginTail | latestTail | latestStopped | copying =>
    simp only [consumerStep, point] at moved
    split at moved
    all_goals
      obtain rfl := Option.some.inj moved
      exact ⟨rfl, rfl, rfl⟩
  | _ =>
    simp only [consumerStep, point, Option.some.injEq] at moved
    subst after
    exact ⟨rfl, rfl, rfl⟩

theorem Steady.wake {size : Nat} {before after : State FrameData} (moved : step size before .wake = some after) :
    Steady before after := by
  obtain ⟨call, old, parked, changed, rfl⟩ := step_wake moved
  exact ⟨rfl, rfl, rfl⟩

theorem Steady.read {size : Nat} {op : ReadOp} {blocking : Bool} {before after : State FrameData}
    (moved : step size before (.read op blocking) = some after) : Steady before after := by
  obtain ⟨idle, rfl⟩ := step_read moved
  exact ⟨rfl, rfl, rfl⟩

theorem steady_update {rings : Kind → State FrameData} {moving : Kind} {ring : State FrameData}
    (steady : Steady (rings moving) ring) (kind : Kind) : Steady (rings kind) (Function.update rings moving ring kind) := by
  revert kind
  apply (Function.forall_update_iff rings fun kind ring => Steady (rings kind) ring).mpr
  exact ⟨steady, fun kind _ => .refl _⟩

/-- What is left of `stop` after a part of it. -/
def afterCall : StopCall → Option StopCall
  | .store => some .increment
  | .increment => some .notify
  | .notify => none

/-- The callback stops one ring buffer after the other. -/
theorem stopCalls_after {kind : Kind} {call : StopCall} {rest : List (Kind × StopCall)}
    (suffix : (kind, call) :: rest <:+ stopCalls) : rest.lookup kind = afterCall call := by
  simp only [stopCalls, List.suffix_cons_iff, List.cons.injEq, Prod.mk.injEq, List.suffix_nil, reduceCtorEq] at suffix
  rcases suffix with h | h | h | h | h | h | h | h | h | h
  all_goals first
    | exact h.elim
    | (obtain ⟨⟨rfl, rfl⟩, rfl⟩ := h; rfl)

theorem stopCalls_lookup (kind : Kind) : stopCalls.lookup kind = some .store := by
  cases kind <;> rfl

theorem Underway.next {size : Nat} {before after : State FrameData} {call : StopCall}
    (underway : Underway before (some call)) (moved : step size before call.event = some after) :
    Underway after (afterCall call) ∧ after.stopped = true := by
  cases call with
  | store =>
    obtain rfl := step_stop moved
    exact ⟨⟨rfl, by simp [underway.1], underway.2⟩, rfl⟩
  | increment =>
    obtain ⟨waiting, rfl⟩ := step_stopIncrement moved
    obtain ⟨stopped, stopping, notifying⟩ := underway
    exact ⟨⟨stopped, by simp [stopping], by simp [notifying]⟩, stopped⟩
  | notify =>
    obtain ⟨waiting, rfl⟩ := step_stopNotify moved
    obtain ⟨stopped, stopping, notifying⟩ := underway
    have steady := Steady.notifyOne before
    exact ⟨⟨steady.stopping.trans stopping, by simp [notifying]⟩, steady.stopped.trans stopped⟩

structure Stopping (server : FrameServer setup) : Prop where
  owner : ∀ thread, server.onStopAllMutex = some thread ↔ InStop (server.stoppers thread)
  flag : ∀ thread, server.stoppers thread ≠ .outside → server.stop = true
  calling : ∀ thread rest, server.stoppers thread = .calling rest →
    rest <:+ stopCalls ∧ (rest ≠ [] → server.onStopAll = true)
  registering : server.main = .registering → server.onStopAll = false
  underway : ∀ kind, Underway (server.rings kind) (due server kind)
  reached : ∀ thread rest kind, server.stoppers thread = .calling rest → server.onStopAll = true →
    rest.lookup kind = none → (server.rings kind).stopped = true
  settled : server.main ≠ .registering → server.onStopAll = true ∨ ∀ kind, (server.rings kind).stopped = true
  late : ∀ thread, Past (server.stoppers thread) → server.onStopAll = true → ∀ kind, Between (server.workers kind)

theorem start_stopping : Stopping ({} : FrameServer setup) where
  owner thread := by simp [InStop]
  flag thread outside := absurd rfl outside
  calling thread rest calling := by cases calling
  registering _ := rfl
  underway kind := ⟨rfl, rfl⟩
  reached thread rest kind calling := by cases calling
  settled main := absurd rfl main
  late thread past := past.elim

/-- A step that has nothing to do with `stop_all`. -/
theorem Stopping.steady {before after : FrameServer setup} (stopping : Stopping before)
    (rings : ∀ kind, Steady (before.rings kind) (after.rings kind)) (mutex : after.onStopAllMutex = before.onStopAllMutex)
    (stoppers : after.stoppers = before.stoppers) (stop : after.stop = before.stop)
    (onStopAll : after.onStopAll = before.onStopAll)
    (main : after.main = .registering ↔ before.main = .registering)
    (workers : before.stop = true → ∀ kind, Between (before.workers kind) → Between (after.workers kind)) :
    Stopping after := by
  have same : due after = due before := by
    funext kind
    unfold due
    rw [mutex, stoppers]
  constructor
  · rw [mutex, stoppers]
    exact stopping.owner
  · rw [stoppers, stop]
    exact stopping.flag
  · rw [stoppers, onStopAll]
    exact stopping.calling
  · rw [main, onStopAll]
    exact stopping.registering
  · intro kind
    rw [same]
    exact (rings kind).underway (stopping.underway kind)
  · rw [stoppers, onStopAll]
    intro thread rest kind calling registered none
    rw [(rings kind).stopped]
    exact stopping.reached thread rest kind calling registered none
  · intro away
    rw [onStopAll]
    apply (stopping.settled (main.not.mp away)).imp id
    intro all kind
    rw [(rings kind).stopped]
    exact all kind
  · rw [stoppers, onStopAll]
    intro thread past registered kind
    have flag : before.stop = true := by
      apply stopping.flag thread
      intro outside
      rw [outside] at past
      exact past
    exact workers flag kind (stopping.late thread past registered kind)

/-- The place of a processing thread, where it alone has moved. -/
theorem between_update {workers : Kind → ProcessingPoint} {moving : Kind} {point : ProcessingPoint}
    (keeps : Between (workers moving) → Between point) (kind : Kind) (between : Between (workers kind)) :
    Between (Function.update workers moving point kind) := by
  revert kind
  apply (Function.forall_update_iff workers fun kind point => Between (workers kind) → Between point).mpr
  exact ⟨keeps, fun kind _ between => between⟩

theorem Stopping.holder {server : FrameServer setup} (stopping : Stopping server) {thread other : Nat}
    (holds : InStop (server.stoppers thread)) (also : InStop (server.stoppers other)) : other = thread :=
  Option.some.inj (((stopping.owner other).mpr also).symm.trans ((stopping.owner thread).mpr holds))

/-- Who holds the mutex after a thread has moved on within it. -/
theorem Stopping.keeps {server : FrameServer setup} (stopping : Stopping server) {thread : Nat} {point : StopPoint}
    (held : InStop (server.stoppers thread)) (inside : InStop point) (other : Nat) :
    server.onStopAllMutex = some other ↔ other = thread ∧ InStop point := by
  rw [(stopping.owner thread).mpr held, Option.some.injEq, and_iff_left inside, eq_comm]

/-- A thread enters `stop_all`, and holds nothing yet. -/
theorem Stopping.stops {before : FrameServer setup} (stopping : Stopping before) {thread : Nat}
    (outside : before.stoppers thread = .outside) :
    Stopping { before with stop := true, stoppers := Function.update before.stoppers thread .locking } := by
  have away : ∀ {other : Nat} {point : StopPoint}, Function.update before.stoppers thread .locking other = point →
      point ≠ .locking → before.stoppers other = point := by
    intro other point same differs
    by_cases here : other = thread
    · subst here
      rw [Function.update_self] at same
      exact absurd same.symm differs
    · rwa [Function.update_of_ne here] at same
  have same : ∀ kind, due { before with stop := true, stoppers := Function.update before.stoppers thread .locking } kind =
      due before kind := by
    intro kind
    unfold due
    dsimp only
    cases mutex : before.onStopAllMutex with
    | none => rfl
    | some holder =>
      have inside := (stopping.owner holder).mp mutex
      have differs : holder ≠ thread := by
        intro here
        rw [here, outside] at inside
        exact inside
      simp only [Function.update_of_ne differs]
  refine ⟨fun other => ?_, fun _ _ => rfl, ?_, stopping.registering, ?_, ?_, stopping.settled, ?_⟩
  · rw [stopping.owner other]
    by_cases here : other = thread
    · subst here
      dsimp only
      rw [outside, Function.update_self]
      exact Iff.rfl
    · dsimp only
      rw [Function.update_of_ne here]
  · exact fun other rest calling => stopping.calling other rest (away calling (by simp))
  · intro kind
    rw [same]
    exact stopping.underway kind
  · exact fun other rest kind calling => stopping.reached other rest kind (away calling (by simp))
  · intro other past
    have moved : before.stoppers other = Function.update before.stoppers thread .locking other := by
      apply away rfl
      intro locking
      dsimp only at past
      rw [locking] at past
      exact past
    exact stopping.late other (by rw [moved]; exact past)

/-- A step of the thread that holds the mutex of `stop_all` or takes it. There is nothing to say of the others, because none
of them is between the lock and the unlock. -/
theorem Stopping.alone {before after : FrameServer setup} (stopping : Stopping before) {thread : Nat} {point : StopPoint}
    (entered : before.stoppers thread ≠ .outside) (alone : ∀ other, InStop (before.stoppers other) → other = thread)
    (stoppers : after.stoppers = Function.update before.stoppers thread point)
    (mutex : ∀ other, after.onStopAllMutex = some other ↔ other = thread ∧ InStop point)
    (stop : after.stop = before.stop) (main : after.main = before.main) (workers : after.workers = before.workers)
    (onStopAll : after.onStopAll = true → before.onStopAll = true)
    (calling : ∀ rest, point = .calling rest → rest <:+ stopCalls ∧ (rest ≠ [] → after.onStopAll = true) ∧
      (after.onStopAll = true → ∀ kind, rest.lookup kind = none → (after.rings kind).stopped = true))
    (underway : ∀ kind, Underway (after.rings kind) (due after kind))
    (settled : after.main ≠ .registering → after.onStopAll = true ∨ ∀ kind, (after.rings kind).stopped = true)
    (late : Past point → after.onStopAll = true → Past (before.stoppers thread)) : Stopping after := by
  have others : ∀ {other rest}, other ≠ thread → after.stoppers other ≠ .calling rest := by
    intro other rest differs called
    rw [stoppers, Function.update_of_ne differs] at called
    exact differs (alone other (by rw [called]; trivial))
  have mine : after.stoppers thread = point := by rw [stoppers, Function.update_self]
  refine ⟨fun other => ?_, fun _ _ => by rw [stop]; exact stopping.flag thread entered, fun other rest called => ?_, ?_,
    underway, fun other rest kind called registered => ?_, settled, fun other past registered kind => ?_⟩
  · rw [mutex]
    by_cases here : other = thread
    · rw [here, mine]
      exact and_iff_right rfl
    · rw [stoppers, Function.update_of_ne here]
      exact ⟨fun same => absurd same.1 here, fun inside => absurd (alone other inside) here⟩
  · by_cases here : other = thread
    · rw [here, mine] at called
      exact ⟨(calling rest called).1, (calling rest called).2.1⟩
    · exact absurd called (others here)
  · intro registering
    rw [Bool.eq_false_iff]
    intro registered
    have unset := stopping.registering (main ▸ registering)
    rw [onStopAll registered] at unset
    cases unset
  · by_cases here : other = thread
    · rw [here, mine] at called
      exact (calling rest called).2.2 registered kind
    · exact absurd called (others here)
  · rw [workers]
    by_cases here : other = thread
    · rw [here, mine] at past
      exact stopping.late thread (late past registered) (onStopAll registered) kind
    · rw [stoppers, Function.update_of_ne here] at past
      exact stopping.late other past (onStopAll registered) kind

/-- The thread that takes the mutex has all calls of the callback before it, if that is still registered. -/
theorem Stopping.takes {before : FrameServer setup} (stopping : Stopping before) {thread : Nat}
    (locking : before.stoppers thread = .locking) (free : before.onStopAllMutex = none) :
    Stopping { before with
      onStopAllMutex := some thread
      stoppers := Function.update before.stoppers thread (.calling (if before.onStopAll then stopCalls else [])) } := by
  refine stopping.alone (by simp [locking]) (fun other inside => ?_) rfl (fun other => ?_) rfl rfl rfl id
    (fun rest same => ?_) (fun kind => ?_) stopping.settled False.elim
  · have holds := (stopping.owner other).mpr inside
    rw [free] at holds
    cases holds
  · exact ⟨fun same => ⟨(Option.some.inj same).symm, trivial⟩, fun same => congrArg some same.1.symm⟩
  · obtain rfl := StopPoint.calling.inj same
    cases registered : before.onStopAll with
    | true =>
      refine ⟨List.suffix_rfl, fun _ => rfl, fun _ kind none => ?_⟩
      rw [if_pos rfl, stopCalls_lookup] at none
      cases none
    | false => exact ⟨List.nil_suffix, fun wrong => absurd rfl wrong, fun wrong => Bool.noConfusion wrong⟩
  · have quiet := stopping.underway kind
    simp only [due, free] at quiet
    simp only [due, Function.update_self]
    split
    · rw [stopCalls_lookup]
      exact quiet
    · exact quiet

/-- The callback is cleared when all its calls are made, or if it has been before. -/
theorem Stopping.clears {before : FrameServer setup} (stopping : Stopping before) {thread : Nat}
    (calling : before.stoppers thread = .calling []) :
    Stopping { before with onStopAll := false, stoppers := Function.update before.stoppers thread .unlocking } := by
  have held : InStop (before.stoppers thread) := by rw [calling]; trivial
  have owner := (stopping.owner thread).mpr held
  refine stopping.alone (by simp [calling]) (fun other => stopping.holder held) rfl (stopping.keeps held trivial) rfl rfl rfl
    (fun wrong => Bool.noConfusion wrong) (fun rest same => StopPoint.noConfusion same) (fun kind => ?_)
    (fun away => .inr fun kind => ?_) (fun _ wrong => Bool.noConfusion wrong)
  · have underway := stopping.underway kind
    simp only [due, owner, calling, List.lookup_nil] at underway
    simp only [due, owner, Function.update_self]
    exact underway
  · rcases stopping.settled away with registered | all
    · exact stopping.reached thread [] kind calling registered rfl
    · exact all kind

/-- A part of `stop` brings its ring buffer on, and leaves the others. -/
theorem Stopping.calls {before : FrameServer setup} (stopping : Stopping before) {thread : Nat} {moving : Kind}
    {call : StopCall} {rest : List (Kind × StopCall)} {ring : State FrameData}
    (calling : before.stoppers thread = .calling ((moving, call) :: rest))
    (moved : step (capacity moving) (before.rings moving) call.event = some ring) :
    Stopping { before with
      rings := Function.update before.rings moving ring
      stoppers := Function.update before.stoppers thread (.calling rest) } := by
  have held : InStop (before.stoppers thread) := by rw [calling]; trivial
  have owner := (stopping.owner thread).mpr held
  obtain ⟨suffix, registered⟩ := stopping.calling thread _ calling
  have underway : Underway (before.rings moving) (some call) := by
    have underway := stopping.underway moving
    simpa only [due, owner, calling, List.lookup_cons_self] using underway
  obtain ⟨next, stopped⟩ := underway.next moved
  have others : ∀ kind, kind ≠ moving → ((moving, call) :: rest).lookup kind = rest.lookup kind := by
    intro kind differs
    rw [List.lookup_cons, beq_false_of_ne differs]
  -- of another ring buffer the state is as it was, and this one has been stopped
  have stays : ∀ kind, (kind ≠ moving → (before.rings kind).stopped = true) →
      (Function.update before.rings moving ring kind).stopped = true := by
    apply (Function.forall_update_iff before.rings fun kind ring =>
      (kind ≠ moving → (before.rings kind).stopped = true) → ring.stopped = true).mpr
    exact ⟨fun _ => stopped, fun kind differs other => other differs⟩
  refine stopping.alone (by simp [calling]) (fun other => stopping.holder held) rfl (stopping.keeps held trivial) rfl rfl rfl
    id (fun left same => ?_) (fun kind => ?_)
    (fun away => (stopping.settled away).imp id fun all kind => stays kind fun _ => all kind) False.elim
  · obtain rfl := StopPoint.calling.inj same
    refine ⟨(List.suffix_cons _ _).trans suffix, fun _ => registered (by simp), fun _ kind none => ?_⟩
    apply stays
    intro differs
    apply stopping.reached thread _ kind calling (registered (by simp))
    rw [others kind differs]
    exact none
  · simp only [due, owner, Function.update_self]
    by_cases here : kind = moving
    · subst here
      rw [Function.update_self, stopCalls_after suffix]
      exact next
    · rw [Function.update_of_ne here, ← others kind here]
      have underway := stopping.underway kind
      simpa only [due, owner, calling] using underway

/-- The thread that gives the mutex back has nothing left to do. -/
theorem Stopping.gives {before : FrameServer setup} (stopping : Stopping before) {thread : Nat}
    (unlocking : before.stoppers thread = .unlocking) :
    Stopping { before with onStopAllMutex := none, stoppers := Function.update before.stoppers thread .returned } := by
  have held : InStop (before.stoppers thread) := by rw [unlocking]; trivial
  have owner := (stopping.owner thread).mpr held
  refine stopping.alone (by simp [unlocking]) (fun other => stopping.holder held) rfl (fun other => ?_) rfl rfl rfl id
    (fun rest same => StopPoint.noConfusion same) (fun kind => ?_) stopping.settled
    (fun _ _ => by rw [unlocking]; trivial)
  · exact ⟨fun wrong => (by cases wrong), fun wrong => wrong.2.elim⟩
  · have underway := stopping.underway kind
    simp only [due, owner, unlocking] at underway
    exact underway

/-- The callback is registered before the threads are started, and while no thread is in `stop_all`. -/
theorem Stopping.registers {before : FrameServer setup} (stopping : Stopping before) (launches : Launches before)
    (registering : before.main = .registering) (free : before.onStopAllMutex = none) :
    Stopping { before with onStopAll := true, main := .starting .color } := by
  have waiting : ∀ kind, before.workers kind = .waiting := by
    intro kind
    apply (launches kind).mpr
    rw [registering]
    rfl
  have nobody : ∀ thread rest, before.stoppers thread ≠ .calling rest := by
    intro thread rest calling
    have holds := (stopping.owner thread).mpr (by rw [calling]; trivial)
    rw [free] at holds
    cases holds
  refine ⟨stopping.owner, stopping.flag, ?_, fun wrong => (by cases wrong), stopping.underway, ?_, fun _ => .inl rfl, ?_⟩
  · exact fun thread rest calling => absurd calling (nobody thread rest)
  · exact fun thread rest kind calling => absurd calling (nobody thread rest)
  · intro thread past registered kind
    dsimp only
    rw [waiting kind]
    trivial

theorem effect_stopping {before after : FrameServer setup} {event : FrameEvent} (launches : Launches before)
    (effect : Effect before event after) (stopping : Stopping before) : Stopping after := by
  have calm : ∀ kind, Steady (before.rings kind) (before.rings kind) := fun kind => .refl _
  cases effect with
  | throws | arrives | locks | unlocks =>
    exact stopping.steady calm rfl rfl rfl rfl Iff.rfl fun _ _ between => between
  | ignores => exact stopping
  | writes thread moving point ring writing moved =>
    exact stopping.steady (steady_update (.writer moved)) rfl rfl rfl rfl Iff.rfl fun _ _ between => between
  | leaves moving reading checking stop =>
    exact stopping.steady calm rfl rfl rfl rfl Iff.rfl fun _ => between_update fun _ => trivial
  | begins moving reading ring checking running moved =>
    refine stopping.steady (steady_update (.read moved)) rfl rfl rfl rfl Iff.rfl ?_
    intro stop
    rw [running] at stop
    cases stop
  | reads moving reading ring inRead moved =>
    refine stopping.steady (steady_update (.reader moved)) rfl rfl rfl rfl Iff.rfl ?_
    intro stop
    apply between_update
    rw [inRead]
    exact False.elim
  | crashes moving reading frameData busy =>
    refine stopping.steady calm rfl rfl rfl rfl Iff.rfl ?_
    intro stop
    apply between_update
    rw [busy]
    exact False.elim
  | processes moving reading frameData encoders busy done =>
    exact stopping.steady calm rfl rfl rfl rfl Iff.rfl fun _ => between_update fun _ => trivial
  | wakes moving ring moved =>
    exact stopping.steady (steady_update (.wake moved)) rfl rfl rfl rfl Iff.rfl fun _ _ between => between
  | registers registering free => exact stopping.registers launches registering free
  | starts moving starting =>
    refine stopping.steady calm rfl rfl rfl rfl ?_ ?_
    · rw [starting]
      cases moving <;> simp [ServerPoint.afterStart]
    · exact fun _ => between_update fun _ => trivial
  | looks looping =>
    refine stopping.steady calm rfl rfl rfl rfl ?_ fun _ _ between => between
    rw [looping]
    dsimp only
    split <;> simp
  | joins moving joining returned =>
    refine stopping.steady calm rfl rfl rfl rfl ?_ fun _ _ between => between
    rw [joining]
    cases moving <;> simp [ServerPoint.afterJoin]
  | stops thread outside => exact stopping.stops outside
  | takes thread locking free => exact stopping.takes locking free
  | clears thread calling => exact stopping.clears calling
  | calls thread moving call rest ring calling moved => exact stopping.calls calling moved
  | gives thread unlocking => exact stopping.gives unlocking

/-! A processing thread returns only when it has been told to. -/

/-- The call that a reader is in. -/
def callOf : ConsumerPoint FrameData → Option Call
  | .idle | .clearTail | .clearStore _ | .aborted => none
  | .sampleCounter call | .loopStopped call _ | .loopHead call _ | .loopTail call _ _ | .wait call _ | .parked call _
  | .resample call | .checkStopped call | .checkHead call | .checkTail call _ | .beginStopped call | .beginHead call
  | .beginTail call _ | .latestHead call | .latestTail call _ | .latestStopped call | .latestLoad call
  | .latestStore call _ | .slotHead call | .copying call _ | .endSlot call _ _ | .endHead call _ | .endTail call _ _
  | .advanceLoad call _ | .advanceStore call _ _ => some call

def Blocks (point : ConsumerPoint FrameData) : Prop := ∀ call, callOf point = some call → call.blocking = true

theorem callOf_beginRead (call : Call) : callOf (beginRead call) = some call := by
  cases op : call.op <;> simp [beginRead, op, callOf]

/-- A read stays the same call until it ends. -/
theorem consumerStep_call {size : Nat} {before after : State FrameData} (inRead : InRead before.consumer)
    (moved : consumerStep size before = some after) :
    callOf after.consumer = none ∨ callOf after.consumer = callOf before.consumer := by
  cases point : before.consumer with
  | idle | parked | aborted => simp [consumerStep, point] at moved
  | latestHead | latestTail | latestStopped | latestLoad | latestStore | clearTail | clearStore =>
    rw [point] at inRead
    exact inRead.elim
  | beginStopped | beginTail | copying =>
    simp only [consumerStep, point] at moved
    split at moved
    all_goals
      obtain rfl := Option.some.inj moved
      first | exact .inl rfl | exact .inr rfl
  | loopStopped | loopTail | wait | endSlot | endTail =>
    simp only [consumerStep, point, Option.some.injEq] at moved
    subst after
    dsimp only
    split
    all_goals first | exact .inl rfl | exact .inr rfl
  | checkStopped call | checkTail call =>
    simp only [consumerStep, point, Option.some.injEq] at moved
    subst after
    dsimp only
    split
    all_goals first | exact .inl rfl | exact .inr (callOf_beginRead call) | exact .inr rfl
  | advanceStore =>
    simp only [consumerStep, point, Option.some.injEq] at moved
    subst after
    exact .inl rfl
  | _ =>
    simp only [consumerStep, point, Option.some.injEq] at moved
    subst after
    exact .inr rfl

/-- A blocking read that gives nothing has found the stop flag set. -/
theorem read_stopped {size : Nat} {before after : State FrameData} (valid : Inv size before)
    (inRead : InRead before.consumer) (blocks : Blocks before.consumer) (moved : consumerStep size before = some after)
    (returned : ProcessingPoint.read after = .returned) : before.stopped = true := by
  have idle : after.consumer = .idle := by
    unfold ProcessingPoint.read at returned
    split at returned
    next idle => exact idle
    next => cases returned
  obtain ⟨result, last, found⟩ := read_result inRead moved idle
  have nothing : result.item = none := by
    rw [read_idle idle last] at returned
    cases item : result.item with
    | none => rfl
    | some frameData => simp [item] at returned
  rcases found nothing with stopped | ⟨call, head, point, none⟩
  · exact stopped
  · have ok := valid.consumer
    rw [point] at ok blocks
    obtain ⟨_, _, full, same⟩ := ok
    rw [same] at none
    exact absurd none (not_empty_of_nonempty valid.indices (full (blocks call rfl)))

def hasJoined : ServerPoint → Kind → Bool
  | .registering, _ | .starting _, _ | .looping, _ | .joining .color, _ => false
  | .joining .motion, kind => kind == .color
  | .joining .depth, kind => kind != .depth
  | .cleanup, _ => true

theorem hasJoined_join (kind other : Kind) :
    hasJoined (.afterJoin kind) other = (other == kind || hasJoined (.joining kind) other) := by
  cases kind <;> cases other <;> rfl

structure Leaving (server : FrameServer setup) : Prop where
  blocks : ∀ kind, Blocks (server.rings kind).consumer
  flag : ∀ kind, (server.rings kind).stopped = true → server.stop = true
  returned : ∀ kind, server.workers kind = .returned → server.stop = true
  joined : ∀ kind, hasJoined server.main kind = true → server.workers kind = .returned

theorem start_leaving : Leaving ({} : FrameServer setup) where
  blocks kind call point := by cases point
  flag kind stopped := by cases stopped
  returned kind returned := by cases returned
  joined kind joins := by cases joins

theorem Undisturbed.blocks {before after : State FrameData} (quiet : Undisturbed before after)
    (blocks : Blocks before.consumer) : Blocks after.consumer := by
  rcases quiet.consumer with same | ⟨call, old, parked, woken⟩
  · rw [same]
    exact blocks
  · rw [parked] at blocks
    rw [woken]
    exact blocks

/-- A step that moves no processing thread. -/
theorem Leaving.undisturbed {before after : FrameServer setup} (leaving : Leaving before)
    (quiet : ∀ kind, Undisturbed (before.rings kind) (after.rings kind))
    (steady : ∀ kind, Steady (before.rings kind) (after.rings kind)) (workers : after.workers = before.workers)
    (main : after.main = before.main) (stop : before.stop = true → after.stop = true) : Leaving after := by
  constructor
  · exact fun kind => (quiet kind).blocks (leaving.blocks kind)
  · intro kind stopped
    rw [(steady kind).stopped] at stopped
    exact stop (leaving.flag kind stopped)
  · intro kind returned
    rw [workers] at returned
    exact stop (leaving.returned kind returned)
  · intro kind joins
    rw [main] at joins
    rw [workers]
    exact leaving.joined kind joins

/-- A processing thread that has not returned goes on. -/
theorem Leaving.moves {before : FrameServer setup} (leaving : Leaving before) (moving : Kind) (point : ProcessingPoint)
    (stays : before.workers moving ≠ .returned) (leaves : point = .returned → before.stop = true) (kind : Kind) :
    (Function.update before.workers moving point kind = .returned → before.stop = true) ∧
      (hasJoined before.main kind = true → Function.update before.workers moving point kind = .returned) := by
  revert kind
  apply (Function.forall_update_iff before.workers fun kind point =>
    (point = .returned → before.stop = true) ∧ (hasJoined before.main kind = true → point = .returned)).mpr
  constructor
  · exact ⟨leaves, fun joins => absurd (leaving.joined moving joins) stays⟩
  · exact fun kind _ => ⟨leaving.returned kind, leaving.joined kind⟩

theorem effect_leaving {before after : FrameServer setup} {event : FrameEvent} (invariant : Invariant before)
    (stopping : Stopping before) (effect : Effect before event after) (leaving : Leaving before) : Leaving after := by
  cases effect with
  | writes thread moving point ring writing moved =>
    exact leaving.undisturbed (undisturbed_update (.writer moved)) (steady_update (.writer moved)) rfl rfl id
  | wakes moving ring moved =>
    exact leaving.undisturbed (undisturbed_update (.wake moved)) (steady_update (.wake moved)) rfl rfl id
  | calls thread moving call rest ring calling moved =>
    have stop := stopping.flag thread (by simp [calling])
    refine ⟨fun kind => ?_, fun _ _ => stop, leaving.returned, leaving.joined⟩
    exact (undisturbed_update (.stop moved) kind).blocks (leaving.blocks kind)
  | leaves moving reading checking stop =>
    have moves := leaving.moves moving .returned (by simp [checking]) (fun _ => stop)
    exact ⟨leaving.blocks, leaving.flag, fun kind => (moves kind).1, fun kind => (moves kind).2⟩
  | begins moving reading ring checking running moved =>
    have moves := leaving.moves moving .reading (by simp [checking]) (fun wrong => by cases wrong)
    have steady := steady_update (Steady.read moved)
    refine ⟨fun kind => ?_, fun kind stopped => leaving.flag kind ((steady kind).stopped ▸ stopped),
      fun kind => (moves kind).1, fun kind => (moves kind).2⟩
    by_cases here : kind = moving
    · subst here
      obtain ⟨idle, rfl⟩ := step_read moved
      intro call point
      simp only [Function.update_self] at point
      obtain rfl := Option.some.inj point
      rfl
    · dsimp only
      rw [Function.update_of_ne here]
      exact leaving.blocks kind
  | reads moving reading ring inRead moved =>
    have steady := steady_update (Steady.reader moved)
    have inside := (invariant.consumes moving).reads inRead
    have stopped : ProcessingPoint.read ring = .returned → before.stop = true := by
      intro returned
      have set := read_stopped (invariant.served.inv moving) inside (leaving.blocks moving) (ringOf_reads moved) returned
      exact leaving.flag moving set
    have moves := leaving.moves moving (.read ring) (by simp [inRead]) stopped
    refine ⟨fun kind => ?_, fun kind stopped => leaving.flag kind ((steady kind).stopped ▸ stopped),
      fun kind => (moves kind).1, fun kind => (moves kind).2⟩
    by_cases here : kind = moving
    · subst here
      dsimp only
      rw [Function.update_self]
      rcases consumerStep_call inside moved with none | same
      · intro call point
        rw [none] at point
        cases point
      · intro call point
        rw [same] at point
        exact leaving.blocks kind call point
    · dsimp only
      rw [Function.update_of_ne here]
      exact leaving.blocks kind
  | crashes moving reading frameData busy =>
    have moves := leaving.moves moving (.crashed frameData) (by simp [busy])
      (fun wrong => by cases wrong)
    exact ⟨leaving.blocks, leaving.flag, fun kind => (moves kind).1, fun kind => (moves kind).2⟩
  | processes moving reading frameData encoders busy done =>
    have moves := leaving.moves moving .checking (by simp [busy]) (fun wrong => by cases wrong)
    exact ⟨leaving.blocks, leaving.flag, fun kind => (moves kind).1, fun kind => (moves kind).2⟩
  | registers registering free =>
    exact ⟨leaving.blocks, leaving.flag, leaving.returned, fun kind joins => by cases joins⟩
  | starts moving starting =>
    have waiting := invariant.launches.starting starting
    have moves := leaving.moves moving .checking (by simp [waiting]) (fun wrong => by cases wrong)
    refine ⟨leaving.blocks, leaving.flag, fun kind => (moves kind).1, fun kind joins => ?_⟩
    cases moving <;> cases joins
  | looks looping =>
    refine ⟨leaving.blocks, leaving.flag, leaving.returned, fun kind joins => ?_⟩
    dsimp only at joins
    split at joins <;> cases joins
  | joins moving joining returned =>
    refine ⟨leaving.blocks, leaving.flag, leaving.returned, fun kind joins => ?_⟩
    dsimp only at joins
    rw [hasJoined_join, Bool.or_eq_true] at joins
    rcases joins with same | earlier
    · rw [eq_of_beq same]
      exact returned
    · exact leaving.joined kind (by rw [joining]; exact earlier)
  | stops thread outside =>
    exact ⟨leaving.blocks, fun _ _ => rfl, fun _ _ => rfl, leaving.joined⟩
  | _ => exact ⟨leaving.blocks, leaving.flag, leaving.returned, leaving.joined⟩

end AxbyCore.Proofs.FrameServer
