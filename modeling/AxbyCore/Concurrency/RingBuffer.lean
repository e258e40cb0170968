import AxbyCore.Library.Transitions
import Mathlib.Algebra.Group.Nat.Defs
import Mathlib.Logic.Function.Basic

/-! The single-producer single-consumer ring buffer of concurrency/ring_buffer.h.
Every load or store of an atomic member is one step, and the copy of an element
is the time a party spends at one program point. Indices stay below twice the
capacity, so the int arithmetic of the source never overflows. -/

namespace AxbyCore.RingBuffer

universe u
variable {T : Type u}

inductive ReadOp where
  | read
  | moveRead
  | readLatest
  deriving DecidableEq, Repr

/-- A read in progress. `afterStop` records whether `stop()` had stored its flag
when the read started; `published` is the number of items published when
`read_latest` loaded the tail. Neither is visible to the code. -/
structure Call where
  op : ReadOp
  blocking : Bool
  afterStop : Bool
  published : Nat := 0
  deriving DecidableEq, Repr

/-- A completed read: its item, and whether the stop flag was set on return. -/
structure ReadResult (T : Type u) where
  call : Call
  item : Option T
  stopped : Bool

/-- Where `write` or `move_write` is; both assign the slot and then end the write. -/
inductive ProducerPoint (T : Type u) where
  | idle
  | fullTail (value : T)
  | fullHead (value : T) (tail : Nat)
  | slot (value : T)
  | assigning (value : T) (slot : Nat)
  | checkTail (value : T) (slot : Nat)
  | checkHead (value : T) (slot tail : Nat)
  | checkSlot (value : T) (slot : Nat)
  | loadTail (value : T)
  | storeTail (value : T) (tail : Nat)
  | increment
  | notify
  | aborted

/-- Where the consumer is in `block_until_stopped_or_nonempty`, in `begin_read`
or `begin_read_latest`, in the copy, in `end_read`, or in `clear`. -/
inductive ConsumerPoint (T : Type u) where
  | idle
  | sampleCounter (call : Call)
  | loopStopped (call : Call) (old : Nat)
  | loopHead (call : Call) (old : Nat)
  | loopTail (call : Call) (old head : Nat)
  | wait (call : Call) (old : Nat)
  | parked (call : Call) (old : Nat)
  | resample (call : Call)
  | checkStopped (call : Call)
  | checkHead (call : Call)
  | checkTail (call : Call) (head : Nat)
  | beginStopped (call : Call)
  | beginHead (call : Call)
  | beginTail (call : Call) (head : Nat)
  | latestHead (call : Call)
  | latestTail (call : Call) (head : Nat)
  | latestStopped (call : Call)
  | latestLoad (call : Call)
  | latestStore (call : Call) (head : Nat)
  | slotHead (call : Call)
  | copying (call : Call) (slot : Nat)
  | endSlot (call : Call) (slot : Nat) (value : T)
  | endHead (call : Call) (value : T)
  | endTail (call : Call) (value : T) (head : Nat)
  | advanceLoad (call : Call) (value : T)
  | advanceStore (call : Call) (value : T) (head : Nat)
  | clearTail
  | clearStore (tail : Nat)
  | aborted

/-- The members of `RingBuffer`, the two parties, and what has happened so far.
A slot is `none` while it holds no whole item: before its first assignment,
during an assignment, and after `move_read` has moved from it. `stopping` and
`notifying` count the `stop()` calls that have not yet bumped the counter and
that have bumped it but not yet notified. -/
structure State (T : Type u) where
  data : Nat → Option T
  head : Nat
  tail : Nat
  stopped : Bool
  updateCounter : Nat
  producer : ProducerPoint T
  consumer : ConsumerPoint T
  stopping : Nat
  notifying : Nat
  written : List T
  popped : Nat
  refusals : List Nat
  results : List (ReadResult T)
  bumps : Nat

def State.initial (T : Type u) : State T where
  data := fun _ => none
  head := 0
  tail := 0
  stopped := false
  updateCounter := 0
  producer := .idle
  consumer := .idle
  stopping := 0
  notifying := 0
  written := []
  popped := 0
  refusals := []
  results := []
  bumps := 0

/-- Items published and not yet passed by the head. -/
def State.held (state : State T) : Nat := state.written.length - state.popped

/-- The items that reads have returned, in the order they were returned. -/
def State.returned (state : State T) : List T := state.results.filterMap ReadResult.item

def full (size tail head : Nat) : Bool := (tail + 1) % size == head

def empty (head tail : Nat) : Bool := head == tail

/-- `num_slots_filled`, whose difference is taken in int. -/
def numSlotsFilled (size : Nat) (state : State T) : Int :=
  let result : Int := (state.tail : Int) - (state.head : Int)
  if result < 0 then result + size else result

/-- A store to the head, with the number of items it passes. -/
def State.storeHead (size : Nat) (state : State T) (head : Nat) : State T :=
  { state with head, popped := state.popped + (head + size - state.head) % size }

@[simp] theorem State.storeHead_written (size : Nat) (state : State T) (head : Nat) :
    (state.storeHead size head).written = state.written := rfl

@[simp] theorem State.storeHead_returned (size : Nat) (state : State T) (head : Nat) :
    (state.storeHead size head).returned = state.returned := rfl

def State.bump (state : State T) : State T :=
  { state with updateCounter := (state.updateCounter + 1) % 2 ^ 64, bumps := state.bumps + 1 }

/-- `notify_one` releases the waiting consumer once the counter differs from
the value it waits on. -/
def State.notifyOne (state : State T) : State T :=
  match state.consumer with
  | .parked call old => if state.updateCounter = old then state else { state with consumer := .resample call }
  | _ => state

/-- The consumer returns from a read. -/
def State.finish (state : State T) (call : Call) (item : Option T) : State T :=
  { state with consumer := .idle, results := state.results ++ [⟨call, item, state.stopped⟩] }

def beginWrite (value : T) : ProducerPoint T := .fullTail value

/-- The next step of `begin_write`, of the assignment, or of `end_write`. -/
def producerStep (size : Nat) (state : State T) : Option (State T) :=
  match state.producer with
  | .idle | .aborted => none
  | .fullTail value => some { state with producer := .fullHead value state.tail }
  | .fullHead value tail =>
    if full size tail state.head then
      some { state with producer := .idle, refusals := state.refusals ++ [state.held] }
    else some { state with producer := .slot value }
  | .slot value =>
    some { state with
      data := Function.update state.data state.tail none
      producer := .assigning value state.tail }
  | .assigning value slot =>
    some { state with
      data := Function.update state.data slot (some value)
      producer := .checkTail value slot }
  | .checkTail value slot => some { state with producer := .checkHead value slot state.tail }
  | .checkHead value slot tail =>
    if full size tail state.head then some { state with producer := .aborted }
    else some { state with producer := .checkSlot value slot }
  | .checkSlot value slot =>
    if state.tail = slot then some { state with producer := .loadTail value }
    else some { state with producer := .aborted }
  | .loadTail value => some { state with producer := .storeTail value ((state.tail + 1) % size) }
  | .storeTail value tail =>
    some { state with tail, written := state.written ++ [value], producer := .increment }
  | .increment => some { state.bump with producer := .notify }
  | .notify => some { state.notifyOne with producer := .idle }

/-- Where a read goes after the optional wait. -/
def beginRead (call : Call) : ConsumerPoint T :=
  match call.op with
  | .read | .moveRead => .beginStopped call
  | .readLatest => .latestHead call

/-- The next step of a read or of `clear`. A parked consumer has none: it is
released by a notification or because the counter has changed. -/
def consumerStep (size : Nat) (state : State T) : Option (State T) :=
  match state.consumer with
  | .idle | .parked _ _ | .aborted => none
  | .sampleCounter call => some { state with consumer := .loopStopped call state.updateCounter }
  | .loopStopped call old =>
    some { state with consumer := if state.stopped then .checkStopped call else .loopHead call old }
  | .loopHead call old => some { state with consumer := .loopTail call old state.head }
  | .loopTail call old head =>
    some { state with consumer := if empty head state.tail then .wait call old else .checkStopped call }
  | .wait call old =>
    some { state with consumer := if state.updateCounter = old then .parked call old else .resample call }
  | .resample call => some { state with consumer := .loopStopped call state.updateCounter }
  | .checkStopped call =>
    some { state with consumer := if state.stopped then beginRead call else .checkHead call }
  | .checkHead call => some { state with consumer := .checkTail call state.head }
  | .checkTail call head =>
    some { state with consumer := if empty head state.tail then .aborted else beginRead call }
  | .beginStopped call =>
    if state.stopped then some (state.finish call none) else some { state with consumer := .beginHead call }
  | .beginHead call => some { state with consumer := .beginTail call state.head }
  | .beginTail call head =>
    if empty head state.tail then some (state.finish call none)
    else some { state with consumer := .slotHead call }
  | .latestHead call => some { state with consumer := .latestTail call state.head }
  | .latestTail call head =>
    if empty head state.tail then some (state.finish call none)
    else some { state with consumer := .latestStopped call }
  | .latestStopped call =>
    if state.stopped then some (state.finish call none) else some { state with consumer := .latestLoad call }
  | .latestLoad call =>
    some { state with
      consumer := .latestStore { call with published := state.written.length } ((state.tail + size - 1) % size) }
  | .latestStore call head => some { state.storeHead size head with consumer := .slotHead call }
  | .slotHead call => some { state with consumer := .copying call state.head }
  | .copying call slot =>
    -- a slot without a whole item is undefined behaviour, so it ends the run like a failed check
    match state.data slot with
    | none => some { state with consumer := .aborted }
    | some value =>
      some { state with
        data := if call.op = .moveRead then Function.update state.data slot none else state.data
        consumer := .endSlot call slot value }
  | .endSlot call slot value =>
    some { state with consumer := if state.head = slot then .endHead call value else .aborted }
  | .endHead call value => some { state with consumer := .endTail call value state.head }
  | .endTail call value head =>
    some { state with consumer := if empty head state.tail then .aborted else .advanceLoad call value }
  | .advanceLoad call value => some { state with consumer := .advanceStore call value ((state.head + 1) % size) }
  | .advanceStore call value head => some ((state.storeHead size head).finish call (some value))
  | .clearTail => some { state with consumer := .clearStore state.tail }
  | .clearStore tail => some { state.storeHead size tail with consumer := .idle }

/-- A party starts an operation or takes its next step; `stop()` may be called
by any thread, at any time and more than once. -/
inductive Event (T : Type u) where
  | write (value : T)
  | producer
  | read (op : ReadOp) (blocking : Bool)
  | clear
  | consumer
  | wake
  | stop
  | stopIncrement
  | stopNotify

def step (size : Nat) (state : State T) : Event T → Option (State T)
  | .write value =>
    match state.producer with
    | .idle => some { state with producer := beginWrite value }
    | _ => none
  | .producer => producerStep size state
  | .read op blocking =>
    match state.consumer with
    | .idle =>
      let call : Call := { op, blocking, afterStop := state.stopped }
      some { state with consumer := if blocking then .sampleCounter call else beginRead call }
    | _ => none
  | .clear =>
    match state.consumer with
    | .idle => some { state with consumer := .clearTail }
    | _ => none
  | .consumer => consumerStep size state
  | .wake =>
    -- a wait may also return on its own, but only once the counter has changed
    match state.consumer with
    | .parked call old =>
      if state.updateCounter = old then none else some { state with consumer := .resample call }
    | _ => none
  | .stop => some { state with stopped := true, stopping := state.stopping + 1 }
  | .stopIncrement =>
    if state.stopping = 0 then none
    else some { state.bump with stopping := state.stopping - 1, notifying := state.notifying + 1 }
  | .stopNotify =>
    if state.notifying = 0 then none
    else some { state.notifyOne with notifying := state.notifying - 1 }

/-- The interleavings of one producer, one consumer and any stopping threads. -/
def Step (size : Nat) (before : State T) (event : Event T) (after : State T) : Prop :=
  step size before event = some after

def Run (size : Nat) (events : List (Event T)) (state : State T) : Prop :=
  Transitions.Run (Step size) (State.initial T) events state

def Reachable (size : Nat) (state : State T) : Prop := ∃ events, Run size events state

end AxbyCore.RingBuffer
