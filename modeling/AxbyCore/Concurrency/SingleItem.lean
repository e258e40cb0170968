import AxbyCore.Library.Transitions
import Mathlib.Algebra.Group.Nat.Defs
import Mathlib.Logic.Function.Basic

/-! The latest-value cell of concurrency/single_item.h. Three slots carry the
roles of reader, writer and spare; a write ends and a read begins by exchanging
a role with the spare slot. Every access to a shared member is one step. -/

namespace AxbyCore.SingleItem

universe u
variable {T : Type u}

structure SlotIdxs where
  readHead : Fin 3
  writeHead : Fin 3
  deriving DecidableEq, Repr

def transitionTable : Fin 6 → SlotIdxs
  | 0 => ⟨1, 2⟩
  | 1 => ⟨0, 2⟩
  | 2 => ⟨0, 1⟩
  | 3 => ⟨2, 1⟩
  | 4 => ⟨2, 0⟩
  | 5 => ⟨1, 0⟩

/-- The slot that neither party uses, labelled 0 in the source. -/
def spare : Fin 6 → Fin 3
  | 0 => 0
  | 1 => 1
  | 2 => 2
  | 3 => 0
  | 4 => 1
  | 5 => 2

/-- `desired` in `begin_read_or_finish_write`. -/
def desired (isWrite : Bool) (expected : Fin 6) : Fin 6 :=
  if expected.val % 2 = isWrite.toNat then ⟨(expected.val + 1) % 6, Nat.mod_lt _ (by decide)⟩
  else ⟨(expected.val + 5) % 6, Nat.mod_lt _ (by decide)⟩

inductive WriteOp (T : Type u) where
  | writeFunc (callable : T → T)
  | write (item : T)
  | moveWrite (item : T)
  | swapWrite (item : T)

/-- What the write slot holds after the assignment. -/
def WriteOp.assign : WriteOp T → T → T
  | .writeFunc callable, old => callable old
  | .write item, _ | .moveWrite item, _ | .swapWrite item, _ => item

/-- What `swap_write` leaves in the caller's variable. -/
def WriteOp.leaves : WriteOp T → T → List T
  | .swapWrite _, old => [old]
  | .writeFunc _, _ | .write _, _ | .moveWrite _, _ => []

/-- A write, with what the recycled slot held when it was assigned. -/
structure Write (T : Type u) where
  op : WriteOp T
  old : T

def Write.item (write : Write T) : T := write.op.assign write.old

inductive ReadOp where
  | read
  | swapRead
  deriving DecidableEq, Repr

/-- A read in progress; `item` is the caller's variable. -/
structure Call (T : Type u) where
  op : ReadOp
  blocking : Bool
  item : T

/-- A completed read: what it returned, the caller's variable afterwards, the
number of writes whose role swap preceded the last role swap of a read, and
whether the stop flag was set on return. -/
structure ReadResult (T : Type u) where
  call : Call T
  success : Bool
  item : T
  published : Nat
  stopped : Bool

/-- Where a write is; `load` and `exchange` are in `begin_read_or_finish_write`. -/
inductive WriterPoint (T : Type u) where
  | idle
  | getWriteSlot (op : WriteOp T)
  | assign (op : WriteOp T) (slot : Fin 3)
  | assigning (write : Write T) (slot : Fin 3)
  | setUnread (write : Write T) (slot : Fin 3)
  | load (write : Write T)
  | exchange (write : Write T) (expected : Fin 6)
  | increment
  | notify
  | aborted

/-- Where a read is. The counter sample `old` is there in a blocking read only. -/
inductive ReaderPoint (T : Type u) where
  | idle
  | sampleCounter (call : Call T)
  | loopStopped (call : Call T) (old : Nat)
  | load (call : Call T) (old : Option Nat)
  | exchange (call : Call T) (old : Option Nat) (expected : Fin 6)
  | getReadSlot (call : Call T) (old : Option Nat)
  | loadUnread (call : Call T) (old : Option Nat) (slot : Fin 3)
  | wait (call : Call T) (old : Nat)
  | parked (call : Call T) (old : Nat)
  | resample (call : Call T)
  | itemSlot (call : Call T)
  | copy (call : Call T) (slot : Fin 3)
  | copying (call : Call T) (slot : Fin 3) (item : T)
  | clearUnread (call : Call T) (slot : Fin 3) (item : T)
  | aborted

/-- The members of `SingleItem`, the two parties, and what has happened so far.
A slot is `none` while it is being assigned. `claimed` is the number of writes
swapped in before the reader's last swap, `returned` the number of the last write
that a read returned, and `swapped` what `swap_write` calls handed back. -/
structure State (T : Type u) where
  slots : Fin 3 → Option T
  haveUnread : Fin 3 → Bool
  stateIdx : Fin 6
  stopped : Bool
  updateCounter : Nat
  writer : WriterPoint T
  reader : ReaderPoint T
  stopping : Nat
  notifying : Nat
  written : List (Write T)
  swapped : List T
  claimed : Nat
  returned : Nat
  results : List (ReadResult T)
  bumps : Nat

def State.initial (slots : Fin 3 → T) : State T where
  slots := fun slot => some (slots slot)
  haveUnread := fun _ => false
  stateIdx := 0
  stopped := false
  updateCounter := 0
  writer := .idle
  reader := .idle
  stopping := 0
  notifying := 0
  written := []
  swapped := []
  claimed := 0
  returned := 0
  results := []
  bumps := 0

def State.readSlot (state : State T) : Fin 3 := (transitionTable state.stateIdx).readHead

def State.writeSlot (state : State T) : Fin 3 := (transitionTable state.stateIdx).writeHead

def State.spareSlot (state : State T) : Fin 3 := spare state.stateIdx

def State.bump (state : State T) : State T :=
  { state with updateCounter := (state.updateCounter + 1) % 2 ^ 64, bumps := state.bumps + 1 }

/-- `notify_one` releases the waiting reader once the counter differs from the
value it waits on. -/
def State.notifyOne (state : State T) : State T :=
  match state.reader with
  | .parked call old => if state.updateCounter = old then state else { state with reader := .resample call }
  | _ => state

/-- The read returns false and leaves the caller's variable alone. -/
def State.giveUp (state : State T) (call : Call T) : State T :=
  { state with
    reader := .idle
    results := state.results ++ [⟨call, false, call.item, state.claimed, state.stopped⟩] }

/-- The next step of a write. -/
def writerStep (state : State T) : Option (State T) :=
  match state.writer with
  | .idle | .aborted => none
  | .getWriteSlot op => some { state with writer := .assign op state.writeSlot }
  | .assign op slot =>
    -- a slot that somebody else is assigning is undefined behaviour
    match state.slots slot with
    | none => some { state with writer := .aborted }
    | some old =>
      some { state with
        slots := Function.update state.slots slot none
        writer := .assigning ⟨op, old⟩ slot
        swapped := state.swapped ++ op.leaves old }
  | .assigning write slot =>
    some { state with
      slots := Function.update state.slots slot (some write.item)
      writer := .setUnread write slot }
  | .setUnread write slot =>
    some { state with
      haveUnread := Function.update state.haveUnread slot true
      writer := .load write }
  | .load write => some { state with writer := .exchange write state.stateIdx }
  | .exchange write expected =>
    if state.stateIdx = expected then
      some { state with
        stateIdx := desired true expected
        written := state.written ++ [write]
        writer := .increment }
    else some { state with writer := .exchange write state.stateIdx }
  | .increment => some { state.bump with writer := .notify }
  | .notify => some { state.notifyOne with writer := .idle }

/-- The next step of a read. A parked reader has none: it is released by a
notification or because the counter has changed. -/
def readerStep (state : State T) : Option (State T) :=
  match state.reader with
  | .idle | .parked _ _ | .aborted => none
  | .sampleCounter call => some { state with reader := .loopStopped call state.updateCounter }
  | .loopStopped call old =>
    if state.stopped then some (state.giveUp call) else some { state with reader := .load call (some old) }
  | .load call old => some { state with reader := .exchange call old state.stateIdx }
  | .exchange call old expected =>
    if state.stateIdx = expected then
      some { state with
        stateIdx := desired false expected
        claimed := state.written.length
        reader := .getReadSlot call old }
    else some { state with reader := .exchange call old state.stateIdx }
  | .getReadSlot call old => some { state with reader := .loadUnread call old state.readSlot }
  | .loadUnread call old slot =>
    if state.haveUnread slot then some { state with reader := .itemSlot call }
    else
      match old with
      | none => some (state.giveUp call)
      | some old => some { state with reader := .wait call old }
  | .wait call old =>
    some { state with reader := if state.updateCounter = old then .parked call old else .resample call }
  | .resample call => some { state with reader := .loopStopped call state.updateCounter }
  | .itemSlot call => some { state with reader := .copy call state.readSlot }
  | .copy call slot =>
    match state.slots slot with
    | none => some { state with reader := .aborted }
    | some item =>
      some { state with
        slots := if call.op = .swapRead then Function.update state.slots slot none else state.slots
        reader := .copying call slot item }
  | .copying call slot item =>
    some { state with
      slots := if call.op = .swapRead then Function.update state.slots slot (some call.item) else state.slots
      reader := .clearUnread call slot item }
  | .clearUnread call slot item =>
    some { state with
      haveUnread := Function.update state.haveUnread slot false
      reader := .idle
      returned := state.claimed
      results := state.results ++ [⟨call, true, item, state.claimed, state.stopped⟩] }

/-- A party starts an operation or takes its next step; a weak exchange may also
fail for no reason; `stop()` may be called by any thread and more than once. -/
inductive Event (T : Type u) where
  | write (op : WriteOp T)
  | writer
  | writerFails
  | read (op : ReadOp) (item : T) (blocking : Bool)
  | reader
  | readerFails
  | wake
  | stop
  | stopIncrement
  | stopNotify

def step (state : State T) : Event T → Option (State T)
  | .write op =>
    match state.writer with
    | .idle => some { state with writer := .getWriteSlot op }
    | _ => none
  | .writer => writerStep state
  | .writerFails =>
    match state.writer with
    | .exchange write _ => some { state with writer := .exchange write state.stateIdx }
    | _ => none
  | .read op item blocking =>
    match state.reader with
    | .idle =>
      let call : Call T := { op, blocking, item }
      some { state with reader := if blocking then .sampleCounter call else .load call none }
    | _ => none
  | .reader => readerStep state
  | .readerFails =>
    match state.reader with
    | .exchange call old _ => some { state with reader := .exchange call old state.stateIdx }
    | _ => none
  | .wake =>
    match state.reader with
    | .parked call old =>
      if state.updateCounter = old then none else some { state with reader := .resample call }
    | _ => none
  | .stop => some { state with stopped := true, stopping := state.stopping + 1 }
  | .stopIncrement =>
    if state.stopping = 0 then none
    else some { state.bump with stopping := state.stopping - 1, notifying := state.notifying + 1 }
  | .stopNotify =>
    if state.notifying = 0 then none
    else some { state.notifyOne with notifying := state.notifying - 1 }

/-- The interleavings of one writer, one reader and any stopping threads. -/
def Step (before : State T) (event : Event T) (after : State T) : Prop :=
  step before event = some after

def Run (slots : Fin 3 → T) (events : List (Event T)) (state : State T) : Prop :=
  Transitions.Run Step (State.initial slots) events state

def Reachable (slots : Fin 3 → T) (state : State T) : Prop := ∃ events, Run slots events state

end AxbyCore.SingleItem
