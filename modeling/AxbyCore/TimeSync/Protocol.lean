import AxbyCore.TimeSync.Ingest
import Mathlib.Algebra.Order.Floor.Ring

/-! The round trips of time_sync/time_sync.cpp through the time server of
time_sync/server.cpp. The send, receive and publish threads of a client, the server
and the network take steps in any order. The network may lose, repeat and reorder
datagrams. The ingest buffer is a queue that refuses what it has no room for. -/

namespace AxbyCore.TimeSync

variable {K : Type} [Field K] [LinearOrder K] [FloorRing K]

/-- `get_process_time_us` at an instant, a clock that ticks in microseconds. -/
def processTimeUs (instant : K) : Nat := ⌊instant⌋₊

def processTimeMs (instant : K) : Nat := processTimeUs instant / 1000

/-- The slots of `IngestBuffer`, one of which is always free. -/
def ingestBufferSize : Nat := 40

/-- What the server sends back: the client's datagram, and its own clock. -/
structure Response where
  startTimeUs : Nat
  serverTimeUs : Nat
  deriving DecidableEq, Repr

/-- Where `run_receive_thread` is: before `recv`, before it reads its clock, before it
writes to the ingest buffer. -/
inductive ReceivePoint where
  | recv
  | stamp (response : Response)
  | write (times : TimingTriplet)
  deriving DecidableEq, Repr

/-- Where `run_publish_thread` is: asleep, reading the ingest buffer since it read the
clock in milliseconds, or past an empty buffer and before it reads the other clock. -/
inductive PublishPoint where
  | asleep
  | draining (currentTimeMs : Nat) (ingest : List TimingTriplet)
  | drained (currentTimeMs : Nat) (ingest : List TimingTriplet)
  deriving DecidableEq, Repr

/-- A published state, with the instant at which the clock was read for it, and the drift
correction and the samples that it was computed from. -/
structure Publication (K : Type) where
  state : TimeSyncState
  instant : K
  clockDriftUsPerSec : Nat
  samples : List SlidingWindowSample

/-- `requests` and `responses` have every datagram that has been sent, and `now` is the
time since the start of the client. -/
structure Protocol (K : Type) where
  now : K
  sending : Option Nat := none
  requests : List Nat := []
  serving : Option Nat := none
  responses : List Response := []
  receive : ReceivePoint := .recv
  ingest : List TimingTriplet := []
  publish : PublishPoint := .asleep
  thread : PublishThread
  publications : List (Publication K) := []
  aborted : Bool := false

def Protocol.initial (durationMs : Nat) : Protocol K := { now := 0, thread := .initial durationMs }

inductive ProtocolEvent (K : Type) where
  | advance (later : K)
  | readSendTime
  | send
  | serve (startTimeUs : Nat)
  | reply
  | recv (response : Response)
  | stamp
  | write
  | wake
  | read
  | compute

/-- The rest of `process_ingest_buffer` once the second clock is read. A failed CHECK or a
signed overflow ends the process. -/
def Protocol.compute (quotient : Nat → Nat) (protocol : Protocol K) (reading : Reading) : Protocol K :=
  match processIngestBuffer quotient protocol.thread.ctx reading with
  | none => { protocol with aborted := true }
  | some (ctx, message) =>
    { protocol with
      publish := .asleep
      thread := ⟨ctx, protocol.thread.published ++ message.toList⟩
      publications := protocol.publications ++ message.toList.map fun state =>
        ⟨state, protocol.now, protocol.thread.ctx.clockDriftUsPerSec, (nextWindow protocol.thread.ctx.window reading).samples⟩ }

/-- `offset` is what the clock of the server is ahead at an instant; the server has started
once its clock is not negative. -/
def Protocol.act (offset : K → K) (quotient : Nat → Nat) (protocol : Protocol K) :
    ProtocolEvent K → Option (Protocol K)
  | .advance later => if protocol.now ≤ later then some { protocol with now := later } else none
  | .readSendTime =>
    if protocol.sending = none then some { protocol with sending := some (processTimeUs protocol.now) } else none
  | .send => protocol.sending.map fun startTimeUs =>
    { protocol with sending := none, requests := protocol.requests ++ [startTimeUs] }
  | .serve startTimeUs =>
    if startTimeUs ∈ protocol.requests ∧ protocol.serving = none then
      some { protocol with serving := some startTimeUs }
    else none
  | .reply =>
    let serverTime := protocol.now + offset protocol.now
    if 0 ≤ serverTime then protocol.serving.map fun startTimeUs =>
      { protocol with
        serving := none
        responses := protocol.responses ++ [⟨startTimeUs, processTimeUs serverTime⟩] }
    else none
  | .recv response =>
    if response ∈ protocol.responses ∧ protocol.receive = .recv then
      some { protocol with receive := .stamp response }
    else none
  | .stamp =>
    match protocol.receive with
    | .stamp response =>
      some { protocol with receive := .write ⟨response.startTimeUs, response.serverTimeUs, processTimeUs protocol.now⟩ }
    | _ => none
  | .write =>
    match protocol.receive with
    | .write times =>
      let ingest := if protocol.ingest.length + 1 < ingestBufferSize then protocol.ingest ++ [times] else protocol.ingest
      some { protocol with receive := .recv, ingest }
    | _ => none
  | .wake =>
    if protocol.publish = .asleep then
      some { protocol with publish := .draining (processTimeMs protocol.now) [] }
    else none
  | .read =>
    match protocol.publish, protocol.ingest with
    | .draining currentTimeMs taken, times :: ingest =>
      some { protocol with publish := .draining currentTimeMs (taken ++ [times]), ingest }
    | .draining currentTimeMs taken, [] => some { protocol with publish := .drained currentTimeMs taken }
    | _, _ => none
  | .compute =>
    match protocol.publish with
    | .drained currentTimeMs taken =>
      some (protocol.compute quotient ⟨taken, currentTimeMs, processTimeUs protocol.now⟩)
    | _ => none

/-- An aborted process takes no more steps. -/
def Protocol.next (offset : K → K) (quotient : Nat → Nat) (protocol : Protocol K) (event : ProtocolEvent K) :
    Option (Protocol K) :=
  if protocol.aborted then none else protocol.act offset quotient event

def ProtocolStep (offset : K → K) (quotient : Nat → Nat) (before : Protocol K) (event : ProtocolEvent K)
    (after : Protocol K) : Prop :=
  before.next offset quotient event = some after

/-- A run from the start of the client. -/
def ProtocolRun (offset : K → K) (quotient : Nat → Nat) (durationMs : Nat) (events : List (ProtocolEvent K))
    (protocol : Protocol K) : Prop :=
  Transitions.Run (ProtocolStep offset quotient) (.initial durationMs) events protocol

end AxbyCore.TimeSync
