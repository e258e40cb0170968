import AxbyCore.Realsense.Messages
import AxbyCore.TimeSync.Ingest
import Mathlib.Logic.Function.Basic

/-! The subscribe thread of time_sync/time_sync.cpp and the lookups of what it received.
A message that fails a CHECK ends the run. -/

namespace AxbyCore.TimeSync
open Pubsub MachineInt

instance : TriviallyCopyable TimeSyncState where
  size := 24
  ofBytes bytes _ := {
    offsetEstimateUs := toInt64 (Realsense.field bytes 0 8)
    observedRoundTripTimeUs := Realsense.field bytes 8 8
    minRoundTripTimeUs := Realsense.field bytes 16 8 }

/-- The frame of `publish_simple`. -/
def simpleTimeSyncState (state : TimeSyncState) : Bytes :=
  Endian.little 8 (toUint64 state.offsetEstimateUs) ++ Endian.little 8 state.observedRoundTripTimeUs ++
    Endian.little 8 state.minRoundTripTimeUs

/-- The globals that the subscribe thread writes: the map, and what concerns its own process. -/
structure SubscribeThread where
  processIdToTimeSyncState : UInt64 → Option TimeSyncState := fun _ => none
  gotFirstSyncMessage : Bool := false
  offsetEstimateUs : Int := 0
  minRoundTripTimeUs : Nat := 2 ^ 64 - 1
  observedRoundTripTimeUs : Nat := 2 ^ 64 - 1

/-- One iteration of `run_subscribe_thread` in a process. -/
def runSubscribeThread (processId : UInt64) (thread : SubscribeThread) (message : Message) : Option SubscribeThread :=
  if message.header.messageVersion ≠ 0 then none
  else do
    let state ← message.getSimple TimeSyncState 0
    let sender := message.header.senderProcessId
    let thread := { thread with
      processIdToTimeSyncState := Function.update thread.processIdToTimeSyncState sender (some state) }
    if sender = processId then
      return { thread with
        offsetEstimateUs := state.offsetEstimateUs
        minRoundTripTimeUs := state.minRoundTripTimeUs
        observedRoundTripTimeUs := state.observedRoundTripTimeUs
        gotFirstSyncMessage := true }
    else
      return thread

/-- The overload of `estimate_time_server_timestamp_us` for a process. -/
def estimateTimeServerTimestampUs (thread : SubscribeThread) (processId processTimeUs : UInt64) : UInt64 :=
  match thread.processIdToTimeSyncState processId with
  | none => 0
  | some state => processTimeUs + UInt64.ofNat (toUint64 state.offsetEstimateUs)

/-- The overload of `estimate_time_server_timestamp_ms`, which passes its time on as it is. -/
def estimateTimeServerTimestampMs (thread : SubscribeThread) (processId processTimeMs : UInt64) : UInt64 :=
  estimateTimeServerTimestampUs thread processId processTimeMs / 1000

end AxbyCore.TimeSync
