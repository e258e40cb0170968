import AxbyCore.Library.Binary64
import AxbyCore.Library.MachineInt
import AxbyCore.Library.Transitions

/-! The publish thread of time_sync/time_sync.cpp: every call empties the ingest
buffer into a sliding window, merges the bounds that its round trips place on the
clock offset, and adapts the drift correction. A failed CHECK or a signed overflow
ends the run. -/

namespace AxbyCore.TimeSync
open MachineInt

/-- The triple the receive thread writes: the client's clock on sending, the
server's clock, and the client's clock on receipt. -/
structure TimingTriplet where
  send : Nat
  serv : Nat
  recv : Nat
  deriving DecidableEq, Repr

structure SlidingWindowSample where
  timeMs : Nat
  timingTriplet : TimingTriplet
  deriving DecidableEq, Repr

/-- `durationMs` is `1000 * duration_sec` after its conversion to uint64_t. -/
structure TemporalSlidingWindow where
  durationMs : Nat
  samples : List SlidingWindowSample
  deriving DecidableEq, Repr

def TemporalSlidingWindow.add (window : TemporalSlidingWindow) (timingTriplet : TimingTriplet) (currentTimeMs : Nat) :
    TemporalSlidingWindow :=
  { window with samples := window.samples ++ [⟨currentTimeMs, timingTriplet⟩] }

def TemporalSlidingWindow.getMinTime (window : TemporalSlidingWindow) (currentTimeMs : Nat) : Nat :=
  if window.durationMs < currentTimeMs then currentTimeMs - window.durationMs else 0

def TemporalSlidingWindow.removeOldSamples (window : TemporalSlidingWindow) (currentTimeMs : Nat) :
    TemporalSlidingWindow :=
  { window with
    samples := window.samples.filter fun sample => !decide (sample.timeMs < window.getMinTime currentTimeMs) }

structure IngestContext where
  clockDriftUsPerSec : Nat
  window : TemporalSlidingWindow
  deriving DecidableEq, Repr

structure TimeSyncState where
  offsetEstimateUs : Int
  observedRoundTripTimeUs : Nat
  minRoundTripTimeUs : Nat
  deriving DecidableEq, Repr

/-- What one call reads: the ingest buffer until it is empty, and the two clocks. -/
structure Reading where
  ingest : List TimingTriplet
  currentTimeMs : Nat
  currentTimeUs : Nat
  deriving DecidableEq, Repr

/-- `safe_minus` of app/timing.h. -/
def safeMinus (a b : Nat) : Option Int :=
  if b < a then some (toInt64 (toUint64 (a - b))) else signed (-toInt64 (toUint64 (b - a)))

/-- `d *= 0.9` on a uint64_t: a conversion to double, a product with the double
nearest to 0.9, which is 8106479329266893 / 2^53, and a truncation. -/
def timesNineTenths (drift : Nat) : Nat :=
  Binary64.round (Binary64.round drift * 8106479329266893) / 2 ^ 53

/-- The merged bounds of the loop over the window. -/
structure Bounds where
  offsetUsLb : Int
  offsetUsUb : Int
  observedRoundTripTimeUs : Nat
  deriving DecidableEq, Repr

def Bounds.initial : Bounds := ⟨-2 ^ 63, 2 ^ 63 - 1, 2 ^ 64 - 1⟩

/-- The correction `clock_drift_us_per_sec * dt_us / 1e6` of one sample. The
product is an unsigned one; `quotient` is its truncated quotient by 1e6, which
the source takes in double. -/
def estimatedClockDriftUs (quotient : Nat → Nat) (drift currentTimeUs : Nat) (times : TimingTriplet) : Nat :=
  let dtUs := toUint64 (currentTimeUs - (toUint64 (times.recv + times.send) / 2 : Nat))
  quotient (toUint64 (drift * dtUs))

/-- The quotient by 1e6 where double arithmetic is exact. -/
def exactQuotient (product : Nat) : Nat := product / 10 ^ 6

/-- The body of the loop over the window. -/
def mergeSample (quotient : Nat → Nat) (drift currentTimeUs : Nat) (bounds : Bounds) (sample : SlidingWindowSample) :
    Option Bounds := do
  let times := sample.timingTriplet
  guard (times.send ≤ times.recv)
  guard (times.recv ≤ currentTimeUs)
  let thisUb := toInt64 (toUint64 (times.serv - times.send))
  let thisLb ← safeMinus times.serv times.recv
  guard (thisLb ≤ thisUb)
  let estimated := estimatedClockDriftUs quotient drift currentTimeUs times
  let roundTrip ← signed (thisUb - thisLb)
  return {
    offsetUsLb := max bounds.offsetUsLb (toInt64 (toUint64 (thisLb - estimated)))
    offsetUsUb := min bounds.offsetUsUb (toInt64 (toUint64 (thisUb + estimated)))
    observedRoundTripTimeUs := min bounds.observedRoundTripTimeUs (toUint64 roundTrip) }

def mergeSamples (quotient : Nat → Nat) (drift currentTimeUs : Nat) (samples : List SlidingWindowSample) : Option Bounds :=
  samples.foldlM (mergeSample quotient drift currentTimeUs) Bounds.initial

/-- The window after the ingest buffer has been read. -/
def nextWindow (window : TemporalSlidingWindow) (reading : Reading) : TemporalSlidingWindow :=
  (reading.ingest.foldl (fun window times => window.add times reading.currentTimeMs) window).removeOldSamples
    reading.currentTimeMs

def Bounds.Unset (bounds : Bounds) : Prop := bounds.offsetUsUb = 2 ^ 63 - 1 ∨ bounds.offsetUsLb = -2 ^ 63

instance (bounds : Bounds) : Decidable bounds.Unset := inferInstanceAs (Decidable (_ ∨ _))

/-- The part after the loop: whether the correction was too small or too large. -/
def adapt (ctx : IngestContext) (bounds : Bounds) : Option (IngestContext × Option TimeSyncState) :=
  if bounds.Unset then some (ctx, none)
  else do
    let width ← signed (bounds.offsetUsUb - bounds.offsetUsLb)
    if width ≤ toInt64 (bounds.observedRoundTripTimeUs / 2) then
      some ({ ctx with clockDriftUsPerSec := toUint64 (ctx.clockDriftUsPerSec * 2) }, none)
    else do
      let ctx := if toInt64 bounds.observedRoundTripTimeUs ≤ width then
        { ctx with clockDriftUsPerSec := timesNineTenths ctx.clockDriftUsPerSec } else ctx
      let sum ← signed (bounds.offsetUsUb + bounds.offsetUsLb)
      some (ctx, some ⟨sum.tdiv 2, bounds.observedRoundTripTimeUs, toUint64 width⟩)

def processIngestBuffer (quotient : Nat → Nat) (ctx : IngestContext) (reading : Reading) :
    Option (IngestContext × Option TimeSyncState) := do
  let ctx := { ctx with window := nextWindow ctx.window reading }
  let bounds ← mergeSamples quotient ctx.clockDriftUsPerSec reading.currentTimeUs ctx.window.samples
  adapt ctx bounds

/-- `run_publish_thread`, with the messages it has published. -/
structure PublishThread where
  ctx : IngestContext
  published : List TimeSyncState
  deriving DecidableEq, Repr

def PublishThread.initial (durationMs : Nat) : PublishThread := ⟨⟨40, ⟨durationMs, []⟩⟩, []⟩

def next (quotient : Nat → Nat) (thread : PublishThread) (reading : Reading) : Option PublishThread := do
  let (ctx, message) ← processIngestBuffer quotient thread.ctx reading
  return ⟨ctx, thread.published ++ message.toList⟩

def Step (quotient : Nat → Nat) (before : PublishThread) (reading : Reading) (after : PublishThread) : Prop :=
  next quotient before reading = some after

end AxbyCore.TimeSync
