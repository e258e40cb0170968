import AxbyCore.Rgbd.Rgbd
import Mathlib.Data.Rat.Floor

/-! The playing of log_viewer/seekbar.cpp. Floats are rationals; the comparison of an int
with a uint64_t is one of unsigned numbers. -/

namespace AxbyCore.LogViewer
open MachineInt

structure Seekbar where
  maxTimestampMs : Nat := 0
  playbackSpeed : Rat := 1
  autoPlaybackStopMs : Option Int := none
  currentTimestampMs : Int := 0
  playing : Bool := false
  lastPlayTimeMs : Option Int := none
  deriving DecidableEq, Repr

namespace Seekbar

def jumpPlayingTime (ctx : Seekbar) (timeMs : Int) : Seekbar :=
  { ctx with currentTimestampMs := timeMs, lastPlayTimeMs := none }

def startPlaying (ctx : Seekbar) : Seekbar := { ctx with playing := true, lastPlayTimeMs := none }

def stopPlaying (ctx : Seekbar) : Seekbar := { ctx with playing := false, lastPlayTimeMs := none }

/-- The play time advanced by what has elapsed since the last call. -/
def advance (ctx : Seekbar) (currentTimeMs : Nat) : Outcome Int :=
  match ctx.lastPlayTimeMs with
  | none => return ctx.currentTimestampMs
  | some lastPlayTimeMs =>
    let elapsedTimeMs := toUint64 (currentTimeMs - toUint64 lastPlayTimeMs)
    Rgbd.toInt (ctx.currentTimestampMs + elapsedTimeMs * ctx.playbackSpeed)

/-- Playing past the end of the log is prevented. -/
def stopAtEnd (ctx : Seekbar) : Seekbar :=
  if ctx.maxTimestampMs < toUint64 ctx.currentTimestampMs then
    { ctx with currentTimestampMs := toInt32 ctx.maxTimestampMs }.stopPlaying
  else ctx

def autoStop (ctx : Seekbar) : Seekbar :=
  match ctx.autoPlaybackStopMs with
  | none => ctx
  | some stopMs =>
    if stopMs ≤ ctx.currentTimestampMs then
      { { ctx with currentTimestampMs := stopMs }.stopPlaying with autoPlaybackStopMs := none }
    else ctx

def updatePlaying (ctx : Seekbar) (currentTimeMs : Nat) : Outcome Seekbar := do
  if ctx.playing then
    let currentTimestampMs ← ctx.advance currentTimeMs
    return { ctx with
      currentTimestampMs := currentTimestampMs
      lastPlayTimeMs := some (toInt32 currentTimeMs) }.stopAtEnd.autoStop
  else return ctx

end Seekbar
end AxbyCore.LogViewer
