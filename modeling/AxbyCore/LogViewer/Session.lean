import AxbyCore.LogViewer.Playback
import AxbyCore.LogViewer.Seekbar

/-! A session of the log viewer: frames of the user interface, which move the seekbar of
log_viewer/seekbar.cpp and hand its position on, and iterations of the playback thread. -/

namespace AxbyCore.LogViewer
open MachineInt

/-- What a frame reads of ImGui and of the clock. The slider gives what the user has set it to. -/
structure FrameInput where
  wantCaptureKeyboard : Bool := false
  spacePressed : Bool := false
  rightArrowPressed : Bool := false
  leftArrowPressed : Bool := false
  processTimeMs : Nat
  buttonPressed : Bool := false
  userSeeked : Option Int := none
  deriving DecidableEq

namespace Seekbar

/-- The space bar and the button both toggle playback. -/
def toggle (ctx : Seekbar) : Seekbar := if ctx.playing then ctx.stopPlaying else ctx.startPlaying

def seekJumpMs : Nat := 2000

def jumpForward (ctx : Seekbar) : Seekbar :=
  let laterTimestampMs := min ctx.maxTimestampMs ((toUint64 ctx.currentTimestampMs + seekJumpMs) % 2 ^ 64)
  ctx.jumpPlayingTime (toInt32 laterTimestampMs)

/-- A difference that has wrapped is taken for the start. -/
def jumpBack (ctx : Seekbar) : Seekbar :=
  let earlierTimestampMs := toUint64 (toUint64 ctx.currentTimestampMs - seekJumpMs)
  ctx.jumpPlayingTime (toInt32 (if toUint64 ctx.currentTimestampMs < earlierTimestampMs then 0 else earlierTimestampMs))

def handlePlaybackControl (ctx : Seekbar) (input : FrameInput) : Seekbar :=
  if input.wantCaptureKeyboard then ctx
  else
    let toggled := if input.spacePressed then ctx.toggle else ctx
    let forward := if input.rightArrowPressed then toggled.jumpForward else toggled
    if input.leftArrowPressed then forward.jumpBack else forward

/-- The slider writes the position itself. -/
def makeSeekbar (ctx : Seekbar) (minTimestampMs : Nat) (input : FrameInput) : Seekbar :=
  let shown := if toUint64 ctx.currentTimestampMs < minTimestampMs
    then { ctx with currentTimestampMs := toInt32 minTimestampMs } else ctx
  let pressed := if input.buttonPressed then shown.toggle else shown
  match input.userSeeked with
  | none => pressed
  | some timestampMs => pressed.jumpPlayingTime timestampMs

end Seekbar

/-- The main loop's state, `_playback_timestamp_ms`, and the playback thread. -/
structure Session where
  seekbar : Seekbar
  minTimestampMs : Nat
  haveSerials : Bool
  playbackTimestampMs : Nat
  thread : PlaybackThread

inductive SessionEvent where
  | frame (input : FrameInput)
  | iterate

namespace Session

def initial (minTimestampMs maxTimestampMs : Nat) (haveSerials : Bool) : Session where
  seekbar := { maxTimestampMs }
  minTimestampMs
  haveSerials
  playbackTimestampMs := 0
  thread := ⟨0, []⟩

/-- The seekbar is made only if there is something to show. -/
def frame (session : Session) (input : FrameInput) : Outcome Session := do
  let seekbar ← (session.seekbar.handlePlaybackControl input).updatePlaying input.processTimeMs
  return { session with
    playbackTimestampMs := toUint64 seekbar.currentTimestampMs
    seekbar := if session.haveSerials then seekbar.makeSeekbar session.minTimestampMs input else seekbar }

def act (db : Database) (session : Session) : SessionEvent → Outcome Session
  | .frame input => session.frame input
  | .iterate => return { session with thread := iterate db session.thread session.playbackTimestampMs }

def run (db : Database) (session : Session) (events : List SessionEvent) : Outcome Session :=
  events.foldlM (act db) session

end Session
end AxbyCore.LogViewer
