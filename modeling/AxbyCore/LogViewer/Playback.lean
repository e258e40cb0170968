import AxbyCore.Library.Binary64
import AxbyCore.Pubsub.Message

/-! The playback thread of log_viewer/log_viewer.cpp and the log table it reads.
A query filters the table; DuckDB is free in the order of rows that compare equal
and in the order of groups. -/

namespace AxbyCore.LogViewer
open Pubsub

structure Database where
  log : List LogRow
  orderByTime : List LogRow → List LogRow
  groupBy : List Bytes → List Bytes
  ordered : ∀ rows, (orderByTime rows).Perm rows ∧
    (orderByTime rows).Pairwise fun first second => first.thisProcessTimeUs ≤ second.thisProcessTimeUs
  grouped : ∀ topics, (groupBy topics).Nodup ∧ ∀ topic, topic ∈ groupBy topics ↔ topic ∈ topics

/-- `time_ms * 1e3`, taken in double and converted back. -/
def toUs (timeMs : Nat) : Nat := Binary64.round (Binary64.round timeMs * 1000)

/-- `topic LIKE 'realsense/depth/%' OR topic LIKE 'realsense/color/%'` -/
def isVideoTopic (topic : Bytes) : Bool :=
  (ascii "realsense/depth/").isPrefixOf topic || (ascii "realsense/color/").isPrefixOf topic

/-- `MAX(message_id)` -/
def maxMessageId (rows : List LogRow) : Nat := (rows.map (·.messageId)).foldr max 0

/-- The rows that the keyframe query selects before grouping. -/
def keyframeRows (log : List LogRow) (beforeTimeUs : Nat) : List LogRow :=
  log.filter fun row => row.header.flags == 1 && isVideoTopic row.topic &&
    decide (beforeTimeUs < row.thisProcessTimeUs + 2000000) && decide (row.thisProcessTimeUs < beforeTimeUs)

def findKeyframeMessageIds (db : Database) (beforeTimeMs : Nat) : List (Bytes × Nat) :=
  let rows := keyframeRows db.log (toUs beforeTimeMs)
  (db.groupBy (rows.map (·.topic))).map fun topic => (topic, maxMessageId (rows.filter (·.topic == topic)))

/-- The rows from a keyframe up to the new playback time. -/
def catchUpRows (db : Database) (newTimestampMs : Nat) (keyframe : Bytes × Nat) : List LogRow :=
  db.orderByTime (db.log.filter fun row => decide (keyframe.2 ≤ row.messageId) &&
    decide (row.thisProcessTimeUs < toUs newTimestampMs) && row.topic == keyframe.1)

def windowRows (db : Database) (timestampMs newTimestampMs : Nat) : List LogRow :=
  db.orderByTime (db.log.filter fun row => decide (toUs timestampMs < row.thisProcessTimeUs) &&
    decide (row.thisProcessTimeUs ≤ toUs newTimestampMs))

/-- The thread's position, and the rows it has handed to `PublishResults`. -/
structure PlaybackThread where
  playbackTimestampMs : Nat
  published : List LogRow

def needInitialize (timestampMs newTimestampMs : Nat) : Bool :=
  decide (newTimestampMs < timestampMs) || decide ((timestampMs + 1000) % 2 ^ 64 < newTimestampMs)

/-- One iteration of the main loop of `run_playback_thread`. -/
def iterate (db : Database) (thread : PlaybackThread) (newTimestampMs : Nat) : PlaybackThread :=
  if needInitialize thread.playbackTimestampMs newTimestampMs then
    let catchUp := (findKeyframeMessageIds db newTimestampMs).flatMap (catchUpRows db newTimestampMs)
    let timestampMs := (newTimestampMs + 2 ^ 64 - 1) % 2 ^ 64
    { playbackTimestampMs := newTimestampMs
      published := thread.published ++ catchUp ++ windowRows db timestampMs newTimestampMs }
  else
    { playbackTimestampMs := newTimestampMs
      published := thread.published ++ windowRows db thread.playbackTimestampMs newTimestampMs }

end AxbyCore.LogViewer
