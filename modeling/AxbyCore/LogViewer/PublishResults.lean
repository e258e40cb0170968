import AxbyCore.Library.Endian
import AxbyCore.Pubsub.Publisher
import AxbyCore.Pubsub.Recorder
import AxbyCore.Serialization.Decode

/-! `PublishResults` of log_viewer/log_viewer.cpp: rows of the log as DuckDB returns
them, in chunks of columns, become messages again. -/

namespace AxbyCore.LogViewer
open Endian Pubsub Serialization

/-- A vector of a chunk: numbers as they lie in memory, or strings. -/
inductive Column where
  | memory (data : Bytes)
  | strings (data : List Bytes)

def ubigint (values : List Nat) : Column := .memory (values.flatMap (little 8))

def usmallint (values : List Nat) : Column := .memory (values.flatMap (little 2))

structure Chunk where
  numRows : Nat
  columns : List Column

/-- The select list of both queries, over rows of the table. -/
def selectColumns (rows : List LogRow) : Chunk where
  numRows := rows.length
  columns :=
    [ubigint (rows.map (·.header.senderProcessId.toNat)),
      ubigint (rows.map (·.header.senderSequenceId.toNat)),
      ubigint (rows.map (·.header.senderProcessTimeUs.toNat)),
      usmallint (rows.map (·.header.messageVersion.toNat)),
      usmallint (rows.map (·.header.flags.toNat)),
      ubigint (rows.map (·.thisProcessTimeUs)),
      .strings (rows.map (·.frames)),
      .strings (rows.map (·.topic))]

/-- `get_column<uintN_t>(index).row(row)`, with so many bytes to an element. -/
def Chunk.uint (chunk : Chunk) (size index row : Nat) : Option Nat :=
  match chunk.columns[index]? with
  | some (.memory data) =>
    let element := (data.drop (size * row)).take size
    if row < chunk.numRows ∧ element.length = size then some (ofLittle element) else none
  | _ => none

/-- `get_column<duckdb_string_t>(index).row(row)` -/
def Chunk.string (chunk : Chunk) (index row : Nat) : Option Bytes :=
  match chunk.columns[index]? with
  | some (.strings data) => if row < chunk.numRows then data[row]? else none
  | _ => none

/-- `unpack_frames`, which ignores whether the deserializer failed. -/
def unpackFrames (target : Target) (packedFrames : Bytes) : Option (List Bytes) :=
  (deserializeCbor target frameSpans ([] : List Bytes) packedFrames).map fun (_, frames) => frames

def publishRow (target : Target) (chunk : Chunk) (row : Nat) : Option PublisherRequest := do
  let unpackedFrames ← unpackFrames target (← chunk.string 6 row)
  let header : MessageHeader :=
    { senderProcessId := .ofNat (← chunk.uint 8 0 row)
      senderSequenceId := .ofNat (← chunk.uint 8 1 row)
      senderProcessTimeUs := .ofNat (← chunk.uint 2 2 row)
      messageVersion := .ofNat (← chunk.uint 2 3 row)
      flags := .ofNat (← chunk.uint 2 4 row) }
  return publishFramesWithManualHeader (← chunk.string 7 row) header unpackedFrames

def publishChunk (target : Target) (chunk : Chunk) : Option (List PublisherRequest) :=
  (List.range chunk.numRows).mapM (publishRow target chunk)

/-- The requests that `PublishResults` makes; nothing when a CHECK fails. -/
def publishResults (target : Target) : List Chunk → Option (List PublisherRequest)
  | [] => some []
  | chunk :: rest => do
    let requests ← publishChunk target chunk
    return requests ++ (← publishResults target rest)

end AxbyCore.LogViewer
