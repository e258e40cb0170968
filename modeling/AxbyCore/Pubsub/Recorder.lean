import AxbyCore.Serialization.Estimate

/-! What app/pubsub.h and app/pubsub_recorder.cpp put through the serializer: a frame
of a message, and the frames of a message that is logged. -/

namespace AxbyCore.Pubsub
open Serialization

/-- `MessageFrames::add_cbor`, which ignores whether the serializer failed. -/
def addCbor (frames : List Bytes) (type : Ty) (item : type.denote) : Option (List Bytes) :=
  (serializeCborVector type item false).map fun (_, serialized) => frames ++ [serialized]

/-- `frame_spans_` -/
abbrev frameSpans : Ty := .vector .byteSpan

/-- What `duckdb_append_varchar_length`, `_uint64`, `_uint16` and `_blob` are given. -/
inductive Cell where
  | varchar (text : Bytes)
  | uint64 (value : UInt64)
  | uint16 (value : UInt16)
  | blob (data : Bytes)

/-- `duckdb_appender_end_row` on the columns of app/create_log_table.sql. -/
def endRow : List Cell → Option LogRow
  | [.varchar topic, .uint64 senderProcessId, .uint64 senderSequenceId, .uint64 senderProcessTimeUs,
      .uint16 protocolVersion, .uint16 messageVersion, .uint16 flags, .uint64 thisProcessTimeUs, .uint64 messageId,
      .blob frames] =>
    let header : MessageHeader :=
      { senderProcessId, senderSequenceId, senderProcessTimeUs, protocolVersion, messageVersion, flags }
    some { topic, header, thisProcessTimeUs := thisProcessTimeUs.toNat, messageId := messageId.toNat, frames }
  | _ => none

/-- A recorder, with the rows that it has appended. -/
structure Recorder where
  messageId : UInt64 := 0
  /-- Whether `serialization_buf_` has memory. -/
  allocated : Bool := false
  rows : List LogRow := []

/-- `Recorder::append`; nothing when the CHECK on the serializer fails. -/
def Recorder.append (recorder : Recorder) (message : Message) (processTimeUs : UInt64) : Option Recorder :=
  let header := message.header
  let cells : List Cell :=
    [.varchar message.topic, .uint64 header.senderProcessId, .uint64 header.senderSequenceId,
      .uint64 header.senderProcessTimeUs, .uint16 header.protocolVersion, .uint16 header.messageVersion,
      .uint16 header.flags, .uint64 processTimeUs, .uint64 recorder.messageId]
  match serializeCborVector frameSpans message.frames recorder.allocated with
  | some (true, serializationBuf) =>
    (endRow (cells ++ [.blob serializationBuf])).map fun row =>
      { messageId := recorder.messageId + 1, allocated := true, rows := recorder.rows ++ [row] }
  | _ => none

/-- A recording of messages, each with the time at which it was appended. -/
def Recorder.appendAll : Recorder → List (Message × UInt64) → Option Recorder
  | recorder, [] => some recorder
  | recorder, (message, processTimeUs) :: rest =>
    match recorder.append message processTimeUs with
    | some recorder => recorder.appendAll rest
    | none => none

end AxbyCore.Pubsub
