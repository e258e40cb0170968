/-! The messages of app/pubsub_message.h and the rows of app/create_log_table.sql.
Topics and frames are byte strings. -/

namespace AxbyCore

abbrev Bytes := List UInt8

/-- The bytes of an ASCII literal. -/
def ascii (text : String) : Bytes := text.toList.map fun char => UInt8.ofNat char.toNat

namespace Pubsub

structure MessageHeader where
  senderProcessId : UInt64 := 0
  senderSequenceId : UInt64 := 0
  senderProcessTimeUs : UInt64 := 0
  protocolVersion : UInt16 := 0
  messageVersion : UInt16 := 0
  flags : UInt16 := 0
  deriving DecidableEq, Repr

structure Message where
  topic : Bytes
  header : MessageHeader
  frames : List Bytes
  deriving DecidableEq, Repr

/-- A row of the table `log`. -/
structure LogRow where
  topic : Bytes
  header : MessageHeader
  thisProcessTimeUs : Nat
  messageId : Nat
  frames : Bytes
  deriving DecidableEq, Repr

end Pubsub
end AxbyCore
