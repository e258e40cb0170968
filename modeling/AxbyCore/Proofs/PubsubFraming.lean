import AxbyCore.Pubsub.Link
import Mathlib.Tactic.Common

/-! Framing of messages. A message with at least one frame ends at its last frame,
so whatever follows it on the wire is left for the next message. -/

namespace AxbyCore.Pubsub.Proofs
open Endian

theorem headerBytes_length (padding : UInt8 × UInt8) (header : MessageHeader) :
    (headerBytes padding header).length = headerSize := by
  simp [headerBytes, headerSize]

private theorem uint64_little (value : UInt64) : UInt64.ofNat (ofLittle (little 8 value.toNat)) = value := by
  rw [ofLittle_little_of_lt (by have := value.toNat_lt; omega), UInt64.ofNat_toNat]

private theorem uint16_little (value : UInt16) : UInt16.ofNat (ofLittle (little 2 value.toNat)) = value := by
  rw [ofLittle_little_of_lt (by have := value.toNat_lt; omega), UInt16.ofNat_toNat]

/-- The subscriber reads back the header that the publisher wrote. -/
theorem readHeader_headerBytes (padding : UInt8 × UInt8) (header : MessageHeader) :
    readHeader (headerBytes padding header) = header := by
  simp [readHeader, headerBytes, List.drop_append, List.drop_eq_nil_of_le, uint64_little, uint16_little]

theorem frameParts_cons (frame : Bytes) (frames : List Bytes) :
    frameParts (frame :: frames) = ⟨frame, !frames.isEmpty⟩ :: frameParts frames := by
  unfold frameParts
  rw [List.mapIdx_cons]
  have last : (0 + 1 != (frame :: frames).length) = !frames.isEmpty := by cases frames <;> simp
  have shift : (fun i frame' => (⟨frame', i + 1 + 1 != (frame :: frames).length⟩ : Part)) =
      fun i frame' => ⟨frame', i + 1 != frames.length⟩ := by
    funext i frame'
    simp [bne]
  rw [last, shift]

theorem receiveFrames_frameParts {frames : List Bytes} (nonempty : frames ≠ []) (rest : List Part) :
    receiveFrames (frameParts frames ++ rest) = some (frames, rest) := by
  induction frames with
  | nil => exact absurd rfl nonempty
  | cons frame frames ih =>
    rw [frameParts_cons]
    cases frames with
    | nil => simp [receiveFrames, frameParts]
    | cons next frames =>
      have tail := ih (by simp)
      simp [receiveFrames, tail]

/-- Receiving takes exactly the parts of one message. -/
theorem receive_messageParts {message : Message} (nonempty : message.frames ≠ []) (padding : UInt8 × UInt8)
    (rest : List Part) : receive (messageParts padding message ++ rest) = some (message, rest) := by
  have frames := receiveFrames_frameParts nonempty rest
  simp [receive, messageParts, frames, headerBytes_length, readHeader_headerBytes, guard]

theorem nextMessage_frameParts {frames : List Bytes} (nonempty : frames ≠ []) (rest : List Part) :
    nextMessage (frameParts frames ++ rest) = some (frameParts frames, rest) := by
  induction frames with
  | nil => exact absurd rfl nonempty
  | cons frame frames ih =>
    rw [frameParts_cons]
    cases frames with
    | nil => simp [nextMessage, frameParts]
    | cons next frames =>
      have tail := ih (by simp)
      simp [nextMessage, tail]

/-- The network hands over exactly the parts of one message. -/
theorem nextMessage_messageParts {message : Message} (nonempty : message.frames ≠ []) (padding : UInt8 × UInt8)
    (rest : List Part) :
    nextMessage (messageParts padding message ++ rest) = some (messageParts padding message, rest) := by
  have frames := nextMessage_frameParts nonempty rest
  simp [nextMessage, messageParts, frames]

/-- The parts are those of the messages, one message after the other. -/
inductive Framed : List Message → List Part → Prop where
  | nil : Framed [] []
  | cons {message messages parts} (padding : UInt8 × UInt8) (whole : message.frames ≠ []) (rest : Framed messages parts) :
    Framed (message :: messages) (messageParts padding message ++ parts)

theorem Framed.append {first second : List Message} {firstParts secondParts : List Part}
    (one : Framed first firstParts) (two : Framed second secondParts) :
    Framed (first ++ second) (firstParts ++ secondParts) := by
  induction one with
  | nil => exact two
  | cons padding whole _ ih =>
    rw [List.append_assoc]
    exact .cons padding whole ih

theorem Framed.single {message : Message} (padding : UInt8 × UInt8) (whole : message.frames ≠ []) :
    Framed [message] (messageParts padding message) := by
  simpa using Framed.cons padding whole .nil

theorem Framed.length_le {messages : List Message} {parts : List Part} (framed : Framed messages parts) :
    messages.length ≤ parts.length := by
  induction framed with
  | nil => exact Nat.le_refl _
  | cons padding whole _ ih =>
    simp only [messageParts, List.length_append, List.length_cons]
    omega

/-- A stream of framed messages is parsed back into them. -/
theorem Framed.receiveAll {messages : List Message} {parts : List Part} (framed : Framed messages parts) {fuel : Nat}
    (enough : messages.length ≤ fuel) : receiveAll fuel parts = some messages := by
  induction framed generalizing fuel with
  | nil => cases fuel <;> rfl
  | @cons message messages parts padding whole rest ih =>
    cases fuel with
    | zero => simp at enough
    | succ fuel =>
      have tail : Pubsub.receiveAll fuel parts = some messages := ih (by simpa using enough)
      have head := receive_messageParts whole padding parts
      rw [Pubsub.receiveAll, head]
      · simp [tail]
      · simp [messageParts]

end AxbyCore.Pubsub.Proofs
