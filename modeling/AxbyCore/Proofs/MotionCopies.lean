import AxbyCore.Realsense.Motion

/-! The copies of a motion message into vectors. The sizes of the vectors are quotients
rounded down, and the copies take every byte of the frames. -/

namespace AxbyCore.Proofs.MotionCopies
open AxbyCore.Realsense Pubsub

theorem motionCopies_cases {message : Message} {copies : MotionCopies} (passed : motionCopies message = some copies) :
    ∃ timestampsUsBytes xyzBytes, message.frames[2]? = some timestampsUsBytes ∧ message.frames[3]? = some xyzBytes ∧
      timestampsUsBytes.length / 8 = xyzBytes.length / 12 ∧
      copies = ⟨⟨8, timestampsUsBytes.length / 8, timestampsUsBytes.length⟩,
        ⟨4, 3 * (xyzBytes.length / 12), xyzBytes.length⟩⟩ := by
  unfold motionCopies at passed
  split at passed
  · cases passed
  · obtain ⟨sequenceId, _, passed⟩ := Option.bind_eq_some_iff.mp passed
    obtain ⟨streamMeta, _, passed⟩ := Option.bind_eq_some_iff.mp passed
    obtain ⟨timestampsUsBytes, timestamps, passed⟩ := Option.bind_eq_some_iff.mp passed
    obtain ⟨xyzBytes, xyzs, passed⟩ := Option.bind_eq_some_iff.mp passed
    dsimp only at passed
    split at passed
    · cases passed
    · next same =>
      cases passed
      exact ⟨timestampsUsBytes, xyzBytes, timestamps, xyzs, not_not.mp same, rfl⟩

/-- A serial number that ends within its buffer. -/
def serialReadable (message : Message) : Bool :=
  (message.getSimple StreamMeta 1).any fun streamMeta => streamMeta.id.serialNumber.str.isSome

/-- The thread takes exactly the messages that it copies from, of sensors whose serial number it can read. -/
theorem runMotionThread_copies (thread : MotionThread) (message : Message) :
    (runMotionThread thread message).isSome = (serialReadable message && (motionCopies message).isSome) := by
  unfold runMotionThread motionCopies serialReadable
  split
  · simp
  · cases message.getSimple UInt64 0 with
    | none => simp
    | some sequenceId =>
      cases message.getSimple StreamMeta 1 with
      | none => simp
      | some streamMeta =>
        cases message.frames[2]? with
        | none => simp
        | some timestampsUsBytes =>
          cases message.frames[3]? with
          | none => simp
          | some xyzBytes =>
            simp only [Option.bind_eq_bind, Option.bind_some, Option.any_some]
            cases streamMeta.id.serialNumber.str with
            | none => rfl
            | some serial =>
              simp only [Option.bind_some, Option.isSome_some, Bool.true_and]
              split
              · rfl
              · rfl

/-- Frames of whole samples. -/
def WholeSamples (message : Message) : Prop :=
  ∀ timestampsUsBytes ∈ message.frames[2]?, ∀ xyzBytes ∈ message.frames[3]?,
    8 ∣ timestampsUsBytes.length ∧ 12 ∣ xyzBytes.length

theorem frames_whole {message : Message} {timestampsUsBytes xyzBytes : Bytes}
    (timestamps : message.frames[2]? = some timestampsUsBytes) (xyzs : message.frames[3]? = some xyzBytes) :
    WholeSamples message ↔ 8 ∣ timestampsUsBytes.length ∧ 12 ∣ xyzBytes.length := by
  unfold WholeSamples
  rw [timestamps, xyzs]
  simp

/-- A copy of a message that passes the CHECKs covers its vector, and what remains of an
unfinished sample is written behind it. -/
theorem copies_overrun {message : Message} {copies : MotionCopies} (passed : motionCopies message = some copies) :
    copies.timestampsUs.copied = 8 * copies.timestampsUs.size + copies.timestampsUs.overrun ∧
      copies.timestampsUs.overrun < 8 ∧
      copies.xyzs.copied = 4 * copies.xyzs.size + copies.xyzs.overrun ∧ copies.xyzs.overrun < 12 := by
  obtain ⟨timestampsUsBytes, xyzBytes, _, _, _, rfl⟩ := motionCopies_cases passed
  simp only [VectorCopy.overrun]
  omega

/-- The copies stay inside the vectors exactly for frames of whole samples. -/
theorem copies_exact {message : Message} {copies : MotionCopies} (passed : motionCopies message = some copies) :
    (copies.timestampsUs.copied = 8 * copies.timestampsUs.size ∧ copies.xyzs.copied = 4 * copies.xyzs.size) ↔
      WholeSamples message := by
  obtain ⟨timestampsUsBytes, xyzBytes, timestamps, xyzs, _, rfl⟩ := motionCopies_cases passed
  rw [frames_whole timestamps xyzs]
  simp only
  omega

/-- A message of one sample with so many bytes more behind its timestamp. -/
def oneSample (more : Nat) : Message where
  topic := ascii "realsense/accel/"
  header := {}
  frames := [List.replicate 8 0, List.replicate 168 0, List.replicate (8 + more) 0, List.replicate 12 0]

theorem copies_exact_one : WholeSamples (oneSample 0) := by
  have passed : motionCopies (oneSample 0) = some ⟨⟨8, 1, 8⟩, ⟨4, 3, 12⟩⟩ := by decide +kernel
  exact (copies_exact passed).mp (by decide)

/-- Nine bytes are copied into a vector of eight. -/
theorem timestamps_overrun : ∃ copies, motionCopies (oneSample 1) = some copies ∧
    ¬ (copies.timestampsUs.copied = 8 * copies.timestampsUs.size ∧ copies.xyzs.copied = 4 * copies.xyzs.size) :=
  ⟨⟨⟨8, 1, 9⟩, ⟨4, 3, 12⟩⟩, by decide +kernel, by decide⟩

end AxbyCore.Proofs.MotionCopies
