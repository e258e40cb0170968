import AxbyCore.Realsense.Messages
import AxbyCore.Serialization.SmallString

/-! Where a small string may come from, and when it is well formed. A constructor checks
the length; a string received in a struct has whatever length was sent. -/

namespace AxbyCore.Proofs.SmallStrings
open AxbyCore.Serialization Pubsub Endian

/-- How a value came about. -/
inductive Origin : Nat → Type where
  | default {N : Nat} : Origin N
  | string {N : Nat} (str : Bytes) : Origin N
  | copy {N : Nat} (origin : Origin N) : Origin N
  | serialNumber (message : Message) (frameIdx : Nat) : Origin 24
  | deviceName (message : Message) (frameIdx : Nat) : Origin 24

def Origin.value : {N : Nat} → Origin N → Option (SmallString N)
  | _, .default => some .empty
  | _, .string str => SmallString.ofString str
  | _, .copy origin => origin.value
  | _, .serialNumber message frameIdx =>
    (message.getSimple Realsense.StreamMeta frameIdx).map fun streamMeta => streamMeta.id.serialNumber
  | _, .deviceName message frameIdx =>
    (message.getSimple Realsense.StreamMeta frameIdx).map fun streamMeta => streamMeta.deviceName

/-- The invariant of the class. -/
structure WellFormed {N : Nat} (string : SmallString N) : Prop where
  short : string.length.toNat < N
  terminated : string.buffer[string.length.toNat]? = some 0

/-- The frame holds a length below 24 behind the buffer at an offset, and a zero there. -/
def Terminated (frame : Bytes) (offset : Nat) : Prop :=
  Realsense.field frame (offset + 24) 8 < 24 ∧ frame[offset + Realsense.field frame (offset + 24) 8]? = some 0

/-- What a received string was sent as. -/
def Origin.Sound : {N : Nat} → Origin N → Prop
  | _, .default => True
  | _, .string _ => True
  | _, .copy origin => origin.Sound
  | _, .serialNumber message frameIdx => ∀ frame ∈ message.frames[frameIdx]?, Terminated frame 0
  | _, .deviceName message frameIdx => ∀ frame ∈ message.frames[frameIdx]?, Terminated frame 40

section
variable {N : Nat}

theorem empty_wellFormed (positive : 0 < N) : WellFormed (SmallString.empty : SmallString N) := by
  constructor
  · exact positive
  · simp [SmallString.empty, positive]

theorem ofString_eq_some {str : Bytes} {string : SmallString N} (small : N < 2 ^ 64)
    (made : SmallString.ofString str = some string) :
    string.length.toNat = str.length ∧ str.length < N ∧ string.buffer[str.length]? = some 0 ∧
      ∀ i < str.length, string.buffer[i]? = str[i]? := by
  unfold SmallString.ofString SmallString.initFromStringView at made
  split at made
  next fits =>
    cases made
    refine ⟨?_, by omega, ?_, ?_⟩
    · exact UInt64.toNat_ofNat_of_lt' (show str.length < 2 ^ 64 by omega)
    · rw [Vector.getElem?_eq_getElem (show str.length < N by omega)]
      simp
    · intro i inside
      rw [Vector.getElem?_eq_getElem (show i < N by omega), List.getElem?_eq_getElem inside]
      simp [inside]
  next => cases made

theorem ofString_wellFormed {str : Bytes} {string : SmallString N} (small : N < 2 ^ 64)
    (made : SmallString.ofString str = some string) : WellFormed string := by
  obtain ⟨length, fits, terminator, _⟩ := ofString_eq_some small made
  exact ⟨length ▸ fits, length ▸ terminator⟩

theorem WellFormed.str {string : SmallString N} (wellFormed : WellFormed string) :
    string.str = some (string.buffer.toList.take string.length.toNat) :=
  if_pos (Nat.le_of_lt wellFormed.short)

theorem ofString_str {str : Bytes} (small : N < 2 ^ 64) (fits : str.length < N) :
    ∃ string : SmallString N, SmallString.ofString str = some string ∧ string.str = some str := by
  obtain ⟨string, made⟩ : ∃ string : SmallString N, SmallString.ofString str = some string := ⟨_, if_pos fits⟩
  obtain ⟨length, _, _, same⟩ := ofString_eq_some small made
  refine ⟨string, made, ?_⟩
  rw [(ofString_wellFormed small made).str, length]
  congr 1
  apply List.ext_getElem?
  intro i
  rcases Nat.lt_or_ge i str.length with inside | outside
  · rw [List.getElem?_take_of_lt inside, ← same i inside, Vector.getElem?_toList]
  · rw [List.getElem?_eq_none (by simp; omega), List.getElem?_eq_none outside]

end

theorem received_wellFormed {frame : Bytes} {offset : Nat} (inside : offset + 32 ≤ frame.length) :
    WellFormed (Realsense.readSmallString frame offset inside) ↔ Terminated frame offset := by
  have bounded := ofLittle_lt ((frame.drop (offset + 24)).take 8)
  have width : ((frame.drop (offset + 24)).take 8).length = 8 := by simp; omega
  rw [width] at bounded
  have length : (UInt64.ofNat (Realsense.field frame (offset + 24) 8)).toNat = Realsense.field frame (offset + 24) 8 :=
    UInt64.toNat_ofNat_of_lt' (show _ < 2 ^ 64 from bounded)
  have buffer (i : Nat) (small : i < 24) :
      (Realsense.readSmallString frame offset inside).buffer[i]? = frame[offset + i]? := by
    rw [← Vector.getElem?_toList]
    simp only [Realsense.readSmallString]
    rw [Vector.toList_mk, List.toList_toArray, List.getElem?_take_of_lt small, List.getElem?_drop]
  constructor
  · rintro ⟨short, terminated⟩
    simp only [Realsense.readSmallString, length] at short
    refine ⟨short, ?_⟩
    rw [← buffer _ short, ← length]
    exact terminated
  · rintro ⟨short, terminated⟩
    constructor
    · simp only [Realsense.readSmallString, length]
      exact short
    · rw [show (Realsense.readSmallString frame offset inside).length.toNat = Realsense.field frame (offset + 24) 8 from length,
        buffer _ short, terminated]

theorem member_wellFormed {message : Message} {frameIdx offset : Nat} {string : SmallString 24}
    {member : Realsense.StreamMeta → SmallString 24} (within : offset + 32 ≤ Realsense.streamMetaSize)
    (layout : ∀ frame (size : frame.length = Realsense.streamMetaSize),
      member (Realsense.readStreamMeta frame size) =
        Realsense.readSmallString frame offset (Nat.le_trans within (Nat.le_of_eq size.symm)))
    (value : (message.getSimple Realsense.StreamMeta frameIdx).map member = some string) :
    WellFormed string ↔ ∀ frame ∈ message.frames[frameIdx]?, Terminated frame offset := by
  obtain ⟨streamMeta, read, rfl⟩ := Option.map_eq_some_iff.mp value
  unfold Message.getSimple at read
  split at read
  next => cases read
  next frame held =>
    split at read
    next size =>
      cases read
      have fits : offset + 32 ≤ frame.length := Nat.le_trans within (Nat.le_of_eq size.symm)
      have same := received_wellFormed fits
      rw [held]
      simp only [Option.mem_some_iff, forall_eq']
      rw [← same]
      exact iff_of_eq (congrArg WellFormed (layout frame size))
    next => cases read

theorem origin_wellFormed {N : Nat} (positive : 0 < N) (small : N < 2 ^ 64) {origin : Origin N} {string : SmallString N}
    (value : origin.value = some string) : WellFormed string ↔ origin.Sound := by
  induction origin with
  | default =>
    cases value
    exact iff_of_true (empty_wellFormed positive) trivial
  | string str => exact iff_of_true (ofString_wellFormed small value) trivial
  | copy origin ih => exact ih positive small value
  | serialNumber message frameIdx => exact member_wellFormed (by decide) (fun _ _ => rfl) value
  | deviceName message frameIdx => exact member_wellFormed (by decide) (fun _ _ => rfl) value

/-- What fits is kept, and a value is well formed and read inside its buffer exactly if it was
made in the process or sent as a terminated string. -/
theorem smallString_invariant {N : Nat} (positive : 0 < N) (small : N < 2 ^ 64) :
    (∀ str : Bytes, str.length < N →
      ∃ string : SmallString N, SmallString.ofString str = some string ∧ string.str = some str) ∧
    ∀ (origin : Origin N) (string : SmallString N), origin.value = some string →
      (WellFormed string ∧ string.str.isSome ↔ origin.Sound) := by
  refine ⟨fun str fits => ofString_str small fits, ?_⟩
  intro origin string value
  rw [← origin_wellFormed positive small value]
  constructor
  · exact fun both => both.1
  · intro wellFormed
    exact ⟨wellFormed, by rw [wellFormed.str]; rfl⟩

theorem smallString_invariant_two : ∃ string : SmallString 2, SmallString.ofString [65] = some string ∧ string.str = some [65] :=
  (smallString_invariant (by decide) (by decide)).1 [65] (by decide)

/-- A struct whose bytes are all 255, as another process may send it. -/
def onesMessage : Message where
  topic := ascii "realsense/depth/"
  header := {}
  frames := [List.replicate 168 255]

/-- Its serial number claims a length of 2^64 - 1, and reading it leaves the buffer. -/
theorem received_length_unchecked : ∃ string, (Origin.serialNumber onesMessage 0).value = some string ∧
    ¬ WellFormed string ∧ string.str = none := by
  have ones : onesMessage.getSimple Realsense.StreamMeta 0 =
      some (Realsense.readStreamMeta (List.replicate 168 255) List.length_replicate) := by
    simp only [Message.getSimple, onesMessage, List.getElem?_cons_zero, List.length_replicate]
    exact dif_pos rfl
  refine ⟨_, congrArg (Option.map _) ones, ?_, ?_⟩
  · rintro ⟨short, _⟩
    revert short
    decide +kernel
  · decide +kernel

end AxbyCore.Proofs.SmallStrings
