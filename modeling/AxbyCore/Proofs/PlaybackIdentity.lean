import AxbyCore.LogViewer.PublishResults
import AxbyCore.Proofs.VectorSerializer
import Mathlib.Data.List.Forall2

/-! What becomes of a recorded message when its row is played back. -/

namespace AxbyCore.LogViewer.Proofs
open Endian Pubsub Serialization Serialization.Proofs Tinycbor Tinycbor.Proofs Rfc8949

section
variable {target : Target} {frames : List Bytes}

/-- The frames that come out of the blob. A list that is too long for the parser is
resized, and its spans stay empty. -/
def unpacked (frames : List Bytes) : List Bytes :=
  if frames.length < uint32Max then frames else List.replicate frames.length []

theorem unpackFrames_encoding (empty : target.fresh .byteSpan = ([] : Bytes)) (fits : Fits (2 ^ 63) frameSpans frames) :
    unpackFrames target (encoding frameSpans frames) = some (unpacked frames) := by
  have limits : frames.length < 2 ^ 63 ∧ ∀ frame ∈ frames, frame.length < 2 ^ 64 := fits
  by_cases short : frames.length < uint32Max
  · have fewer : Fits uint32Max frameSpans frames := ⟨short, limits.2⟩
    have back := deserializeCbor_encoding target rfl rfl frameSpans_legal (by decide) fewer [] ([] : List Bytes)
    rw [List.append_nil] at back
    rw [unpackFrames, back, unpacked, if_pos short]
    rfl
  · have isHead : Head 4 frames.length (head 4 frames.length) := head_isHead 4 (by omega)
    obtain ⟨val, parsed, -, at_⟩ : ∃ val, cborParserInit (encoding frameSpans frames) = .ok val ∧ SamePlace _ val ∧
        AtHead 4 frames.length (head 4 frames.length).length val :=
      preparse_head isHead (by decide) rfl
    have resized : resizeTo (target.fresh .byteSpan) frames.length ([] : List Bytes) = List.replicate frames.length [] :=
      (resizeTo_nil ..).trans (congrArg _ empty)
    have failed : decode target frameSpans val ([] : List Bytes) =
        some (.dataTooLarge, resizeTo (target.fresh .byteSpan) frames.length ([] : List Bytes)) :=
      decodeRange_tooLarge at_ (Nat.le_of_not_lt short) (resizeTo_length ..)
    have whole := @deserializeCbor_parsed frameSpans target ([] : List Bytes) _ val parsed
    rw [failed, resized] at whole
    rw [unpackFrames, whole, unpacked, if_neg short]
    rfl

end

/-- The row that `append` stores for a message. -/
def StoredAs (message : Message) (row : LogRow) : Prop :=
  ∃ recorder processTimeUs after, Recorder.append recorder message processTimeUs = some after ∧
    after.rows = recorder.rows ++ [row]

theorem append_row {recorder after : Recorder} {message : Message} {processTimeUs : UInt64}
    (appended : recorder.append message processTimeUs = some after) :
    ∃ row, after.rows = recorder.rows ++ [row] ∧ StoredAs message row := by
  have whole := appended
  unfold Recorder.append at appended
  dsimp only at appended
  split at appended
  · obtain ⟨row, -, rfl⟩ := Option.map_eq_some_iff.mp appended
    exact ⟨row, rfl, recorder, processTimeUs, _, whole, rfl⟩
  · cases appended

/-- Every row of a recording is stored for one of its messages. -/
theorem appendAll_rows {messages : List (Message × UInt64)} {recorder after : Recorder}
    (recorded : recorder.appendAll messages = some after) :
    ∀ row ∈ after.rows, row ∈ recorder.rows ∨ ∃ message ∈ messages, StoredAs message.1 row := by
  induction messages generalizing recorder with
  | nil =>
    obtain rfl := Option.some.inj recorded
    exact fun row member => Or.inl member
  | cons first rest ih =>
    intro row member
    cases appended : recorder.append first.1 first.2 with
    | none => simp [Recorder.appendAll, appended] at recorded
    | some next =>
      obtain ⟨added, rows, stored⟩ := append_row appended
      have others : next.appendAll rest = some after := by simpa [Recorder.appendAll, appended] using recorded
      rcases ih others row member with earlier | ⟨message, later, storedLater⟩
      · rw [rows, List.mem_append, List.mem_singleton] at earlier
        rcases earlier with before | rfl
        · exact Or.inl before
        · exact Or.inr ⟨first, List.mem_cons_self, stored⟩
      · exact Or.inr ⟨message, List.mem_cons_of_mem _ later, storedLater⟩

/-- A stored row has the message's topic and header and the encoding of its frames, which
are not all empty. -/
theorem StoredAs.fields {message : Message} {row : LogRow} (stored : StoredAs message row)
    (fits : Fits (2 ^ 63) frameSpans message.frames) :
    row.topic = message.topic ∧ row.header = message.header ∧ row.frames = encoding frameSpans message.frames ∧
      Roomy frameSpans message.frames := by
  obtain ⟨recorder, processTimeUs, after, appended, rows⟩ := stored
  have roomy := (append_iff recorder processTimeUs fits).mp (by rw [appended]; rfl)
  have same := append_eq recorder processTimeUs fits roomy
  rw [appended] at same
  obtain rfl := Option.some.inj same
  obtain rfl : _ = row := by simpa using rows
  exact ⟨rfl, rfl, rfl, roomy⟩

theorem payload_frameSpans (frames : List Bytes) : payload frameSpans frames = (frames.map List.length).sum := rfl

/-- The recorder's CHECK fails on frames that are all empty. -/
theorem replicate_not_roomy (count : Nat) : ¬ Roomy frameSpans (List.replicate count ([] : Bytes)) := by
  intro roomy
  have none : payload frameSpans (List.replicate count ([] : Bytes)) = 0 :=
    (payload_frameSpans (List.replicate count [])).trans (by simp)
  have zero : room frameSpans (List.replicate count ([] : Bytes)) = 0 :=
    congrArg (fun size => oneAndAHalf (size % 2 ^ 64)) none
  have nonempty := encoding_pos frameSpans rfl (List.replicate count ([] : Bytes))
  have enough := ((roomy_iff frameSpans (List.replicate count ([] : Bytes))).mp roomy).1
  omega

theorem unpacked_eq_iff {frames : List Bytes} (roomy : Roomy frameSpans frames) :
    unpacked frames = frames ↔ frames.length < uint32Max := by
  unfold unpacked
  by_cases short : frames.length < uint32Max
  · simp [short]
  · rw [if_neg short]
    constructor
    · intro same
      rw [← same] at roomy
      exact absurd roomy (replicate_not_roomy _)
    · intro short'
      exact absurd short' short

section
variable {rows : List LogRow} {row : Nat} {logRow : LogRow}

/-- What `get_column<uint16_t>` makes of the times, which are of 64 bits. -/
def timeLane (rows : List LogRow) (row : Nat) : Nat :=
  ((rows[row / 4]?.map (·.header.senderProcessTimeUs.toNat)).getD 0) / 2 ^ (16 * (row % 4)) % 2 ^ 16

theorem uint_element {chunk : Chunk} {values : List Nat} {size count index quotient offset value : Nat}
    (column : chunk.columns[index]? = some (.memory (values.flatMap (little count)))) (inside : row < chunk.numRows)
    (place : size * row = count * quotient + offset) (within : offset + size ≤ count)
    (element : values[quotient]? = some value) :
    chunk.uint size index row = some (value / 256 ^ offset % 256 ^ size) := by
  rw [Chunk.uint, column]
  dsimp only
  rw [place, array_element element within, ofLittle_little, little_length, if_pos ⟨inside, rfl⟩]

/-- An element of the column's own size. -/
theorem uint_own {chunk : Chunk} {values : List Nat} {size index value : Nat}
    (column : chunk.columns[index]? = some (.memory (values.flatMap (little size)))) (inside : row < chunk.numRows)
    (element : values[row]? = some value) (small : value < 256 ^ size) : chunk.uint size index row = some value := by
  rw [uint_element column inside (Nat.add_zero _).symm (by omega) element, Nat.pow_zero, Nat.div_one, Nat.mod_eq_of_lt small]

/-- The times are read in lanes of 16 bits, and the protocol version is not read. -/
theorem publishRow_eq {target : Target} {frames : List Bytes} (at_ : rows[row]? = some logRow)
    (unpacks : unpackFrames target logRow.frames = some frames) :
    publishRow target (selectColumns rows) row = some (publishFramesWithManualHeader logRow.topic
      { logRow.header with senderProcessTimeUs := .ofNat (timeLane rows row), protocolVersion := 0 } frames) := by
  obtain ⟨inside, same⟩ := List.getElem?_eq_some_iff.mp at_
  have taken {α : Type} (field : LogRow → α) : (rows.map field)[row]? = some (field logRow) := by
    rw [List.getElem?_map, at_]
    rfl
  have processId : (selectColumns rows).uint 8 0 row = some logRow.header.senderProcessId.toNat :=
    uint_own rfl inside (taken _) logRow.header.senderProcessId.toNat_lt
  have sequenceId : (selectColumns rows).uint 8 1 row = some logRow.header.senderSequenceId.toNat :=
    uint_own rfl inside (taken _) logRow.header.senderSequenceId.toNat_lt
  have version : (selectColumns rows).uint 2 3 row = some logRow.header.messageVersion.toNat :=
    uint_own rfl inside (taken _) logRow.header.messageVersion.toNat_lt
  have flags : (selectColumns rows).uint 2 4 row = some logRow.header.flags.toNat :=
    uint_own rfl inside (taken _) logRow.header.flags.toNat_lt
  -- four lanes to a time
  have quarter : row / 4 < rows.length := by
    have : row < rows.length := inside
    omega
  have element : (rows.map (·.header.senderProcessTimeUs.toNat))[row / 4]? =
      some rows[row / 4].header.senderProcessTimeUs.toNat := by
    rw [List.getElem?_map, List.getElem?_eq_getElem quarter]
    rfl
  have lane : (selectColumns rows).uint 2 2 row = some (timeLane rows row) := by
    have read : (selectColumns rows).uint 2 2 row =
        some (rows[row / 4].header.senderProcessTimeUs.toNat / 256 ^ (2 * (row % 4)) % 256 ^ 2) :=
      uint_element rfl inside (by omega) (by omega) element
    rw [read, timeLane, List.getElem?_eq_getElem quarter, Nat.pow_mul]
    have powers : (2 : Nat) ^ (16 * (row % 4)) = (256 ^ 2) ^ (row % 4) := Nat.pow_mul ..
    rw [powers]
    rfl
  have frames : (selectColumns rows).string 6 row = some logRow.frames := (if_pos inside).trans (taken _)
  have topic : (selectColumns rows).string 7 row = some logRow.topic := (if_pos inside).trans (taken _)
  simp only [publishRow, frames, unpacks, processId, sequenceId, lane, version, flags, topic, Option.bind_eq_bind,
    Option.bind_some, UInt64.ofNat_toNat, UInt16.ofNat_toNat]
  rfl

end

/-- What playing a message back should publish. -/
def republished (message : Message) : PublisherRequest :=
  publishFramesWithManualHeader message.topic message.header message.frames

/-- The row's lane of the times happens to hold its own time, the message has the version
that is published, and its frames are not too many for the parser. -/
def Intact (rows : List LogRow) (row : Nat) (message : Message) : Prop :=
  timeLane rows row = message.header.senderProcessTimeUs.toNat ∧ message.header.protocolVersion = 0 ∧
    message.frames.length < 2 ^ 32 - 1

theorem timeLane_lt (rows : List LogRow) (row : Nat) : timeLane rows row < 2 ^ 64 := by
  have small : timeLane rows row < 2 ^ 16 := Nat.mod_lt _ (by decide)
  omega

/-- A row is published as its message exactly where it is intact. -/
theorem publishRow_stored {target : Target} (empty : target.fresh .byteSpan = ([] : Bytes)) {rows : List LogRow} {row : Nat}
    {logRow : LogRow} {message : Message} (at_ : rows[row]? = some logRow) (stored : StoredAs message logRow)
    (fits : Fits (2 ^ 63) frameSpans message.frames) :
    ∃ request, publishRow target (selectColumns rows) row = some request ∧
      (request = republished message ↔ Intact rows row message) := by
  obtain ⟨topic, header, packed, roomy⟩ := stored.fields fits
  have unpacks : unpackFrames target logRow.frames = some (unpacked message.frames) := by
    rw [packed]
    exact unpackFrames_encoding empty fits
  refine ⟨_, publishRow_eq at_ unpacks, ?_⟩
  rw [topic, header]
  constructor
  · intro same
    have headers := Option.some.inj (congrArg PublisherRequest.headerOverride same)
    have time := congrArg (fun header : MessageHeader => header.senderProcessTimeUs.toNat) headers
    have frames : unpacked message.frames = message.frames := congrArg PublisherRequest.frames same
    have lane : (UInt64.ofNat (timeLane rows row)).toNat = timeLane rows row :=
      UInt64.toNat_ofNat_of_lt' (timeLane_lt rows row)
    exact ⟨lane.symm.trans time, (congrArg MessageHeader.protocolVersion headers).symm, (unpacked_eq_iff roomy).mp frames⟩
  · rintro ⟨time, version, short⟩
    rw [(unpacked_eq_iff roomy).mpr short, time, UInt64.ofNat_toNat, ← version]
    rfl

theorem mapM_forall₂ {α β : Type} {f : α → Option β} {holds : α → β → Prop} {items : List α}
    (each : ∀ item ∈ items, ∃ result, f item = some result ∧ holds item result) :
    ∃ results, items.mapM f = some results ∧ List.Forall₂ holds items results := by
  induction items with
  | nil => exact ⟨[], rfl, .nil⟩
  | cons item rest ih =>
    obtain ⟨result, done, held⟩ := each item (by simp)
    obtain ⟨results, others, heldAll⟩ := ih fun other member => each other (by simp [member])
    refine ⟨result :: results, ?_, .cons held heldAll⟩
    simp [List.mapM_cons, done, others]

/-- The request for a row of a chunk is its message again exactly where it is intact. -/
def Replays (messages : List Message) (rows : List LogRow) (requests : List PublisherRequest) : Prop :=
  List.Forall₂ (fun row request => ∃ logRow message, rows[row]? = some logRow ∧ message ∈ messages ∧
    StoredAs message logRow ∧ (request = republished message ↔ Intact rows row message)) (List.range rows.length) requests

theorem publishChunk_stored {target : Target} (empty : target.fresh .byteSpan = ([] : Bytes)) {messages : List Message}
    {rows : List LogRow} (fits : ∀ message ∈ messages, Fits (2 ^ 63) frameSpans message.frames)
    (stored : ∀ row ∈ rows, ∃ message ∈ messages, StoredAs message row) :
    ∃ requests, publishChunk target (selectColumns rows) = some requests ∧ Replays messages rows requests := by
  apply mapM_forall₂
  intro row member
  have inside : row < rows.length := List.mem_range.mp member
  have at_ : rows[row]? = some rows[row] := List.getElem?_eq_getElem inside
  obtain ⟨message, sent, storedAs⟩ := stored rows[row] (List.getElem_mem inside)
  obtain ⟨request, published, same⟩ := publishRow_stored empty at_ storedAs (fits message sent)
  exact ⟨request, published, rows[row], message, at_, sent, storedAs, same⟩

/-- Of a recording, whatever rows DuckDB returns in whatever chunks, the message of each is
published with its topic, header and frames exactly where it is intact. -/
theorem playback_identity (target : Target) (empty : target.fresh .byteSpan = ([] : Bytes))
    (messages : List (Message × UInt64)) (fits : ∀ message ∈ messages, Fits (2 ^ 63) frameSpans message.1.frames)
    (recorder : Recorder) (recorded : Recorder.appendAll {} messages = some recorder) (chunks : List (List LogRow))
    (selected : ∀ rows ∈ chunks, ∀ row ∈ rows, row ∈ recorder.rows) :
    ∃ published, publishResults target (chunks.map selectColumns) = some published.flatten ∧
      List.Forall₂ (Replays (messages.map Prod.fst)) chunks published := by
  have stored : ∀ row ∈ recorder.rows, ∃ message ∈ messages.map Prod.fst, StoredAs message row := by
    intro row member
    rcases appendAll_rows recorded row member with none | ⟨message, sent, storedAs⟩
    · cases none
    · exact ⟨message.1, List.mem_map_of_mem sent, storedAs⟩
  have sized : ∀ message ∈ messages.map Prod.fst, Fits (2 ^ 63) frameSpans message.frames := by
    intro message member
    obtain ⟨sent, held, rfl⟩ := List.mem_map.mp member
    exact fits sent held
  induction chunks with
  | nil => exact ⟨[], rfl, .nil⟩
  | cons rows rest ih =>
    have rowsStored : ∀ row ∈ rows, ∃ message ∈ messages.map Prod.fst, StoredAs message row :=
      fun row member => stored row (selected rows (by simp) row member)
    obtain ⟨requests, first, replays⟩ := publishChunk_stored empty sized rowsStored
    obtain ⟨published, others, replaysAll⟩ := ih fun rows member => selected rows (by simp [member])
    refine ⟨requests :: published, ?_, .cons replays replaysAll⟩
    rw [List.map_cons, publishResults, first, others]
    rfl

/-- A default-constructed span is empty. -/
def defaults : Target := ⟨Ty.zero, fun _ => 0⟩

def early : Message :=
  { topic := ascii "status", header := { senderProcessTimeUs := 500 }, frames := [ascii "recorded", ascii "frames"] }

/-- A message of the first 65 milliseconds, alone in its chunk. -/
theorem playback_identity_early : ∃ recorder, Recorder.appendAll {} [(early, (501 : UInt64))] = some recorder ∧
    ∃ published, publishResults defaults [selectColumns recorder.rows] = some published.flatten ∧
      List.Forall₂ (Replays [early]) [recorder.rows] published := by
  obtain ⟨recorder, recorded⟩ : ∃ recorder, Recorder.appendAll {} [(early, (501 : UInt64))] = some recorder :=
    Option.isSome_iff_exists.mp (by decide +kernel)
  have fits : ∀ message ∈ [(early, (501 : UInt64))], Fits (2 ^ 63) frameSpans message.1.frames := by
    intro message member
    obtain rfl := List.mem_singleton.mp member
    have sizes : early.frames.length < 2 ^ 63 ∧ ∀ frame ∈ early.frames, frame.length < 2 ^ 64 := by decide +kernel
    exact sizes
  have selected : ∀ rows ∈ [recorder.rows], ∀ row ∈ rows, row ∈ recorder.rows := by
    intro rows member row inside
    rwa [List.mem_singleton.mp member] at inside
  exact ⟨recorder, recorded, playback_identity defaults rfl [(early, (501 : UInt64))] fits recorder recorded [recorder.rows] selected⟩

def late : Message :=
  { topic := ascii "status", header := { senderProcessTimeUs := 70000, protocolVersion := 1 }, frames := [ascii "recorded"] }

/-- Later the low 16 bits of the time are left, and the protocol version is 0. -/
theorem late_time_truncated :
    ((Recorder.appendAll {} [(late, 70001)]).bind fun recorder => publishResults defaults [selectColumns recorder.rows]) =
        some [publishFramesWithManualHeader late.topic { senderProcessTimeUs := 4464 } late.frames] ∧
      publishFramesWithManualHeader late.topic { senderProcessTimeUs := 4464 } late.frames ≠ republished late := by
  decide +kernel

end AxbyCore.LogViewer.Proofs
