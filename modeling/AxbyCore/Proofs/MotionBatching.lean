import AxbyCore.Realsense.Motion
import Mathlib.Tactic.Common

/-! Motion samples through the batches of the server to the items of the client. An
encoder holds a list of samples in two vectors, and a message carries the same list. -/

namespace AxbyCore.Realsense.Proofs
open Pubsub Endian
open Serialization (SmallString)

theorem uint64_little (value : UInt64) : UInt64.ofNat (ofLittle (little 8 value.toNat)) = value := by
  rw [ofLittle_little_of_lt value.toNat_lt, UInt64.ofNat_toNat]

theorem uint32_little (value : UInt32) : UInt32.ofNat (ofLittle (little 4 value.toNat)) = value := by
  rw [ofLittle_little_of_lt value.toNat_lt, UInt32.ofNat_toNat]

theorem uint16_little (value : UInt16) : UInt16.ofNat (ofLittle (little 2 value.toNat)) = value := by
  rw [ofLittle_little_of_lt value.toNat_lt, UInt16.ofNat_toNat]

theorem simpleUInt64_length (value : UInt64) : (simpleUInt64 value).length = 8 := little_length ..

theorem smallString_length (string : SmallString 24) : (smallStringBytes string).length = 32 := by
  simp [smallStringBytes, simpleUInt64_length]

theorem intrinsics_length (intrinsics : Intrinsics) : intrinsics.bytes.length = 24 := by
  simp [Intrinsics.bytes]

theorem floatBytes_length (values : List UInt32) : (floatBytes values).length = 4 * values.length := by
  induction values with
  | nil => rfl
  | cons value values ih =>
    have split : floatBytes (value :: values) = little 4 value.toNat ++ floatBytes values := List.flatMap_cons ..
    rw [split, List.length_append, little_length, ih, List.length_cons]
    omega

theorem streamMeta_length (padding : Vector UInt8 3 × UInt8) (streamMeta : StreamMeta) :
    (streamMeta.bytes padding).length = streamMetaSize := by
  have extrinsics := floatBytes_length streamMeta.extrinsics.toList
  unfold floatBytes at extrinsics
  simp only [StreamMeta.bytes, List.length_append, smallString_length, intrinsics_length, extrinsics, little_length,
    List.length_singleton, Vector.length_toList, streamMetaSize]

/-! A struct is read back from its bytes, field by field. -/

theorem readUInt32_slice {bytes : Bytes} {offset : Nat} {value : UInt32}
    (slice : (bytes.drop offset).take 4 = little 4 value.toNat) : readUInt32 bytes offset = value := by
  rw [readUInt32, field, slice, uint32_little]

theorem readByte_slice {bytes : Bytes} {offset : Nat} {byte : UInt8} (slice : (bytes.drop offset).take 1 = [byte]) :
    UInt8.ofNat (field bytes offset 1) = byte := by
  rw [field, slice]
  simp [ofLittle]

theorem readSmallString_slice {bytes : Bytes} {offset : Nat} (inside : offset + 32 ≤ bytes.length) {string : SmallString 24}
    (slice : (bytes.drop offset).take 32 = smallStringBytes string) : readSmallString bytes offset inside = string := by
  have buffer : (bytes.drop offset).take 24 = string.buffer.toList := by
    calc (bytes.drop offset).take 24 = ((bytes.drop offset).take 32).take 24 := by rw [List.take_take]; rfl
      _ = (smallStringBytes string).take 24 := by rw [slice]
      _ = string.buffer.toList := List.take_left' (Vector.length_toList ..)
  have length : (bytes.drop (offset + 24)).take 8 = little 8 string.length.toNat := by
    calc (bytes.drop (offset + 24)).take 8 = ((bytes.drop offset).take 32).drop 24 := by
          rw [List.drop_take, List.drop_drop]
      _ = (smallStringBytes string).drop 24 := by rw [slice]
      _ = little 8 string.length.toNat := List.drop_left' (Vector.length_toList ..)
  simp only [readSmallString, field, buffer, length, uint64_little]
  rfl

theorem floatBytes_slice {values : List UInt32} {index : Nat} (inside : index < values.length) :
    ((floatBytes values).drop (4 * index)).take 4 = little 4 values[index].toNat := by
  have found : (values.map UInt32.toNat)[index]? = some values[index].toNat := by
    simp [List.getElem?_eq_getElem inside]
  have element : (((values.map UInt32.toNat).flatMap (little 4)).drop (4 * index + 0)).take 4 =
      little 4 (values[index].toNat / 256 ^ 0) := array_element found (Nat.le_refl 4)
  simpa [floatBytes, List.flatMap_map] using element

section
variable (padding : Vector UInt8 3 × UInt8) (streamMeta : StreamMeta)

theorem intrinsics_slice (size : (streamMeta.bytes padding).length = streamMetaSize) :
    (readStreamMeta (streamMeta.bytes padding) size).intrinsics = streamMeta.intrinsics := by
  have scalar : ∀ offset (value : UInt32), ((streamMeta.bytes padding).drop offset).take 4 = little 4 value.toNat →
      readUInt32 (streamMeta.bytes padding) offset = value := fun _ _ slice => readUInt32_slice slice
  have width := scalar 76 streamMeta.intrinsics.width.toUInt32
    (by simp [StreamMeta.bytes, Intrinsics.bytes, List.drop_append, smallString_length, List.drop_eq_nil_of_le])
  have height := scalar 80 streamMeta.intrinsics.height.toUInt32
    (by simp [StreamMeta.bytes, Intrinsics.bytes, List.drop_append, smallString_length, List.drop_eq_nil_of_le])
  have ppx := scalar 84 streamMeta.intrinsics.ppx
    (by simp [StreamMeta.bytes, Intrinsics.bytes, List.drop_append, smallString_length, List.drop_eq_nil_of_le])
  have ppy := scalar 88 streamMeta.intrinsics.ppy
    (by simp [StreamMeta.bytes, Intrinsics.bytes, List.drop_append, smallString_length, List.drop_eq_nil_of_le])
  have fx := scalar 92 streamMeta.intrinsics.fx
    (by simp [StreamMeta.bytes, Intrinsics.bytes, List.drop_append, smallString_length, List.drop_eq_nil_of_le])
  have fy := scalar 96 streamMeta.intrinsics.fy
    (by simp [StreamMeta.bytes, Intrinsics.bytes, List.drop_append, smallString_length, List.drop_eq_nil_of_le])
  simp only [readStreamMeta, width, height, ppx, ppy, fx, fy]
  rfl

theorem id_slice (size : (streamMeta.bytes padding).length = streamMetaSize) :
    (readStreamMeta (streamMeta.bytes padding) size).id = streamMeta.id := by
  have serial : readSmallString (streamMeta.bytes padding) 0 (by simp [size, streamMetaSize]) = streamMeta.id.serialNumber :=
    readSmallString_slice _ (by simp [StreamMeta.bytes, smallString_length])
  have type : UInt8.ofNat (field (streamMeta.bytes padding) 32 1) = streamMeta.id.type.value :=
    readByte_slice (by simp [StreamMeta.bytes, smallString_length])
  have index : readUInt32 (streamMeta.bytes padding) 36 = streamMeta.id.index.toUInt32 :=
    readUInt32_slice (by simp [StreamMeta.bytes, List.drop_append, smallString_length, List.drop_eq_nil_of_le])
  simp only [readStreamMeta, serial, type, index]
  rfl

theorem device_slice (size : (streamMeta.bytes padding).length = streamMetaSize) :
    (readStreamMeta (streamMeta.bytes padding) size).deviceName = streamMeta.deviceName ∧
      (readStreamMeta (streamMeta.bytes padding) size).format = streamMeta.format ∧
      (readStreamMeta (streamMeta.bytes padding) size).fps = streamMeta.fps := by
  refine ⟨?_, ?_, ?_⟩
  · have slice : ((streamMeta.bytes padding).drop 40).take 32 = smallStringBytes streamMeta.deviceName := by
      simp [StreamMeta.bytes, List.drop_append, smallString_length, List.drop_eq_nil_of_le]
    exact readSmallString_slice (by simp [size, streamMetaSize]) slice
  · have format : UInt8.ofNat (field (streamMeta.bytes padding) 72 1) = streamMeta.format.value :=
      readByte_slice (by simp [StreamMeta.bytes, List.drop_append, smallString_length, List.drop_eq_nil_of_le])
    simp only [readStreamMeta, format]
  · have slice : ((streamMeta.bytes padding).drop 74).take 2 = little 2 streamMeta.fps.toNat := by
      simp [StreamMeta.bytes, List.drop_append, smallString_length, List.drop_eq_nil_of_le]
    simp only [readStreamMeta, field, slice, uint16_little]

theorem extrinsics_slice (size : (streamMeta.bytes padding).length = streamMetaSize) :
    (readStreamMeta (streamMeta.bytes padding) size).extrinsics = streamMeta.extrinsics ∧
      (readStreamMeta (streamMeta.bytes padding) size).depthScale = streamMeta.depthScale := by
  have floats := floatBytes_length streamMeta.extrinsics.toList
  rw [Vector.length_toList] at floats
  have tail : (streamMeta.bytes padding).drop 100 =
      floatBytes streamMeta.extrinsics.toList ++ little 4 streamMeta.depthScale.toNat := by
    simp [StreamMeta.bytes, floatBytes, List.drop_append, smallString_length, intrinsics_length, List.drop_eq_nil_of_le]
  constructor
  · apply Vector.ext
    intro index inside
    have small : index < streamMeta.extrinsics.toList.length := by simpa using inside
    have slice : ((streamMeta.bytes padding).drop (100 + 4 * index)).take 4 = little 4 streamMeta.extrinsics[index].toNat := by
      have skip : (floatBytes streamMeta.extrinsics.toList ++ little 4 streamMeta.depthScale.toNat).drop (4 * index) =
          (floatBytes streamMeta.extrinsics.toList).drop (4 * index) ++ little 4 streamMeta.depthScale.toNat :=
        List.drop_append_of_le_length (by omega)
      rw [← List.drop_drop, tail, skip, List.take_append_of_le_length (by rw [List.length_drop]; omega)]
      simpa using floatBytes_slice small
    simp only [readStreamMeta, Vector.getElem_ofFn]
    exact readUInt32_slice slice
  · apply readUInt32_slice
    have offset : (streamMeta.bytes padding).drop 164 = ((streamMeta.bytes padding).drop 100).drop 64 := by
      rw [List.drop_drop]
    rw [offset, tail, List.drop_left' floats]
    exact List.take_of_length_le (by simp)

/-- The struct that is received is the one that was sent. -/
theorem readStreamMeta_bytes (size : (streamMeta.bytes padding).length = streamMetaSize) :
    readStreamMeta (streamMeta.bytes padding) size = streamMeta := by
  have id := id_slice padding streamMeta size
  have device := device_slice padding streamMeta size
  have intrinsics := intrinsics_slice padding streamMeta size
  have extrinsics := extrinsics_slice padding streamMeta size
  generalize readStreamMeta (streamMeta.bytes padding) size = received at *
  cases received
  cases streamMeta
  simp only [StreamMeta.mk.injEq]
  exact ⟨id, device.1, device.2.1, device.2.2, intrinsics, extrinsics.1, extrinsics.2⟩

end

/-! Vectors of numbers are read back from their bytes. -/

theorem uint64Bytes_length (values : List UInt64) : (uint64Bytes values).length = 8 * values.length := by
  induction values with
  | nil => rfl
  | cons value values ih =>
    have split : uint64Bytes (value :: values) = little 8 value.toNat ++ uint64Bytes values := List.flatMap_cons ..
    rw [split, List.length_append, little_length, ih, List.length_cons]
    omega

theorem readUInt64s_bytes (values : List UInt64) : readUInt64s (uint64Bytes values) = values := by
  have count : (uint64Bytes values).length / 8 = values.length := by
    rw [uint64Bytes_length]
    omega
  apply List.ext_getElem
  · simp [readUInt64s, count]
  · intro index _ inside
    have found : (values.map UInt64.toNat)[index]? = some values[index].toNat := by
      simp [List.getElem?_eq_getElem inside]
    have element : (((values.map UInt64.toNat).flatMap (little 8)).drop (8 * index + 0)).take 8 =
        little 8 (values[index].toNat / 256 ^ 0) := array_element found (Nat.le_refl 8)
    have slice : ((uint64Bytes values).drop (8 * index)).take 8 = little 8 values[index].toNat := by
      simpa [uint64Bytes, List.flatMap_map] using element
    simp only [readUInt64s, List.getElem_map, List.getElem_range, field, slice, uint64_little]

theorem readFloats_bytes {values : List UInt32} {count : Nat} (size : values.length = 3 * count) :
    readFloats count (floatBytes values) = values := by
  apply List.ext_getElem
  · simp [readFloats, size]
  · intro index _ inside
    simp only [readFloats, List.getElem_map, List.getElem_range, field, floatBytes_slice inside, uint32_little]

/-! Samples, and the two vectors that hold them. -/

structure Sample where
  timestampUs : UInt64
  x : UInt32
  y : UInt32
  z : UInt32

def sampleOf (frame : MotionFrame) : Sample := ⟨frame.creationTimestampUs, frame.x, frame.y, frame.z⟩

def timestamps (samples : List Sample) : List UInt64 := samples.map (·.timestampUs)

def coordinates (samples : List Sample) : List UInt32 := samples.flatMap fun sample => [sample.x, sample.y, sample.z]

/-- The samples in a vector of timestamps and one of coordinates. -/
def samplesOf : List UInt64 → List UInt32 → List Sample
  | timestampUs :: timestampsUs, x :: y :: z :: xyzs => ⟨timestampUs, x, y, z⟩ :: samplesOf timestampsUs xyzs
  | _, _ => []

/-- The samples in a message. -/
def messageSamples (request : PublisherRequest) : List Sample :=
  match request.frames with
  | [_, _, timestampsUs, xyzs] => samplesOf (readUInt64s timestampsUs) (readFloats (xyzs.length / 12) xyzs)
  | _ => []

theorem coordinates_length (samples : List Sample) : (coordinates samples).length = 3 * samples.length := by
  induction samples with
  | nil => rfl
  | cons sample samples ih =>
    have split : coordinates (sample :: samples) = [sample.x, sample.y, sample.z] ++ coordinates samples :=
      List.flatMap_cons ..
    rw [split, List.length_append, ih, List.length_cons]
    simp only [List.length_cons, List.length_nil]
    omega

theorem samplesOf_split (samples : List Sample) : samplesOf (timestamps samples) (coordinates samples) = samples := by
  induction samples with
  | nil => rfl
  | cons sample samples ih =>
    have split : coordinates (sample :: samples) = sample.x :: sample.y :: sample.z :: coordinates samples := rfl
    have first : timestamps (sample :: samples) = sample.timestampUs :: timestamps samples := rfl
    rw [split, first, samplesOf, ih]

/-- The request for a batch of samples. -/
def batchRequest (topic : Bytes) (padding : Vector UInt8 3 × UInt8) (streamMeta : StreamMeta) (sequenceId : UInt64)
    (samples : List Sample) : PublisherRequest :=
  MotionEncoder.request ⟨sequenceId, timestamps samples, coordinates samples⟩ topic padding streamMeta

theorem floatBytes_count (samples : List Sample) : (floatBytes (coordinates samples)).length / 12 = samples.length := by
  rw [floatBytes_length, coordinates_length]
  omega

theorem messageSamples_batch (topic : Bytes) (padding : Vector UInt8 3 × UInt8) (streamMeta : StreamMeta)
    (sequenceId : UInt64) (samples : List Sample) :
    messageSamples (batchRequest topic padding streamMeta sequenceId samples) = samples := by
  have floats := readFloats_bytes (coordinates_length samples)
  simp only [batchRequest, MotionEncoder.request, publishFrames, messageSamples, readUInt64s_bytes, floatBytes_count, floats,
    samplesOf_split]

/-! The client. -/

/-- What the client makes of a batch. -/
def batchData (topic : Bytes) (processId : UInt64) (streamMeta : StreamMeta) (sequenceId : UInt64)
    (samples : List Sample) : MotionData where
  topic := topic
  processId := processId
  sequenceId := sequenceId
  streamMeta := streamMeta
  xyzs := coordinates samples
  timestampsUs := timestamps samples

/-- The item of the stream gets one more value. -/
def delivered (context : MotionContext) (streamMeta : StreamMeta) (motion : MotionData) : MotionContext :=
  if streamMeta.isAccel then { context with outputAccelItem := context.outputAccelItem ++ [motion] }
  else { context with outputGyroItem := context.outputGyroItem ++ [motion] }

theorem getSimple_frame {α : Type} [layout : TriviallyCopyable α] {message : Message} {frameIdx : Nat} (frame : Bytes)
    (held : message.frames[frameIdx]? = some frame) (size : frame.length = layout.size) :
    message.getSimple α frameIdx = some (layout.ofBytes frame size) := by
  simp only [Message.getSimple, held, size, dif_pos]

theorem simpleUInt64_read (value : UInt64) (size : (simpleUInt64 value).length = 8) :
    (TriviallyCopyable.ofBytes (simpleUInt64 value) size : UInt64) = value := by
  have slice : ((simpleUInt64 value).drop 0).take 8 = little 8 value.toNat :=
    List.take_of_length_le (Nat.le_of_eq size)
  have read : (TriviallyCopyable.ofBytes (simpleUInt64 value) size : UInt64) =
      UInt64.ofNat (ofLittle (((simpleUInt64 value).drop 0).take 8)) := rfl
  rw [read, slice, uint64_little]

/-- No CHECK fails on the message of a batch, and its samples go to the item of its stream. -/
theorem runMotionThread_batch (thread : MotionThread) (processId sequence : UInt64) (env : PublisherEnv) (topic : Bytes)
    (padding : Vector UInt8 3 × UInt8) (streamMeta : StreamMeta) {serial : Bytes}
    (readable : streamMeta.id.serialNumber.str = some serial) (sequenceId : UInt64) (samples : List Sample) :
    runMotionThread thread
        (makeMessage processId sequence env (batchRequest topic padding streamMeta sequenceId samples)) =
      some (Function.update thread serial
        (some (delivered ((thread serial).getD {}) streamMeta (batchData topic processId streamMeta sequenceId samples)))) := by
  have floats := readFloats_bytes (coordinates_length samples)
  have sequenceHeld : (makeMessage processId sequence env
      (batchRequest topic padding streamMeta sequenceId samples)).getSimple UInt64 0 = some sequenceId := by
    rw [getSimple_frame (simpleUInt64 sequenceId) rfl (simpleUInt64_length sequenceId)]
    exact congrArg some (simpleUInt64_read sequenceId _)
  have metaHeld : (makeMessage processId sequence env
      (batchRequest topic padding streamMeta sequenceId samples)).getSimple StreamMeta 1 = some streamMeta := by
    rw [getSimple_frame (streamMeta.bytes padding) rfl (streamMeta_length padding streamMeta)]
    exact congrArg some (readStreamMeta_bytes padding streamMeta _)
  have timestampsHeld : (makeMessage processId sequence env
      (batchRequest topic padding streamMeta sequenceId samples)).frames[2]? = some (uint64Bytes (timestamps samples)) := rfl
  have xyzsHeld : (makeMessage processId sequence env
      (batchRequest topic padding streamMeta sequenceId samples)).frames[3]? = some (floatBytes (coordinates samples)) := rfl
  have version : (makeMessage processId sequence env
      (batchRequest topic padding streamMeta sequenceId samples)).header.messageVersion = 0 := rfl
  have sender : (makeMessage processId sequence env
      (batchRequest topic padding streamMeta sequenceId samples)).header.senderProcessId = processId := rfl
  have named : (makeMessage processId sequence env
      (batchRequest topic padding streamMeta sequenceId samples)).topic = topic := rfl
  have count : (uint64Bytes (timestamps samples)).length / 8 = samples.length := by
    rw [uint64Bytes_length, timestamps, List.length_map]
    omega
  unfold runMotionThread
  simp only [version, ne_eq, not_true_eq_false, if_false, sequenceHeld, metaHeld, timestampsHeld, xyzsHeld,
    readable, floatBytes_count, count, floats, readUInt64s_bytes, Option.bind_eq_bind, Option.bind_some, sender, named]
  rfl

/-! The server. -/

/-- The requests made for a uid. -/
def requestsOf (server : MotionServer) (uid : Int32) : List PublisherRequest :=
  (server.published.filter (·.1 == uid)).map (·.2)

/-- The samples received for a uid. -/
def received (uid : Int32) (arrivals : List (MotionFrame × (Vector UInt8 3 × UInt8))) : List Sample :=
  (arrivals.filter (·.1.uid == uid)).map (sampleOf ·.1)

/-- An accelerometer or a gyroscope, which has an encoder, with a serial number that ends within its buffer. -/
structure Motion (streamMeta : StreamMeta) : Prop where
  type : streamMeta.id.type = .accel ∨ streamMeta.id.type = .gyro
  serial : ∃ serial, streamMeta.id.serialNumber.str = some serial

theorem rounds_after (value : UInt64) :
    Binary64.round value.toNat ≤ Binary64.round (Binary64.round value.toNat + 33000) := by
  apply Binary64.round_mono
  have loss := Binary64.lt_round_add_unit value.toNat
  have unit : Binary64.unit value.toNat ≤ 2 ^ 11 := by
    have small : value.toNat.log2 < 64 := by
      by_cases zero : value.toNat = 0
      · rw [zero]
        decide
      · exact (Nat.log2_lt zero).mpr value.toNat_lt
    exact Nat.pow_le_pow_right (by decide) (by omega)
  omega

/-- A first sample does not flush the encoder. -/
theorem flushes_two {held : List Sample} {sample : Sample}
    (flush : flushes sample.timestampUs ((timestamps (held ++ [sample])).headD 0) = true) : 2 ≤ (held ++ [sample]).length := by
  cases held with
  | nil =>
    have late := of_decide_eq_true flush
    have := rounds_after sample.timestampUs
    simp only [timestamps, List.nil_append, List.map_cons, List.headD_cons] at late
    omega
  | cons first held => simp

/-- The state of one encoder after the frames so far. -/
structure Batched (server : MotionServer) (uid : Int32) (streamMeta : StreamMeta) (samples : List Sample) : Prop where
  encoder : ∃ held, server.encoders uid =
      some ⟨UInt64.ofNat (requestsOf server uid).length, timestamps held, coordinates held⟩ ∧
    (requestsOf server uid).flatMap messageSamples ++ held = samples
  batches : ∀ i request, (requestsOf server uid)[i]? = some request → ∃ topic padding batch,
    getTopic streamMeta.id = some topic ∧ 2 ≤ batch.length ∧
    request = batchRequest topic padding streamMeta (UInt64.ofNat i) batch


theorem timestamps_snoc (held : List Sample) (sample : Sample) :
    timestamps (held ++ [sample]) = timestamps held ++ [sample.timestampUs] := by simp [timestamps]

theorem coordinates_snoc (held : List Sample) (sample : Sample) :
    coordinates (held ++ [sample]) = coordinates held ++ [sample.x, sample.y, sample.z] := by simp [coordinates]

theorem received_snoc (uid : Int32) (earlier : List (MotionFrame × (Vector UInt8 3 × UInt8)))
    (arrival : MotionFrame × (Vector UInt8 3 × UInt8)) :
    received uid (earlier ++ [arrival]) =
      received uid earlier ++ if arrival.1.uid = uid then [sampleOf arrival.1] else [] := by
  by_cases same : arrival.1.uid = uid <;> simp [received, List.filter_append, same]

theorem motion_topic {streamMeta : StreamMeta} (motion : Motion streamMeta) : ∃ topic, getTopic streamMeta.id = some topic := by
  have named : (getTopic streamMeta.id).isSome = true := by
    obtain ⟨serial, readable⟩ := motion.serial
    unfold getTopic
    rcases motion.type with accel | gyro
    · simp only [readable, accel, Option.bind_eq_bind, Option.bind_some, apply_ite Option.isSome, Option.isSome_some,
        if_true, ite_self]
    · simp only [readable, gyro, Option.bind_eq_bind, Option.bind_some, apply_ite Option.isSome, Option.isSome_some,
        if_true, ite_self]
  exact Option.isSome_iff_exists.mp named

section
variable {uidToStreamMeta : Int32 → Option StreamMeta} {server : MotionServer}
  {arrival : MotionFrame × (Vector UInt8 3 × UInt8)}

/-- What an iteration does to the encoder of its frame: it takes the sample, and is
emptied into a request when the sample is late. -/
theorem processMotionFrame_cases {streamMeta : StreamMeta} {topic : Bytes} {sequenceId : UInt64} {held : List Sample}
    (known : uidToStreamMeta arrival.1.uid = some streamMeta) (named : getTopic streamMeta.id = some topic)
    (encoder : server.encoders arrival.1.uid = some ⟨sequenceId, timestamps held, coordinates held⟩) :
    processMotionFrame uidToStreamMeta server arrival =
      some (if flushes arrival.1.creationTimestampUs ((timestamps (held ++ [sampleOf arrival.1])).headD 0) then
        { encoders := Function.update server.encoders arrival.1.uid (some ⟨sequenceId + 1, [], []⟩)
          published := server.published ++
            [(arrival.1.uid, batchRequest topic arrival.2 streamMeta sequenceId (held ++ [sampleOf arrival.1]))] }
      else
        { server with
          encoders := Function.update server.encoders arrival.1.uid
            (some ⟨sequenceId, timestamps (held ++ [sampleOf arrival.1]), coordinates (held ++ [sampleOf arrival.1])⟩) }) := by
  obtain ⟨frame, padding⟩ := arrival
  change uidToStreamMeta frame.uid = some streamMeta at known
  change server.encoders frame.uid = some ⟨sequenceId, timestamps held, coordinates held⟩ at encoder
  have pushed : timestamps held ++ [frame.creationTimestampUs] = timestamps (held ++ [sampleOf frame]) :=
    (timestamps_snoc held (sampleOf frame)).symm
  have widened : coordinates held ++ [frame.x, frame.y, frame.z] = coordinates (held ++ [sampleOf frame]) :=
    (coordinates_snoc held (sampleOf frame)).symm
  rw [processMotionFrame, known, Option.bind_eq_bind, Option.bind_some, named, Option.bind_eq_bind, Option.bind_some, encoder,
    Option.bind_eq_bind, Option.bind_some]
  dsimp only
  rw [pushed, widened]
  -- the test in double is not looked into
  generalize flushes frame.creationTimestampUs ((timestamps (held ++ [sampleOf frame])).headD 0) = flush
  cases flush with
  | true => rfl
  | false => rfl

/-- The invariant of the server: every encoder is batched. -/
def AllBatched (uidToStreamMeta : Int32 → Option StreamMeta) (arrivals : List (MotionFrame × (Vector UInt8 3 × UInt8)))
    (server : MotionServer) : Prop :=
  ∀ uid streamMeta, uidToStreamMeta uid = some streamMeta → Motion streamMeta →
    Batched server uid streamMeta (received uid arrivals)

theorem start_batched : AllBatched uidToStreamMeta [] (.start uidToStreamMeta) := by
  intro uid streamMeta known motion
  refine ⟨⟨[], ?_, rfl⟩, ?_⟩
  · simp only [MotionServer.start, known]
    exact if_pos motion.type
  · intro i request found
    exact absurd found (by simp [requestsOf, MotionServer.start])

/-- The frames of other uids leave an encoder alone. -/
theorem Batched.other {after : MotionServer} {uid : Int32} {streamMeta : StreamMeta} {samples : List Sample}
    (batched : Batched server uid streamMeta samples) (encoders : after.encoders uid = server.encoders uid)
    (requests : requestsOf after uid = requestsOf server uid) : Batched after uid streamMeta samples := by
  refine ⟨?_, ?_⟩
  · rw [encoders, requests]
    exact batched.encoder
  · rw [requests]
    exact batched.batches

theorem requestsOf_snoc (server : MotionServer) (encoders : Int32 → Option MotionEncoder) (uid other : Int32)
    (request : PublisherRequest) :
    requestsOf ⟨encoders, server.published ++ [(uid, request)]⟩ other =
      requestsOf server other ++ if uid = other then [request] else [] := by
  by_cases same : uid = other <;> simp [requestsOf, List.filter_append, same]

/-- A batch that is flushed is the next message of its uid. -/
theorem Batched.flush {uid : Int32} {streamMeta : StreamMeta} {earlier held : List Sample} {sample : Sample} {topic : Bytes}
    {padding : Vector UInt8 3 × UInt8} {encoders : Int32 → Option MotionEncoder}
    (batched : Batched server uid streamMeta earlier)
    (complete : (requestsOf server uid).flatMap messageSamples ++ held = earlier)
    (named : getTopic streamMeta.id = some topic) (two : 2 ≤ (held ++ [sample]).length)
    (emptied : encoders uid = some ⟨UInt64.ofNat (requestsOf server uid).length + 1, [], []⟩) :
    Batched ⟨encoders, server.published ++ [(uid,
      batchRequest topic padding streamMeta (UInt64.ofNat (requestsOf server uid).length) (held ++ [sample]))]⟩
      uid streamMeta (earlier ++ [sample]) := by
  have requests := requestsOf_snoc server encoders uid uid
    (batchRequest topic padding streamMeta (UInt64.ofNat (requestsOf server uid).length) (held ++ [sample]))
  rw [if_pos rfl] at requests
  constructor
  · refine ⟨[], ?_, ?_⟩
    · rw [requests, List.length_append, List.length_singleton, UInt64.ofNat_add]
      exact emptied
    · rw [requests, List.flatMap_append, List.flatMap_singleton, messageSamples_batch, ← complete]
      simp only [List.append_nil, List.append_assoc]
  · intro i request there
    rw [requests] at there
    rcases Nat.lt_or_ge i (requestsOf server uid).length with before | last
    · rw [List.getElem?_append_left before] at there
      exact batched.batches i request there
    · have inside := (List.getElem?_eq_some_iff.mp there).1
      rw [List.length_append, List.length_singleton] at inside
      obtain rfl : i = (requestsOf server uid).length := by omega
      rw [List.getElem?_concat_length] at there
      exact ⟨topic, padding, _, named, two, (Option.some.inj there).symm⟩

/-- One frame. -/
theorem processMotionFrame_batched {earlier : List (MotionFrame × (Vector UInt8 3 × UInt8))} {streamMeta : StreamMeta}
    (batched : AllBatched uidToStreamMeta earlier server) (known : uidToStreamMeta arrival.1.uid = some streamMeta)
    (motion : Motion streamMeta) :
    ∃ after, processMotionFrame uidToStreamMeta server arrival = some after ∧
      AllBatched uidToStreamMeta (earlier ++ [arrival]) after := by
  obtain ⟨topic, named⟩ := motion_topic motion
  have mine := batched _ streamMeta known motion
  obtain ⟨held, encoder, complete⟩ := mine.encoder
  rw [processMotionFrame_cases known named encoder]
  refine ⟨_, rfl, ?_⟩
  intro uid found knownFound motionFound
  rw [received_snoc]
  by_cases flush : flushes arrival.1.creationTimestampUs ((timestamps (held ++ [sampleOf arrival.1])).headD 0) = true
  · rw [if_pos flush]
    by_cases here : arrival.1.uid = uid
    · subst here
      obtain rfl : streamMeta = found := Option.some.inj (known.symm.trans knownFound)
      rw [if_pos rfl]
      exact mine.flush complete named (flushes_two flush) (Function.update_self ..)
    · rw [if_neg here, List.append_nil]
      apply (batched uid found knownFound motionFound).other
      · exact Function.update_of_ne (Ne.symm here) ..
      · rw [requestsOf_snoc, if_neg here, List.append_nil]
  · rw [if_neg flush]
    by_cases here : arrival.1.uid = uid
    · subst here
      obtain rfl : streamMeta = found := Option.some.inj (known.symm.trans knownFound)
      refine ⟨⟨held ++ [sampleOf arrival.1], Function.update_self .., ?_⟩, mine.batches⟩
      rw [if_pos rfl, ← complete, ← List.append_assoc]
      rfl
    · rw [if_neg here, List.append_nil]
      exact (batched uid found knownFound motionFound).other (Function.update_of_ne (Ne.symm here) ..) rfl

/-- A run of frames. -/
theorem processMotionFrames_batched (arrivals earlier : List (MotionFrame × (Vector UInt8 3 × UInt8)))
    (known : ∀ arrival ∈ arrivals, ∃ streamMeta, uidToStreamMeta arrival.1.uid = some streamMeta ∧ Motion streamMeta)
    (batched : AllBatched uidToStreamMeta earlier server) :
    ∃ after, arrivals.foldlM (processMotionFrame uidToStreamMeta) server = some after ∧
      AllBatched uidToStreamMeta (earlier ++ arrivals) after := by
  induction arrivals generalizing server earlier with
  | nil => exact ⟨server, rfl, by rwa [List.append_nil]⟩
  | cons arrival arrivals ih =>
    obtain ⟨streamMeta, here, motion⟩ := known arrival List.mem_cons_self
    obtain ⟨next, moved, kept⟩ := processMotionFrame_batched batched here motion
    obtain ⟨after, run, last⟩ := ih _ (fun later member => known later (List.mem_cons_of_mem _ member)) kept
    refine ⟨after, ?_, ?_⟩
    · rw [List.foldlM_cons, moved]
      exact run
    · rwa [List.append_assoc] at last

end

/-- A message has the sequence id, at least two samples and as many triples of floats as
timestamps; the client fails no CHECK on it and the item of the stream, and no other,
gets its samples. -/
structure Delivers (request : PublisherRequest) (streamMeta : StreamMeta) (sequenceId : UInt64) : Prop where
  sequence : request.frames[0]? = some (simpleUInt64 sequenceId)
  two : 2 ≤ (messageSamples request).length
  vectors : request.frames.drop 2 =
    [uint64Bytes (timestamps (messageSamples request)), floatBytes (coordinates (messageSamples request))]
  arrives : ∃ serial, streamMeta.id.serialNumber.str = some serial ∧ ∀ thread processId sequence env,
    runMotionThread thread (makeMessage processId sequence env request) =
      some (Function.update thread serial
        (some (delivered ((thread serial).getD {}) streamMeta
          (batchData request.topic processId streamMeta sequenceId (messageSamples request)))))

theorem batch_delivers (topic : Bytes) (padding : Vector UInt8 3 × UInt8) {streamMeta : StreamMeta}
    (motion : Motion streamMeta) (sequenceId : UInt64) {samples : List Sample} (two : 2 ≤ samples.length) :
    Delivers (batchRequest topic padding streamMeta sequenceId samples) streamMeta sequenceId := by
  have same := messageSamples_batch topic padding streamMeta sequenceId samples
  constructor
  · rfl
  · rw [same]
    exact two
  · rw [same]
    rfl
  · obtain ⟨serial, readable⟩ := motion.serial
    refine ⟨serial, readable, ?_⟩
    intro thread processId sequence env
    rw [same]
    exact runMotionThread_batch thread processId sequence env topic padding streamMeta readable sequenceId samples

/-- The samples of each motion sensor come out of the messages and the encoder in the
order in which they were received, and the client gets those of every message. -/
theorem motion_samples_survive (uidToStreamMeta : Int32 → Option StreamMeta)
    (arrivals : List (MotionFrame × (Vector UInt8 3 × UInt8)))
    (known : ∀ arrival ∈ arrivals, ∃ streamMeta, uidToStreamMeta arrival.1.uid = some streamMeta ∧ Motion streamMeta) :
    ∃ server, processMotionFrames uidToStreamMeta arrivals = some server ∧
      ∀ uid streamMeta, uidToStreamMeta uid = some streamMeta → Motion streamMeta →
        (∃ encoder, server.encoders uid = some encoder ∧
          (requestsOf server uid).flatMap messageSamples ++ samplesOf encoder.timestampsUs encoder.xyzs =
            received uid arrivals) ∧
        ∀ i request, (requestsOf server uid)[i]? = some request → Delivers request streamMeta (UInt64.ofNat i) := by
  obtain ⟨server, run, batched⟩ := processMotionFrames_batched arrivals [] known start_batched
  refine ⟨server, run, ?_⟩
  intro uid streamMeta here motion
  have mine := batched uid streamMeta here motion
  constructor
  · obtain ⟨held, encoder, complete⟩ := mine.encoder
    refine ⟨_, encoder, ?_⟩
    rw [samplesOf_split]
    exact complete
  · intro i request found
    obtain ⟨topic, padding, batch, _, two, rfl⟩ := mine.batches i request found
    exact batch_delivers topic padding motion (UInt64.ofNat i) two

/-! A gyroscope with a flush after its second sample. -/

def gyroMeta : StreamMeta where
  id := { serialNumber := ⟨Vector.replicate 24 55, 3⟩, type := .gyro, index := 0 }
  deviceName := ⟨Vector.replicate 24 0, 0⟩
  format := ⟨3⟩
  fps := 200
  intrinsics := { width := 0, height := 0, ppx := 0, ppy := 0, fx := 0, fy := 0 }
  extrinsics := Vector.replicate 16 0
  depthScale := 0

def gyroFrame (creationTimestampUs : UInt64) : MotionFrame × (Vector UInt8 3 × UInt8) :=
  (⟨1, creationTimestampUs, 1, 2, 3⟩, (Vector.replicate 3 0, 0))

theorem motion_samples_survive_flush :
    ∃ server, processMotionFrames (fun _ => some gyroMeta) [gyroFrame 10, gyroFrame 40010] = some server ∧
      ∃ request, requestsOf server 1 = [request] ∧ messageSamples request = [⟨10, 1, 2, 3⟩, ⟨40010, 1, 2, 3⟩] ∧
        Delivers request gyroMeta 0 := by
  have motion : Motion gyroMeta := ⟨.inr rfl, _, rfl⟩
  obtain ⟨server, run, survives⟩ := motion_samples_survive (fun _ => some gyroMeta) [gyroFrame 10, gyroFrame 40010]
    (fun _ _ => ⟨gyroMeta, rfl, motion⟩)
  have published : (processMotionFrames (fun _ => some gyroMeta) [gyroFrame 10, gyroFrame 40010]).map
      (fun server => (requestsOf server 1).map messageSamples) = some [[⟨10, 1, 2, 3⟩, ⟨40010, 1, 2, 3⟩]] := rfl
  rw [run, Option.map_some, Option.some.injEq, List.map_eq_singleton_iff] at published
  obtain ⟨request, single, samples⟩ := published
  exact ⟨server, run, request, single, samples, (survives 1 gyroMeta rfl motion).2 0 request (by rw [single]; rfl)⟩

end AxbyCore.Realsense.Proofs
