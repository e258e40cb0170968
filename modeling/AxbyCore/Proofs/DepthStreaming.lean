import AxbyCore.Library.DeltaStream
import AxbyCore.Proofs.MotionBatching
import AxbyCore.Proofs.VideoDecoding
import AxbyCore.Proofs.ZdepthStream
import AxbyCore.Realsense.DepthStream

/-! Depth video from the server's encoders to the items of the client, over a channel that
may lose messages. Each sensor has a receiver of its own, and the client shows what it gives. -/

namespace AxbyCore.Proofs.DepthStreaming
open AxbyCore.Zdepth Proofs.Zdepth Pubsub Realsense DeltaStream
open Realsense.Proofs (store_self store_other getSimple_frame simpleUInt64_read simpleUInt64_length streamMeta_length
  readStreamMeta_bytes)

/-- What a message that arrives was sent with. -/
structure Sending where
  sequenceId : UInt64
  env : PublisherEnv

/-- The frames that the server is given, each with whether and how its message arrives. -/
abbrev Captured := List (DepthFrame × Option Sending)

/-- The messages that arrive of those for some requests. -/
def arriving (processId : UInt64) (requests : List PublisherRequest) (sendings : List (Option Sending)) : List Message :=
  (requests.zip sendings).filterMap fun pair =>
    pair.2.map fun sending => makeMessage processId sending.sequenceId sending.env pair.1

/-- The frames of a sensor, each with whether its message arrives. -/
def own (uid : Int32) (captured : Captured) : List (DepthFrame × Bool) :=
  (captured.filter (·.1.uid == uid)).map fun entry => (entry.1, entry.2.isSome)

/-- A depth camera, whose images zdepth can code, with a serial number that ends within its buffer. -/
structure DepthSensor (streamMeta : StreamMeta) : Prop where
  depth : streamMeta.id.type = .depth
  serial : ∃ serial, streamMeta.id.serialNumber.str = some serial
  dimensions : Dimensions streamMeta.intrinsics.columns streamMeta.intrinsics.rows

/-- The encoder of a sensor after some frames. -/
def streamEncoder (streamMeta : StreamMeta) (earlier : List DepthFrame) : DepthCompressor :=
  earlier.foldl (fun encoder frame =>
    nextEncoder streamMeta.intrinsics.columns streamMeta.intrinsics.rows encoder frame.data) {}

def codedAfter (streamMeta : StreamMeta) (earlier : List DepthFrame) (frame : DepthFrame) : Coded :=
  codedFrame streamMeta.intrinsics.columns streamMeta.intrinsics.rows (streamEncoder streamMeta earlier) frame.data
    frame.shouldAct

def fileAfter (zstd : Zstd) (streamMeta : StreamMeta) (earlier : List DepthFrame) (frame : DepthFrame) : Bytes :=
  frameFile zstd streamMeta.intrinsics.columns streamMeta.intrinsics.rows (streamEncoder streamMeta earlier) frame.data
    frame.shouldAct

/-- What the server and the client are given: the images of known sensors, which the client can tell apart by their
serial numbers, and codes that fit. -/
structure Captures (metas : Int32 → Option StreamMeta) (captured : Captured) : Prop where
  sensors : ∀ entry ∈ captured, ∃ streamMeta, metas entry.1.uid = some streamMeta ∧ DepthSensor streamMeta ∧
    entry.1.data.length = streamMeta.intrinsics.columns * streamMeta.intrinsics.rows
  distinct : ∀ uid other streamMeta otherMeta serial, metas uid = some streamMeta → metas other = some otherMeta →
    streamMeta.id.type = .depth → otherMeta.id.type = .depth → streamMeta.id.serialNumber.str = some serial →
    otherMeta.id.serialNumber.str = some serial → uid = other
  few : captured.length < 2 ^ 64 - 1
  fits : ∀ uid streamMeta earlier frame later, metas uid = some streamMeta →
    (own uid captured).map Prod.fst = earlier ++ frame :: later → Fits (codedAfter streamMeta earlier frame)

/-- The first frame of a sensor is a key frame, and so is every frame that the keyframe period asks one of. -/
def isWhole (n : Nat) (frame : DepthFrame) : Bool := frame.shouldAct || n % 2 ^ 32 == 0

/-- A frame whose number has run over 16 bits is not decoded by what came before. -/
def linksOn (n : Nat) : Bool := (n + 1) % 2 ^ 16 != 0

/-- What the client shows of a frame. -/
def display (processId : UInt64) (streamMeta : StreamMeta) (topic : Bytes) (entry : Nat × DepthFrame) : VideoData UInt16 where
  topic := topic
  processId := processId
  creationTimestampUs := entry.2.creationTimestampUs
  streamMeta := streamMeta
  sequenceId := UInt64.ofNat entry.1
  data := rounded streamMeta.intrinsics.columns streamMeta.intrinsics.rows entry.2.data

/-! The encoder of a sensor. -/

section
variable {metas : Int32 → Option StreamMeta} {captured : Captured} {streamMeta : StreamMeta}

theorem own_snoc (uid : Int32) (captured : Captured) (entry : DepthFrame × Option Sending) :
    own uid (captured ++ [entry]) =
      if entry.1.uid = uid then own uid captured ++ [(entry.1, entry.2.isSome)] else own uid captured := by
  unfold own
  rw [List.filter_append, List.map_append]
  by_cases here : entry.1.uid = uid
  · rw [if_pos here, List.filter_cons_of_pos (by simpa using here)]
    rfl
  · rw [if_neg here, List.filter_cons_of_neg (by simpa using here)]
    exact List.append_nil _

theorem own_length (uid : Int32) (captured : Captured) : (own uid captured).length ≤ captured.length := by
  rw [own, List.length_map]
  exact List.length_filter_le ..

theorem streamEncoder_snoc (streamMeta : StreamMeta) (earlier : List DepthFrame) (frame : DepthFrame) :
    streamEncoder streamMeta (earlier ++ [frame]) =
      nextEncoder streamMeta.intrinsics.columns streamMeta.intrinsics.rows (streamEncoder streamMeta earlier) frame.data := by
  rw [streamEncoder, List.foldl_append]
  rfl

theorem streamEncoder_number (streamMeta : StreamMeta) (earlier : List DepthFrame) :
    (streamEncoder streamMeta earlier).compressedFrameNumber = earlier.length % 2 ^ 32 := by
  induction earlier using List.reverseRecOn with
  | nil => rfl
  | append_singleton earlier frame ih =>
    rw [streamEncoder_snoc, nextEncoder]
    dsimp only
    rw [ih, List.length_append, List.length_singleton]
    omega

theorem streamEncoder_whole (streamMeta : StreamMeta) (earlier : List DepthFrame) (frame : DepthFrame) :
    usesKeyframe (streamEncoder streamMeta earlier) frame.shouldAct = isWhole earlier.length frame := by
  rw [usesKeyframe, streamEncoder_number, isWhole]

theorem streamEncoder_ready {earlier : List DepthFrame}
    (sizes : ∀ frame ∈ earlier, frame.data.length = streamMeta.intrinsics.columns * streamMeta.intrinsics.rows) :
    Ready streamMeta.intrinsics.columns streamMeta.intrinsics.rows (streamEncoder streamMeta earlier) := by
  cases earlier using List.reverseRecOn with
  | nil => exact ready_new
  | append_singleton earlier frame =>
    rw [streamEncoder_snoc]
    exact ready_next (sizes frame (by simp))

/-- The assumptions hold of what has been captured before. -/
theorem Captures.before {entry : DepthFrame × Option Sending} (captures : Captures metas (captured ++ [entry])) :
    Captures metas captured := by
  constructor
  · exact fun earlier member => captures.sensors earlier (List.mem_append_left _ member)
  · exact captures.distinct
  · have few := captures.few
    rw [List.length_append] at few
    omega
  · intro uid streamMeta earlier frame later known split
    rw [← List.append_nil captured] at split
    have whole := own_snoc uid captured entry
    by_cases here : entry.1.uid = uid
    · rw [if_pos here] at whole
      apply captures.fits uid streamMeta earlier frame (later ++ [entry.1]) known
      rw [whole, List.map_append, ← List.append_nil captured, split]
      simp
    · rw [if_neg here] at whole
      apply captures.fits uid streamMeta earlier frame later known
      rw [whole, ← List.append_nil captured, split]

theorem own_data (captures : Captures metas captured) {uid : Int32} (known : metas uid = some streamMeta) :
    ∀ frame ∈ (own uid captured).map Prod.fst,
      frame.data.length = streamMeta.intrinsics.columns * streamMeta.intrinsics.rows := by
  intro frame member
  obtain ⟨pair, inside, rfl⟩ := List.mem_map.mp member
  obtain ⟨entry, captured, rfl⟩ := List.mem_map.mp inside
  rw [List.mem_filter, beq_iff_eq] at captured
  obtain ⟨found, here, _, size⟩ := captures.sensors entry captured.1
  rw [captured.2] at here
  obtain rfl := Option.some.inj (known.symm.trans here)
  exact size

theorem depth_topic (depth : streamMeta.id.type = .depth) {serial : Bytes}
    (readable : streamMeta.id.serialNumber.str = some serial) : ∃ topic, getTopic streamMeta.id = some topic := by
  unfold getTopic
  rw [depth, readable]
  exact ⟨_, rfl⟩

end

/-! The server. -/

/-- The message of a frame. -/
def frameRequest (zstd : Zstd) (streamMeta : StreamMeta) (topic : Bytes) (earlier : List DepthFrame) (frame : DepthFrame) :
    PublisherRequest :=
  publishFrames topic 0
    [simpleUInt64 frame.creationTimestampUs, simpleUInt64 (UInt64.ofNat earlier.length), streamMeta.bytes frame.padding,
      fileAfter zstd streamMeta earlier frame]
    (if isWhole earlier.length frame then 1 else 0)

/-- The encoders have coded the frames of their sensors. -/
structure Encoding (metas : Int32 → Option StreamMeta) (captured : Captured) (server : DepthServer) : Prop where
  encoders : ∀ uid streamMeta, metas uid = some streamMeta → streamMeta.id.type = .depth → ∃ buffer,
    server.encoders uid = some ⟨UInt64.ofNat (own uid captured).length,
      streamEncoder streamMeta ((own uid captured).map Prod.fst), buffer⟩
  published : server.published.length = captured.length

section
variable {zstd : Zstd} {metas : Int32 → Option StreamMeta} {captured : Captured} {streamMeta : StreamMeta}

theorem start_encoding (metas : Int32 → Option StreamMeta) : Encoding metas [] (.start metas) := by
  constructor
  · intro uid streamMeta known depth
    refine ⟨[], ?_⟩
    simp only [DepthServer.start, known, if_pos depth]
    rfl
  · rfl

/-- The flag of a message is that of its file. -/
theorem fileAfter_keyframe (sensor : DepthSensor streamMeta) (earlier : List DepthFrame) (frame : DepthFrame) :
    zdepthIsKeyFrame (fileAfter zstd streamMeta earlier frame) = isWhole earlier.length frame := by
  obtain ⟨long, magic, flags, _⟩ : FrameHeader (fileAfter zstd streamMeta earlier frame) _ _ _ _ :=
    frame_header sensor.dimensions
  rw [depthHeaderBytes] at long
  rw [depthFormatMagic] at magic
  rw [zdepthIsKeyFrame, if_neg (Nat.not_lt.mpr long), if_neg (fun differ => differ magic), flags, streamEncoder_whole]

theorem ofNat_succ (n : Nat) : UInt64.ofNat n + 1 = UInt64.ofNat (n + 1) := by
  rw [UInt64.ofNat_add]
  rfl

/-- The server gets through an iteration. -/
theorem processDepthFrame_eq {server : DepthServer} {frame : DepthFrame} {topic buffer : Bytes}
    (known : metas frame.uid = some streamMeta) (sensor : DepthSensor streamMeta) (named : getTopic streamMeta.id = some topic)
    {earlier : List DepthFrame} (encoder : server.encoders frame.uid =
      some ⟨UInt64.ofNat earlier.length, streamEncoder streamMeta earlier, buffer⟩) :
    processDepthFrame zstd metas server frame = some {
      encoders := Function.update server.encoders frame.uid (some ⟨UInt64.ofNat (earlier ++ [frame]).length,
        streamEncoder streamMeta (earlier ++ [frame]), fileAfter zstd streamMeta earlier frame⟩)
      published := server.published ++ [frameRequest zstd streamMeta topic earlier frame] } := by
  have keyframe := @fileAfter_keyframe zstd streamMeta sensor earlier frame
  have allowed : (frame.shouldAct && !isWhole earlier.length frame) = false := by
    unfold isWhole
    cases frame.shouldAct <;> rfl
  unfold processDepthFrame
  simp only [known, named, encoder, Option.bind_eq_bind, Option.bind_some, compress_eq sensor.dimensions, Option.getD_some]
  unfold fileAfter at keyframe
  rw [keyframe, allowed, if_neg Bool.false_ne_true, ofNat_succ, streamEncoder_snoc, List.length_append, List.length_singleton]
  rfl

/-- It publishes the message of the frame. -/
theorem processDepthFrame_encoding {server : DepthServer} {entry : DepthFrame × Option Sending}
    (captures : Captures metas (captured ++ [entry])) (encoding : Encoding metas captured server) :
    ∃ streamMeta topic after, metas entry.1.uid = some streamMeta ∧ DepthSensor streamMeta ∧
      getTopic streamMeta.id = some topic ∧ processDepthFrame zstd metas server entry.1 = some after ∧
      after.published =
        server.published ++ [frameRequest zstd streamMeta topic ((own entry.1.uid captured).map Prod.fst) entry.1] ∧
      Encoding metas (captured ++ [entry]) after := by
  obtain ⟨streamMeta, known, sensor, _⟩ := captures.sensors entry (by simp)
  obtain ⟨serial, readable⟩ := sensor.serial
  obtain ⟨topic, named⟩ := depth_topic sensor.depth readable
  obtain ⟨buffer, encoder⟩ := encoding.encoders _ streamMeta known sensor.depth
  rw [← List.length_map Prod.fst] at encoder
  refine ⟨streamMeta, topic, _, known, sensor, named, processDepthFrame_eq known sensor named encoder, rfl, ?_⟩
  constructor
  · intro uid other otherKnown depth
    rw [own_snoc]
    by_cases here : entry.1.uid = uid
    · subst here
      obtain rfl := Option.some.inj (known.symm.trans otherKnown)
      refine ⟨fileAfter zstd streamMeta ((own entry.1.uid captured).map Prod.fst) entry.1, ?_⟩
      rw [if_pos rfl, ← List.length_map Prod.fst, List.map_append]
      exact Function.update_self ..
    · obtain ⟨buffer, kept⟩ := encoding.encoders uid other otherKnown depth
      refine ⟨buffer, ?_⟩
      rw [if_neg here, ← kept]
      exact Function.update_of_ne (Ne.symm here) ..
  · rw [List.length_append, List.length_append, encoding.published]
    rfl

theorem processDepthFrames_snoc (frames : List DepthFrame) (frame : DepthFrame) :
    processDepthFrames zstd metas (frames ++ [frame]) =
      (processDepthFrames zstd metas frames).bind fun server => processDepthFrame zstd metas server frame := by
  rw [processDepthFrames, List.foldlM_append]
  simp only [List.foldlM_cons, List.foldlM_nil, bind_pure]
  rfl

end

/-! The client, for one sensor. -/

/-- What the client unpacks of the message of a frame. -/
def videoOf (zstd : Zstd) (processId : UInt64) (streamMeta : StreamMeta) (serial topic : Bytes) (earlier : List DepthFrame)
    (frame : DepthFrame) : VideoMessage where
  topic := topic
  processId := processId
  isKeyframe := isWhole earlier.length frame
  creationUs := frame.creationTimestampUs
  sequenceId := UInt64.ofNat earlier.length
  streamMeta := streamMeta
  serial := serial
  packet := fileAfter zstd streamMeta earlier frame

/-- What `Decompress` makes of a packet for a context. -/
def outcomeOf (zstd : Zstd) (context : VideoContext UInt16) (video : VideoMessage) : DepthOutcome :=
  match (decompressorAfter zstd (context.resync video).decoder).decompress zstd video.packet with
  | .ok (_, depthOut) => some depthOut
  | .error _ => none

/-- The context after a message that fails no CHECK. -/
def advanced (context : VideoContext UInt16) (video : VideoMessage) (result : DepthOutcome) : VideoContext UInt16 :=
  let context := context.resync video
  if context.needKeyframe && !video.isKeyframe then context
  else
    match result with
    | none => (context.pass video).reinit
    | some depthOut => (context.pass video).write video depthOut

/-- The decoder of a context is new, or has the frame of the encoder that the next one may build on. -/
inductive Decoding (zstd : Zstd) (streamMeta : StreamMeta) (sent : List DepthFrame) (context : VideoContext UInt16) :
    Option Nat → Prop where
  | waiting (fresh : context.decoder = []) (unset : context.lastSequenceId = invalidSequenceId)
    (needs : context.needKeyframe = true) : Decoding zstd streamMeta sent context none
  | following (i : Nat) (inside : i < sent.length) (remembers : context.lastSequenceId = UInt64.ofNat i)
    (needs : context.needKeyframe = false)
    (synced : InSync (streamEncoder streamMeta (sent.take (i + 1))) (decompressorAfter zstd context.decoder)) :
    Decoding zstd streamMeta sent context (some i)

/-- A context has written what the receiver of its sensor has given, and goes on from the same frame. -/
structure Mirrors (zstd : Zstd) (processId : UInt64) (streamMeta : StreamMeta) (topic : Bytes) (sent : List DepthFrame)
    (receiver : Receiver DepthFrame) (context : VideoContext UInt16) : Prop where
  decoding : Decoding zstd streamMeta sent context receiver.last
  output : context.output = receiver.given.map (display processId streamMeta topic)

section
variable {zstd : Zstd} {processId : UInt64} {streamMeta : StreamMeta} {serial topic : Bytes} {sent : List DepthFrame}
  {receiver : Receiver DepthFrame} {context : VideoContext UInt16} {frame : DepthFrame}

theorem unpack_frameRequest (readable : streamMeta.id.serialNumber.str = some serial) (sending : Sending) :
    unpack (makeMessage processId sending.sequenceId sending.env (frameRequest zstd streamMeta topic sent frame)) =
      some (videoOf zstd processId streamMeta serial topic sent frame) := by
  have creation : (makeMessage processId sending.sequenceId sending.env
      (frameRequest zstd streamMeta topic sent frame)).getSimple UInt64 0 = some frame.creationTimestampUs := by
    rw [getSimple_frame (simpleUInt64 frame.creationTimestampUs) rfl (simpleUInt64_length _)]
    exact congrArg some (simpleUInt64_read _ _)
  have sequence : (makeMessage processId sending.sequenceId sending.env
      (frameRequest zstd streamMeta topic sent frame)).getSimple UInt64 1 = some (UInt64.ofNat sent.length) := by
    rw [getSimple_frame (simpleUInt64 (UInt64.ofNat sent.length)) rfl (simpleUInt64_length _)]
    exact congrArg some (simpleUInt64_read _ _)
  have metaHeld : (makeMessage processId sending.sequenceId sending.env
      (frameRequest zstd streamMeta topic sent frame)).getSimple StreamMeta 2 = some streamMeta := by
    rw [getSimple_frame (streamMeta.bytes frame.padding) rfl (streamMeta_length frame.padding streamMeta)]
    exact congrArg some (readStreamMeta_bytes frame.padding streamMeta _)
  have packet : (makeMessage processId sending.sequenceId sending.env
      (frameRequest zstd streamMeta topic sent frame)).frames[3]? = some (fileAfter zstd streamMeta sent frame) := rfl
  have version : (makeMessage processId sending.sequenceId sending.env
      (frameRequest zstd streamMeta topic sent frame)).header.messageVersion = 0 := rfl
  have flag : decide (0 < (makeMessage processId sending.sequenceId sending.env
      (frameRequest zstd streamMeta topic sent frame)).header.flags) = isWhole sent.length frame := by
    change decide (0 < if isWhole sent.length frame = true then (1 : UInt16) else 0) = _
    cases isWhole sent.length frame <;> rfl
  unfold unpack
  simp only [version, ne_eq, not_true_eq_false, if_false, creation, sequence, metaHeld, packet, readable, flag,
    Option.bind_eq_bind, Option.bind_some]
  rfl

theorem toNat_few {n : Nat} (few : n < 2 ^ 64 - 1) : (UInt64.ofNat n).toNat = n :=
  UInt64.toNat_ofNat_of_lt' (Nat.lt_of_lt_of_le few (by decide))

theorem ofNat_ne_invalid {n : Nat} (few : n < 2 ^ 64 - 1) : UInt64.ofNat n ≠ invalidSequenceId := by
  intro same
  have numbers := congrArg UInt64.toNat same
  rw [toNat_few few] at numbers
  have sentinel : invalidSequenceId.toNat = 2 ^ 64 - 1 := rfl
  omega

theorem ofNat_inj {m n : Nat} (first : m < 2 ^ 64 - 1) (second : n < 2 ^ 64 - 1) (same : UInt64.ofNat m = UInt64.ofNat n) :
    m = n := by
  have numbers := congrArg UInt64.toNat same
  rwa [toNat_few first, toNat_few second] at numbers

/-- Before a packet a context either goes on from the frame before it, or waits. -/
theorem Decoding.resync {last : Option Nat} (decoding : Decoding zstd streamMeta sent context last)
    (few : sent.length < 2 ^ 64 - 1) :
    (∃ i, last = some i ∧ i + 1 = sent.length ∧ context.resync (videoOf zstd processId streamMeta serial topic sent frame) = context) ∨
      last.any (· + 1 == sent.length) = false ∧
        Decoding zstd streamMeta sent (context.resync (videoOf zstd processId streamMeta serial topic sent frame)) none := by
  cases decoding with
  | waiting fresh unset needs =>
    have kept : context.dropped (videoOf zstd processId streamMeta serial topic sent frame) = false := by
      simp [VideoContext.dropped, unset]
    rw [VideoContext.resync, if_neg (by simp [kept])]
    exact .inr ⟨rfl, .waiting fresh unset needs⟩
  | following i inside remembers needs synced =>
    by_cases next : i + 1 = sent.length
    · have kept : context.dropped (videoOf zstd processId streamMeta serial topic sent frame) = false := by
        simp [VideoContext.dropped, remembers, ofNat_succ, next, videoOf]
      rw [VideoContext.resync, if_neg (by simp [kept])]
      exact .inl ⟨i, rfl, next, rfl⟩
    · have dropped : context.dropped (videoOf zstd processId streamMeta serial topic sent frame) = true := by
        rw [VideoContext.dropped, remembers, ofNat_succ, Bool.and_eq_true, bne_iff_ne, bne_iff_ne]
        exact ⟨ofNat_ne_invalid (by omega), fun same => next (ofNat_inj (by omega) few same)⟩
      rw [VideoContext.resync, if_pos dropped]
      exact .inr ⟨by simpa using next, .waiting rfl rfl rfl⟩

theorem resync_output (context : VideoContext UInt16) (video : VideoMessage) : (context.resync video).output = context.output := by
  unfold VideoContext.resync
  split <;> rfl

theorem Decoding.lost {last : Option Nat} (decoding : Decoding zstd streamMeta sent context last) (frame : DepthFrame) :
    Decoding zstd streamMeta (sent ++ [frame]) context last := by
  cases decoding with
  | waiting fresh unset needs => exact .waiting fresh unset needs
  | following i inside remembers needs synced =>
    apply Decoding.following i (by rw [List.length_append]; omega) remembers needs
    rwa [List.take_append_of_le_length inside]

theorem decompressorAfter_snoc {packets : List VideoMessage} {video : VideoMessage} {after : DepthCompressor}
    {image : List UInt16} (decompressed : (decompressorAfter zstd packets).decompress zstd video.packet = .ok (after, image)) :
    decompressorAfter zstd (packets ++ [video]) = after := by
  unfold decompressorAfter at decompressed ⊢
  rw [List.foldl_append, List.foldl_cons, List.foldl_nil, decompressed]

/-- A frame that the decoder can go on with is shown. -/
theorem Decoding.shown (sensor : DepthSensor streamMeta)
    (sizes : ∀ frame ∈ sent, frame.data.length = streamMeta.intrinsics.columns * streamMeta.intrinsics.rows)
    (size : frame.data.length = streamMeta.intrinsics.columns * streamMeta.intrinsics.rows)
    (fits : Fits (codedAfter streamMeta sent frame)) {video : VideoMessage}
    (same : video = videoOf zstd processId streamMeta serial topic sent frame)
    (allowed : (context.resync video).needKeyframe = true → isWhole sent.length frame = true)
    (continues : Continues (streamEncoder streamMeta sent) (decompressorAfter zstd (context.resync video).decoder)
      frame.shouldAct) :
    Decoding zstd streamMeta (sent ++ [frame]) (advanced context video (outcomeOf zstd context video)) (some sent.length) ∧
      (advanced context video (outcomeOf zstd context video)).output =
        context.output ++ [display processId streamMeta topic (sent.length, frame)] := by
  obtain ⟨after, decompressed, synced⟩ :=
    @frame_restored zstd _ _ _ _ _ _ sensor.dimensions size (streamEncoder_ready sizes) continues fits
  rw [← streamEncoder_snoc] at synced
  have packet : video.packet = fileAfter zstd streamMeta sent frame := by rw [same]; rfl
  unfold fileAfter at packet
  rw [← packet] at decompressed
  have goes : ((context.resync video).needKeyframe && !video.isKeyframe) = false := by
    have keyframe : video.isKeyframe = isWhole sent.length frame := by rw [same]; rfl
    rw [keyframe]
    cases needs : (context.resync video).needKeyframe with
    | true => rw [allowed needs]; rfl
    | false => rfl
  have step : advanced context video (outcomeOf zstd context video) = ((context.resync video).pass video).write video
      (rounded streamMeta.intrinsics.columns streamMeta.intrinsics.rows frame.data) := by
    unfold advanced outcomeOf
    dsimp only
    rw [decompressed, goes]
    rfl
  rw [step]
  constructor
  · apply Decoding.following sent.length (by rw [List.length_append]; exact Nat.lt_succ_self _)
    · rw [same]
      rfl
    · rfl
    · rw [List.take_of_length_le (by rw [List.length_append]; exact Nat.le_refl _)]
      change InSync _ (decompressorAfter zstd ((context.resync video).decoder ++ [video]))
      rwa [decompressorAfter_snoc decompressed]
  · rw [← resync_output context video, same]
    rfl

/-- With every message of its sensor the context does what the receiver does. -/
theorem Mirrors.receive (mirrors : Mirrors zstd processId streamMeta topic sent receiver context)
    (sensor : DepthSensor streamMeta)
    (sizes : ∀ frame ∈ sent, frame.data.length = streamMeta.intrinsics.columns * streamMeta.intrinsics.rows)
    (size : frame.data.length = streamMeta.intrinsics.columns * streamMeta.intrinsics.rows)
    (fits : Fits (codedAfter streamMeta sent frame)) (few : sent.length < 2 ^ 64 - 1) {video : VideoMessage}
    (same : video = videoOf zstd processId streamMeta serial topic sent frame) :
    Mirrors zstd processId streamMeta topic (sent ++ [frame]) (receiver.receive isWhole linksOn sent.length frame)
      (advanced context video (outcomeOf zstd context video)) := by
  have whole := streamEncoder_whole streamMeta sent frame
  have keyframe : video.isKeyframe = isWhole sent.length frame := by rw [same]; rfl
  have shows (decodes : receiver.decodes isWhole linksOn sent.length frame = true)
      (allowed : (context.resync video).needKeyframe = true → isWhole sent.length frame = true)
      (continues : Continues (streamEncoder streamMeta sent) (decompressorAfter zstd (context.resync video).decoder)
        frame.shouldAct) :
      Mirrors zstd processId streamMeta topic (sent ++ [frame]) (receiver.receive isWhole linksOn sent.length frame)
        (advanced context video (outcomeOf zstd context video)) := by
    obtain ⟨decoding, output⟩ := Decoding.shown sensor sizes size fits same allowed continues
    rw [Receiver.receive, if_pos decodes]
    constructor
    · exact decoding
    · rw [output, mirrors.output, List.map_append]
      rfl
  have refuses (decodes : receiver.decodes isWhole linksOn sent.length frame = false)
      (decoding : Decoding zstd streamMeta sent (advanced context video (outcomeOf zstd context video)) none)
      (output : (advanced context video (outcomeOf zstd context video)).output = context.output) :
      Mirrors zstd processId streamMeta topic (sent ++ [frame]) (receiver.receive isWhole linksOn sent.length frame)
        (advanced context video (outcomeOf zstd context video)) := by
    rw [Receiver.receive, if_neg (by rw [decodes]; exact Bool.false_ne_true)]
    exact ⟨decoding.lost frame, output.trans mirrors.output⟩
  have key (first : isWhole sent.length frame = true) : receiver.decodes isWhole linksOn sent.length frame = true := by
    rw [Receiver.decodes, first, Bool.true_or]
  cases first : isWhole sent.length frame with
  | true => exact shows (key first) (fun _ => first) (.inl (whole.trans first))
  | false =>
    have resync := @Decoding.resync zstd processId _ serial topic _ _ frame _ mirrors.decoding few
    rw [← same] at resync
    cases resync with
    | inl goes =>
      obtain ⟨i, last, next, kept⟩ := goes
      have decoding := mirrors.decoding
      rw [last] at decoding
      cases decoding with
      | following _ inside remembers needs synced =>
        rw [List.take_of_length_le (by omega)] at synced
        have decodes : receiver.decodes isWhole linksOn sent.length frame = linksOn sent.length := by
          rw [Receiver.decodes, first, last, Bool.false_or, Option.any_some, next, beq_self_eq_true, Bool.true_and]
        cases linked : linksOn sent.length with
        | true =>
          have within : ((streamEncoder streamMeta sent).compressedFrameNumber + 1) % 2 ^ 16 ≠ 0 := by
            rw [streamEncoder_number]
            rw [linksOn, bne_iff_ne] at linked
            omega
          apply shows (decodes.trans linked)
          · rw [kept, needs]
            exact fun never => absurd never Bool.false_ne_true
          · rw [kept]
            exact .inr ⟨synced, within⟩
        | false =>
          -- the number of the frame has run over
          have wraps : ((streamEncoder streamMeta sent).compressedFrameNumber + 1) % 2 ^ 16 = 0 := by
            rw [streamEncoder_number]
            rw [linksOn, bne_eq_false_iff_eq] at linked
            omega
          have refused := @frame_refused zstd _ _ _ _ frame.data _ sensor.dimensions synced (whole.trans first) wraps
          have packet : video.packet = fileAfter zstd streamMeta sent frame := by rw [same]; rfl
          unfold fileAfter at packet
          rw [← packet] at refused
          have step : advanced context video (outcomeOf zstd context video) = (context.pass video).reinit := by
            unfold advanced outcomeOf
            dsimp only
            rw [kept, refused, needs]
            rfl
          apply refuses (decodes.trans linked)
          · rw [step]
            exact .waiting rfl rfl rfl
          · rw [step]
            rfl
    | inr stops =>
      obtain ⟨gap, decoding⟩ := stops
      have step : advanced context video (outcomeOf zstd context video) = context.resync video := by
        cases decoding with
        | waiting _ _ needs =>
          unfold advanced
          dsimp only
          rw [needs, keyframe, first]
          rfl
      apply refuses
      · rw [Receiver.decodes, first, gap]
        rfl
      · rw [step]
        exact decoding
      · rw [step, resync_output]

end

/-! The client, for all sensors. -/

/-- The context of a sensor, which is a new one if it is not in the map. -/
def contextOf (thread : VideoThread UInt16) (serial : Bytes) : VideoContext UInt16 := (thread.contexts serial).getD {}

section
variable {zstd : Zstd} {thread : VideoThread UInt16} {video : VideoMessage}

theorem decompressOutcome_eq {message : Message} (unpacked : unpack message = some video) :
    decompressOutcome zstd thread message = outcomeOf zstd (contextOf thread video.serial) video := by
  unfold decompressOutcome
  rw [unpacked]
  rfl

/-- No CHECK fails if the flag of a message is right. -/
theorem receive_advanced (context : VideoContext UInt16) (result : DepthOutcome)
    (checked : video.isKeyframe = true → zdepthIsKeyFrame video.packet = true) : ∃ calls,
    thread.receive depthKind context video result =
      { thread with calls }.store video.serial (advanced context video result) := by
  unfold VideoThread.receive advanced
  dsimp only
  by_cases waits : ((context.resync video).needKeyframe && !video.isKeyframe) = true
  · rw [if_pos waits, if_pos waits]
    exact ⟨thread.calls, rfl⟩
  · have passes : ¬ ((context.resync video).needKeyframe && !depthKind.checkKeyframe video) = true := by
      intro fails
      rw [Bool.and_eq_true, Bool.not_eq_true'] at fails waits
      apply waits
      refine ⟨fails.1, ?_⟩
      by_contra keyframe
      rw [Bool.not_eq_false] at keyframe
      exact absurd ((checked keyframe).symm.trans fails.2) (by decide)
    rw [if_neg waits, if_neg waits, if_neg passes]
    cases result with
    | none => exact ⟨_, rfl⟩
    | some depthOut => exact ⟨_, rfl⟩

/-- The thread is alive, and has a context wherever it has an item. -/
structure Running (thread : VideoThread UInt16) : Prop where
  alive : thread.aborted = false
  items : ∀ serial ∈ thread.items, thread.contexts serial ≠ none

/-- A message moves on the context of its sensor. -/
theorem Running.iterate (running : Running thread) {message : Message} (unpacked : unpack message = some video)
    (checked : video.isKeyframe = true → zdepthIsKeyFrame video.packet = true) (result : DepthOutcome) :
    Running (thread.iterate depthKind (message, result)) ∧
      (thread.iterate depthKind (message, result)).contexts = Function.update thread.contexts video.serial
        (some (advanced (contextOf thread video.serial) video result)) := by
  have stored (items : List Bytes) (calls : List DecoderCall) (context : VideoContext UInt16)
      (held : ∀ serial ∈ items, serial = video.serial ∨ thread.contexts serial ≠ none) :
      Running ({ thread with items, calls }.store video.serial context) := by
    refine ⟨running.alive, ?_⟩
    intro serial member
    by_cases here : serial = video.serial
    · rw [here, store_self]
      simp
    · rw [store_other _ _ here]
      exact (held serial member).resolve_left here
  unfold VideoThread.iterate
  rw [if_neg (by rw [running.alive]; exact Bool.false_ne_true)]
  dsimp only
  rw [unpacked]
  dsimp only
  cases known : thread.contexts video.serial with
  | some context =>
    obtain ⟨calls, step⟩ := @receive_advanced thread _ context result checked
    rw [contextOf, known]
    dsimp only
    rw [step]
    exact ⟨stored thread.items calls _ fun serial member => .inr (running.items serial member), rfl⟩
  | none =>
    have unlisted : thread.items.contains video.serial = false := by
      rw [List.contains_eq_mem, decide_eq_false_iff_not]
      exact fun member => running.items _ member known
    obtain ⟨calls, step⟩ := @receive_advanced { thread with items := thread.items ++ [video.serial] } _ {} result checked
    rw [contextOf, known]
    dsimp only
    rw [unlisted, Bool.and_false, if_neg Bool.false_ne_true, step]
    refine ⟨stored (thread.items ++ [video.serial]) calls _ ?_, rfl⟩
    intro serial member
    rw [List.mem_append, List.mem_singleton] at member
    exact member.symm.imp_right (running.items serial)

end

/-- Every sensor's context does what the receiver of the sensor does. -/
structure Showing (zstd : Zstd) (processId : UInt64) (metas : Int32 → Option StreamMeta) (captured : Captured)
    (thread : VideoThread UInt16) : Prop where
  running : Running thread
  sensors : ∀ uid streamMeta topic serial, metas uid = some streamMeta → streamMeta.id.type = .depth →
    getTopic streamMeta.id = some topic → streamMeta.id.serialNumber.str = some serial →
    Mirrors zstd processId streamMeta topic ((own uid captured).map Prod.fst)
      (Receiver.after isWhole linksOn (own uid captured)) (contextOf thread serial)

section
variable {zstd : Zstd} {processId : UInt64} {metas : Int32 → Option StreamMeta} {captured : Captured}
  {thread : VideoThread UInt16}

theorem showing_new : Showing zstd processId metas [] {} := by
  constructor
  · refine ⟨rfl, ?_⟩
    intro serial member
    cases member
  · exact fun _ _ _ _ _ _ _ _ => ⟨.waiting rfl rfl rfl, rfl⟩

/-- A message that is lost changes nothing. -/
theorem Showing.lost (showing : Showing zstd processId metas captured thread) (frame : DepthFrame) :
    Showing zstd processId metas (captured ++ [(frame, none)]) thread := by
  refine ⟨showing.running, ?_⟩
  intro uid streamMeta topic serial known depth named readable
  have mirrors := showing.sensors uid streamMeta topic serial known depth named readable
  rw [own_snoc]
  by_cases here : frame.uid = uid
  · rw [if_pos here, List.map_append]
    refine ⟨?_, ?_⟩
    · rw [Receiver.after_snoc]
      exact mirrors.decoding.lost frame
    · rw [Receiver.after_snoc]
      exact mirrors.output
  · rw [if_neg here]
    exact mirrors

/-- A message that arrives moves on the receiver of its sensor, and no other one. -/
theorem Showing.receive {frame : DepthFrame} {sending : Sending} {streamMeta : StreamMeta} {topic : Bytes}
    (captures : Captures metas (captured ++ [(frame, some sending)]))
    (known : metas frame.uid = some streamMeta) (sensor : DepthSensor streamMeta)
    (named : getTopic streamMeta.id = some topic) (showing : Showing zstd processId metas captured thread) :
    ∀ message, message = makeMessage processId sending.sequenceId sending.env
        (frameRequest zstd streamMeta topic ((own frame.uid captured).map Prod.fst) frame) →
      Showing zstd processId metas (captured ++ [(frame, some sending)])
        (thread.iterate depthKind (message, decompressOutcome zstd thread message)) := by
  rintro message rfl
  obtain ⟨serial, readable⟩ := sensor.serial
  have unpacked := @unpack_frameRequest zstd processId streamMeta serial topic ((own frame.uid captured).map Prod.fst) frame
    readable sending
  generalize same : videoOf zstd processId streamMeta serial topic ((own frame.uid captured).map Prod.fst) frame = video at unpacked
  have key : video.serial = serial := by rw [← same]; rfl
  have checked : video.isKeyframe = true → zdepthIsKeyFrame video.packet = true := by
    rw [← same]
    exact fun keyframe => (fileAfter_keyframe sensor _ frame).trans keyframe
  rw [decompressOutcome_eq unpacked]
  obtain ⟨running, contexts⟩ := showing.running.iterate unpacked checked (outcomeOf zstd (contextOf thread video.serial) video)
  refine ⟨running, ?_⟩
  intro uid other otherTopic otherSerial otherKnown depth otherNamed otherReadable
  have mirrors := showing.sensors uid other otherTopic otherSerial otherKnown depth otherNamed otherReadable
  rw [own_snoc, contextOf, contexts, key]
  by_cases here : frame.uid = uid
  · subst here
    obtain rfl := Option.some.inj (known.symm.trans otherKnown)
    obtain rfl := Option.some.inj (named.symm.trans otherNamed)
    obtain rfl := Option.some.inj (readable.symm.trans otherReadable)
    have whole := own_snoc frame.uid captured (frame, some sending)
    rw [if_pos rfl] at whole
    have size : frame.data.length = streamMeta.intrinsics.columns * streamMeta.intrinsics.rows := by
      apply own_data captures known
      rw [whole]
      simp
    have few : ((own frame.uid captured).map Prod.fst).length < 2 ^ 64 - 1 := by
      rw [List.length_map]
      exact Nat.lt_of_le_of_lt (own_length frame.uid captured) captures.before.few
    have fits := captures.fits frame.uid streamMeta ((own frame.uid captured).map Prod.fst) frame [] known
      (by rw [whole, List.map_append]; rfl)
    have next := mirrors.receive sensor (own_data captures.before known) size fits few same.symm
    rw [if_pos rfl, List.map_append, Receiver.after_snoc, Function.update_self]
    rwa [List.length_map] at next
  · have apart : otherSerial ≠ serial := by
      rintro rfl
      exact here (captures.distinct frame.uid uid streamMeta other otherSerial known otherKnown sensor.depth depth readable
        otherReadable)
    rw [if_neg here, Function.update_of_ne apart]
    exact mirrors

theorem arriving_snoc {requests : List PublisherRequest} {sendings : List (Option Sending)}
    (count : requests.length = sendings.length) (request : PublisherRequest) (sending : Option Sending) :
    arriving processId (requests ++ [request]) (sendings ++ [sending]) =
      arriving processId requests sendings ++
        (sending.map fun sending => makeMessage processId sending.sequenceId sending.env request).toList := by
  rw [arriving, List.zip_append count, List.filterMap_append]
  cases sending <;> rfl

theorem receiveDepthMessages_snoc (messages : List Message) (message : Message) :
    receiveDepthMessages zstd (messages ++ [message]) =
      (receiveDepthMessages zstd messages).iterate depthKind
        (message, decompressOutcome zstd (receiveDepthMessages zstd messages) message) := by
  rw [receiveDepthMessages, List.foldl_append]
  rfl

/-- The server gets through all frames, and whatever arrives keeps the client in step. -/
theorem streaming_showing (captures : Captures metas captured) : ∃ server,
    processDepthFrames zstd metas (captured.map Prod.fst) = some server ∧ Encoding metas captured server ∧
      Showing zstd processId metas captured
        (receiveDepthMessages zstd (arriving processId server.published (captured.map Prod.snd))) := by
  induction captured using List.reverseRecOn with
  | nil => exact ⟨.start metas, rfl, start_encoding metas, showing_new⟩
  | append_singleton captured entry ih =>
    obtain ⟨server, run, encoding, showing⟩ := ih captures.before
    obtain ⟨streamMeta, topic, after, known, sensor, named, step, published, next⟩ :=
      @processDepthFrame_encoding zstd _ _ _ _ captures encoding
    refine ⟨after, ?_, next, ?_⟩
    · rw [List.map_append, List.map_singleton, processDepthFrames_snoc, run]
      exact step
    · have count : server.published.length = (captured.map Prod.snd).length := by
        rw [List.length_map]
        exact encoding.published
      rw [List.map_append, List.map_singleton, published, arriving_snoc count]
      obtain ⟨frame, sending⟩ := entry
      cases sending with
      | none =>
        rw [Option.map_none, Option.toList_none, List.append_nil]
        exact showing.lost frame
      | some sending =>
        rw [Option.map_some, Option.toList_some, receiveDepthMessages_snoc]
        exact showing.receive captures known sensor named _ rfl

/-- Whatever messages are lost, no CHECK fails at either end, and the client shows of every sensor the frames that can be
decoded: those up to which nothing has been lost since a key frame and no frame number has run over 16 bits. Each is
shown once, in the order of the frames, with its own number and time, as the image that was captured. -/
theorem depth_video_shown (zstd : Zstd) (processId : UInt64) (captures : Captures metas captured) : ∃ server,
    processDepthFrames zstd metas (captured.map Prod.fst) = some server ∧
      (receiveDepthMessages zstd (arriving processId server.published (captured.map Prod.snd))).aborted = false ∧
      ∀ uid streamMeta serial, metas uid = some streamMeta → streamMeta.id.type = .depth →
        streamMeta.id.serialNumber.str = some serial → ∃ topic, ∃ shown : List (Nat × DepthFrame),
        getTopic streamMeta.id = some topic ∧
        (∀ i frame, (i, frame) ∈ shown ↔ Decodable isWhole linksOn (own uid captured) i frame) ∧
        shown.Pairwise (fun one other => one.1 < other.1) ∧
        (contextOf (receiveDepthMessages zstd (arriving processId server.published (captured.map Prod.snd)))
          serial).output = shown.map (display processId streamMeta topic) := by
  obtain ⟨server, run, _, showing⟩ := @streaming_showing zstd processId _ _ captures
  refine ⟨server, run, showing.running.alive, ?_⟩
  intro uid streamMeta serial known depth readable
  obtain ⟨topic, named⟩ := depth_topic depth readable
  have faithful := @after_faithful _ isWhole linksOn (own uid captured)
  have shows := showing.sensors uid streamMeta topic serial known depth named readable
  exact ⟨topic, _, named, faithful.given, faithful.order, shows.output⟩

end

/-! A camera in front of a wall that comes nearer. The second message is lost, so that the third is of no use; the
fourth has a key frame. -/

theorem codedAfter_fits {streamMeta : StreamMeta} {earlier : List DepthFrame} {frame : DepthFrame}
    (scene : ∀ frame ∈ earlier, NearDepths frame.data) (near : NearDepths frame.data) :
    Fits (codedAfter streamMeta earlier frame) := by
  have encoder_near : NearImage (streamEncoder streamMeta earlier).other := by
    cases earlier using List.reverseRecOn with
    | nil =>
      intro value member
      cases member
    | append_singleton earlier last =>
      rw [streamEncoder_snoc]
      exact quantizeDepthImage_near (scene last (by simp))
  exact near_fits (quantizeDepthImage_near near) (previous_near encoder_near _)

def wallMeta : StreamMeta where
  id := { serialNumber := ⟨Vector.replicate 24 55, 3⟩, type := .depth, index := 0 }
  deviceName := ⟨Vector.replicate 24 0, 0⟩
  format := ⟨1⟩
  fps := 30
  intrinsics := { width := 24, height := 16, ppx := 0, ppy := 0, fx := 0, fy := 0 }
  extrinsics := Vector.replicate 16 0
  depthScale := 0

def wallMetas (uid : Int32) : Option StreamMeta := if uid = 1 then some wallMeta else none

def wallFrame (distance : UInt16) (shouldAct : Bool) : DepthFrame where
  uid := 1
  creationTimestampUs := 0
  data := wallAt distance
  shouldAct := shouldAct
  padding := (Vector.replicate 3 0, 0)

def wallSending : Sending := ⟨0, ⟨0, (0, 0), false⟩⟩

def wallVideo : Captured :=
  [(wallFrame 1000 true, some wallSending), (wallFrame 990 false, none), (wallFrame 977 false, some wallSending),
    (wallFrame 960 true, some wallSending)]

theorem wallMetas_known {uid : Int32} {streamMeta : StreamMeta} (known : wallMetas uid = some streamMeta) :
    uid = 1 ∧ streamMeta = wallMeta := by
  obtain ⟨here, ⟨⟩⟩ := Option.ite_none_right_eq_some.mp known
  exact ⟨here, rfl⟩

theorem wallVideo_scene : ∀ entry ∈ wallVideo, entry.1.uid = 1 ∧ ∃ distance : UInt16, distance.toNat < 1900 ∧
    entry.1.data = wallAt distance := by
  simp only [wallVideo, List.forall_mem_cons]
  exact ⟨⟨rfl, 1000, by decide, rfl⟩, ⟨rfl, 990, by decide, rfl⟩, ⟨rfl, 977, by decide, rfl⟩, ⟨rfl, 960, by decide, rfl⟩,
    by simp⟩

theorem wallVideo_captures : Captures wallMetas wallVideo := by
  constructor
  · intro entry member
    obtain ⟨here, distance, _, data⟩ := wallVideo_scene entry member
    refine ⟨wallMeta, by rw [here]; rfl, ⟨rfl, ⟨_, rfl⟩, wall_dimensions⟩, ?_⟩
    rw [data]
    exact List.length_replicate
  · intro uid other streamMeta otherMeta serial known otherKnown _ _ _ _
    exact (wallMetas_known known).1.trans (wallMetas_known otherKnown).1.symm
  · decide
  · intro uid streamMeta earlier frame later _ split
    have near : ∀ other ∈ earlier ++ frame :: later, NearDepths other.data := by
      intro other member
      rw [← split] at member
      obtain ⟨pair, inside, rfl⟩ := List.mem_map.mp member
      obtain ⟨entry, found, rfl⟩ := List.mem_map.mp inside
      obtain ⟨_, distance, near, data⟩ := wallVideo_scene entry (List.mem_of_mem_filter found)
      rw [data]
      exact wallAt_near near
    exact codedAfter_fits (fun frame member => near frame (by simp [member])) (near frame (by simp))

/-- The first frame and the last one are shown. -/
theorem depth_video_shown_wall : ∃ server, processDepthFrames storing wallMetas (wallVideo.map Prod.fst) = some server ∧
    ∃ topic, ∃ shown : List (Nat × DepthFrame),
      (contextOf (receiveDepthMessages storing (arriving 7 server.published (wallVideo.map Prod.snd)))
        [55, 55, 55]).output = shown.map (display 7 wallMeta topic) ∧
      (0, wallFrame 1000 true) ∈ shown ∧ (3, wallFrame 960 true) ∈ shown := by
  obtain ⟨server, run, _, sensors⟩ := depth_video_shown storing 7 wallVideo_captures
  obtain ⟨topic, shown, _, known, _, output⟩ := sensors 1 wallMeta [55, 55, 55] rfl rfl rfl
  exact ⟨server, run, topic, shown, output, (known 0 _).mpr (.start rfl rfl), (known 3 _).mpr (.start rfl rfl)⟩

end AxbyCore.Proofs.DepthStreaming
