import AxbyCore.Proofs.FrameServer

/-! The video messages of the frame server, in the order of the frames that the ring buffers accepted. -/

namespace AxbyCore.Proofs.FrameServer
open Transitions Realsense Pubsub

variable {setup : Setup}

/-- The message of a frame, after the frames that its thread has processed before. -/
def Announces (uidToStreamMeta : Int32 → Option StreamMeta) (earlier : List FrameData) (frameData : FrameData)
    (request : PublisherRequest) : Prop :=
  ∃ streamMeta topic padding data flags, uidToStreamMeta frameData.uid = some streamMeta ∧
    getTopic streamMeta.id = some topic ∧
    request = publishFrames topic 0 [simpleUInt64 frameData.creationTimestampUs,
      simpleUInt64 (UInt64.ofNat (earlier.countP fun other => other.uid == frameData.uid)),
      streamMeta.bytes padding, data] flags

/-- Messages of the first of some frames, one each. -/
structure Numbered (uidToStreamMeta : Int32 → Option StreamMeta) (frames : List FrameData)
    (published : List PublisherRequest) : Prop where
  few : published.length ≤ frames.length
  announces : ∀ i frameData request, frames[i]? = some frameData → published[i]? = some request →
    Announces uidToStreamMeta (frames.take i) frameData request

/-- The encoders' numbers count the frames of their streams. -/
structure Counted (uidToStreamMeta : Int32 → Option StreamMeta) (ids : Int32 → Option UInt64) (frames : List FrameData)
    (published : List PublisherRequest) : Prop where
  ids : ∀ uid id, ids uid = some id → id = UInt64.ofNat (frames.countP fun frameData => frameData.uid == uid)
  length : published.length = frames.length
  numbered : Numbered uidToStreamMeta frames published

variable {uidToStreamMeta : Int32 → Option StreamMeta} {ids : Int32 → Option UInt64} {frames : List FrameData}
  {published : List PublisherRequest}

theorem Numbered.nil (frames : List FrameData) : Numbered uidToStreamMeta frames [] where
  few := Nat.zero_le _
  announces i frameData request _ none := by simp at none

theorem Numbered.append (numbered : Numbered uidToStreamMeta frames published) (more : List FrameData) :
    Numbered uidToStreamMeta (frames ++ more) published := by
  have few := numbered.few
  constructor
  · rw [List.length_append]
    omega
  · intro i frameData request here message
    have inside : i < frames.length := Nat.lt_of_lt_of_le (List.getElem?_eq_some_iff.mp message).1 few
    rw [List.getElem?_append_left inside] at here
    rw [List.take_append_of_le_length (Nat.le_of_lt inside)]
    exact numbered.announces i frameData request here message

/-- One more frame is processed. -/
theorem Counted.next (counted : Counted uidToStreamMeta ids frames published) {frameData : FrameData}
    {request : PublisherRequest} {id : UInt64} (found : ids frameData.uid = some id)
    (announces : Announces uidToStreamMeta frames frameData request) :
    Counted uidToStreamMeta (Function.update ids frameData.uid (some (id + 1))) (frames ++ [frameData])
      (published ++ [request]) := by
  refine ⟨?_, by simp [counted.length], by simp [counted.length], ?_⟩
  · intro uid other known
    rw [List.countP_append, List.countP_singleton]
    by_cases here : uid = frameData.uid
    · subst here
      rw [Function.update_self, Option.some.injEq] at known
      rw [← known, counted.ids _ id found, if_pos (beq_self_eq_true _), UInt64.ofNat_add]
      rfl
    · rw [Function.update_of_ne here] at known
      rw [counted.ids uid other known, if_neg (by simpa using Ne.symm here), Nat.add_zero]
  · intro i other message here found
    rcases Nat.lt_or_ge i frames.length with inside | end_
    · rw [List.getElem?_append_left inside] at here
      rw [List.getElem?_append_left (by rw [counted.length]; exact inside)] at found
      rw [List.take_append_of_le_length (Nat.le_of_lt inside)]
      exact counted.numbered.announces i other message here found
    · have last : i < (frames ++ [frameData]).length := (List.getElem?_eq_some_iff.mp here).1
      have same : i = frames.length := by
        rw [List.length_append, List.length_singleton] at last
        omega
      subst same
      rw [List.getElem?_concat_length, Option.some.injEq] at here
      rw [← counted.length, List.getElem?_concat_length, Option.some.injEq] at found
      rw [← here, ← found, List.take_left]
      exact announces

/-! The two threads that process video. -/

/-- The numbers that color encoders are at. -/
def colorIds {vpx : Vpx} (server : ColorServer vpx) (uid : Int32) : Option UInt64 :=
  (server.encoders uid).map ColorEncoder.sequenceId

def depthIds (server : DepthServer) (uid : Int32) : Option UInt64 := (server.encoders uid).map DepthEncoder.sequenceId

theorem start_color (vpx : Vpx) : Counted uidToStreamMeta (colorIds (.start vpx uidToStreamMeta)) [] [] := by
  refine ⟨fun uid id known => ?_, rfl, .nil []⟩
  rw [colorIds, Option.map_eq_some_iff] at known
  obtain ⟨encoder, made, rfl⟩ := known
  simp only [ColorServer.start] at made
  split at made
  · cases made
  · split at made
    · obtain rfl := Option.some.inj made
      rfl
    · cases made

theorem start_depth : Counted uidToStreamMeta (depthIds (.start uidToStreamMeta)) [] [] := by
  refine ⟨fun uid id known => ?_, rfl, .nil []⟩
  rw [depthIds, Option.map_eq_some_iff] at known
  obtain ⟨encoder, made, rfl⟩ := known
  simp only [DepthServer.start] at made
  split at made
  · cases made
  · split at made
    · obtain rfl := Option.some.inj made
      rfl
    · cases made

/-- What holds of the encoders after one of them is replaced. -/
theorem map_update {α β : Type} (encoders : Int32 → Option α) (uid : Int32) (encoder : α) (f : α → β) :
    (fun other => (Function.update encoders uid (some encoder) other).map f) =
      Function.update (fun other => (encoders other).map f) uid (some (f encoder)) := by
  funext other
  by_cases here : other = uid
  · subst here
    simp
  · simp [Function.update_of_ne here]

theorem Counted.color {vpx : Vpx} {before after : ColorServer vpx} {frameData : FrameData} {reading : Reading}
    (counted : Counted uidToStreamMeta (colorIds before) frames before.published)
    (done : processColorFrame vpx uidToStreamMeta before frameData reading = some after) :
    Counted uidToStreamMeta (colorIds after) (frames ++ [frameData]) after.published := by
  simp only [processColorFrame, Option.bind_eq_bind, Option.bind_eq_some_iff] at done
  obtain ⟨streamMeta, known, topic, named, encoder, found, done⟩ := done
  split at done
  · cases done
  split at done
  · cases done
  split at done
  · cases done
  split at done
  · cases done
  simp only [Option.bind_eq_some_iff] at done
  obtain ⟨coded, _, pkt, _, same⟩ := done
  obtain rfl := Option.some.inj same
  have number : colorIds before frameData.uid = some encoder.sequenceId := by rw [colorIds, found]; rfl
  have announces : Announces uidToStreamMeta frames frameData (publishFrames topic 0
      [simpleUInt64 frameData.creationTimestampUs, simpleUInt64 encoder.sequenceId, streamMeta.bytes reading.padding,
        pkt.bytes] (if reading.shouldAct then 1 else 0)) :=
    ⟨streamMeta, topic, reading.padding, pkt.bytes, _, known, named, by rw [counted.ids _ _ number]⟩
  unfold colorIds
  rw [map_update]
  exact counted.next number announces

theorem Counted.depth {zstd : Zdepth.Zstd} {before after : DepthServer} {frameData : FrameData} {reading : Reading}
    (counted : Counted uidToStreamMeta (depthIds before) frames before.published)
    (done : processDepthFrame zstd uidToStreamMeta before (frameData.depthFrame reading) = some after) :
    Counted uidToStreamMeta (depthIds after) (frames ++ [frameData]) after.published := by
  simp only [processDepthFrame, Option.bind_eq_bind, Option.bind_eq_some_iff] at done
  obtain ⟨streamMeta, known, topic, named, encoder, found, done⟩ := done
  split at done
  · cases done
  obtain rfl := Option.some.inj done
  have number : depthIds before frameData.uid = some encoder.sequenceId := by
    have found : before.encoders frameData.uid = some encoder := found
    rw [depthIds, found]
    rfl
  have announces : ∀ data flags, Announces uidToStreamMeta frames frameData (publishFrames topic 0
      [simpleUInt64 frameData.creationTimestampUs, simpleUInt64 encoder.sequenceId, streamMeta.bytes reading.padding,
        data] flags) :=
    fun data flags => ⟨streamMeta, topic, reading.padding, data, flags, known, named, by rw [counted.ids _ _ number]⟩
  unfold depthIds
  rw [map_update]
  exact counted.next number (announces _ _)

theorem color_counted {processed : List (FrameData × Reading)} {server : ColorServer setup.vpx}
    (folded : processed.foldlM (process setup .color) (startEncoders setup .color) = some server) :
    Counted setup.uidToStreamMeta (colorIds server) (processed.map Prod.fst) server.published := by
  induction processed using List.reverseRecOn generalizing server with
  | nil =>
    obtain rfl := Option.some.inj folded
    exact start_color setup.vpx
  | append_singleton processed entry ih =>
    rw [List.foldlM_append] at folded
    obtain ⟨middle, earlier, done⟩ := Option.bind_eq_some_iff.mp folded
    simp only [List.foldlM_cons, List.foldlM_nil, bind_pure] at done
    rw [List.map_append]
    exact (ih earlier).color done

theorem depth_counted {processed : List (FrameData × Reading)} {server : DepthServer}
    (folded : processed.foldlM (process setup .depth) (startEncoders setup .depth) = some server) :
    Counted setup.uidToStreamMeta (depthIds server) (processed.map Prod.fst) server.published := by
  induction processed using List.reverseRecOn generalizing server with
  | nil =>
    obtain rfl := Option.some.inj folded
    exact start_depth
  | append_singleton processed entry ih =>
    rw [List.foldlM_append] at folded
    obtain ⟨middle, earlier, done⟩ := Option.bind_eq_some_iff.mp folded
    simp only [List.foldlM_cons, List.foldlM_nil, bind_pure] at done
    rw [List.map_append]
    exact (ih earlier).depth done

/-- What a thread has published, of the frames that its ring buffer accepted. -/
theorem Counted.accepted {kind : Kind} {worker : ProcessingPoint} {processed accepted queued : List FrameData}
    (counted : Counted uidToStreamMeta ids processed published)
    (accounted : accepted = processed ++ inHand worker ++ queued) (short : queued.length < capacity kind) :
    Numbered uidToStreamMeta accepted published ∧ accepted.length ≤ published.length + capacity kind := by
  have hand : (inHand worker).length ≤ 1 := by
    cases worker <;> simp [inHand]
  rw [accounted, List.append_assoc]
  refine ⟨counted.numbered.append _, ?_⟩
  rw [List.length_append, List.length_append, counted.length]
  omega

/-- Messages of a video stream leave in the order of its accepted frames. Their sequence ids count those frames from zero
on without a gap, so that a client cannot tell from them that the server has dropped a frame. -/
theorem video_numbered {events : List FrameEvent} {server : FrameServer setup} (run : FrameRun events server) :
    (Numbered setup.uidToStreamMeta (accepted .color server.offers) (ColorServer.published (server.encoders .color)) ∧
      (accepted .color server.offers).length ≤
        (ColorServer.published (server.encoders .color)).length + capacity .color) ∧
    (Numbered setup.uidToStreamMeta (accepted .depth server.offers) (DepthServer.published (server.encoders .depth)) ∧
      (accepted .depth server.offers).length ≤
        (DepthServer.published (server.encoders .depth)).length + capacity .depth) := by
  have invariant := run_invariant run
  obtain ⟨colors, waiting, coded, accounted, short⟩ := invariant.accounted .color
  obtain ⟨depths, queued, compressed, listed, few⟩ := invariant.accounted .depth
  exact ⟨(color_counted coded).accepted accounted short, (depth_counted compressed).accepted listed few⟩

theorem video_numbered_pixel : ∃ (server : FrameServer webcam) (request : PublisherRequest), FrameRun onePixel server ∧
    ColorServer.published (server.encoders .color) = [request] ∧
    Announces webcam.uidToStreamMeta [] ⟨3, 7, pixel⟩ request := by
  have executed : execute FrameServer.next ({} : FrameServer webcam) onePixel = some _ := rfl
  have run := Run.of_execute executed
  exact ⟨_, _, run, rfl, (video_numbered run).1.1.announces 0 _ _ rfl rfl⟩

end AxbyCore.Proofs.FrameServer
