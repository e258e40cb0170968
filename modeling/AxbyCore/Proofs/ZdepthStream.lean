import AxbyCore.Proofs.ZdepthFile

/-! A stream of depth frames through an encoder and a decoder. The decoder has the last frame
of the encoder and the low bits of its number, or else it is at a key frame. -/

namespace AxbyCore.Proofs.Zdepth
open AxbyCore.Zdepth Realsense Endian

/-- What the decoder is to give for an image. -/
def rounded (width height : Nat) (image : List UInt16) : List UInt16 :=
  dequantizeDepthImage width height (quantizeDepthImage width height image)

/-- Whether the encoder makes a key frame. -/
def usesKeyframe (encoder : DepthCompressor) (keyframe : Bool) : Bool := keyframe || encoder.compressedFrameNumber == 0

/-- What the encoder predicts from. -/
def previous (encoder : DepthCompressor) (keyframe : Bool) : Option (List UInt16) :=
  if usesKeyframe encoder keyframe then none else some encoder.other

/-- What the image is coded as. -/
def codedFrame (width height : Nat) (encoder : DepthCompressor) (image : List UInt16) (keyframe : Bool) : Coded :=
  compressImage width (quantizeDepthImage width height image) (previous encoder keyframe) height

/-- The encoder after an image. -/
def nextEncoder (width height : Nat) (encoder : DepthCompressor) (image : List UInt16) : DepthCompressor :=
  ⟨encoder.other, quantizeDepthImage width height image, (encoder.compressedFrameNumber + 1) % 2 ^ 32⟩

def frameFile (zstd : Zstd) (width height : Nat) (encoder : DepthCompressor) (image : List UInt16) (keyframe : Bool) : Bytes :=
  compressFile zstd width height (quantizeDepthImage width height image) (previous encoder keyframe)
    ((encoder.compressedFrameNumber + 1) % 2 ^ 32)

/-- The encoder of a stream, whose frames all have the same dimensions. -/
structure Ready (width height : Nat) (encoder : DepthCompressor) : Prop where
  quantized : Quantized encoder.other
  size : encoder.compressedFrameNumber ≠ 0 → encoder.other.length = width * height

/-- The decoder has what the encoder predicts from. -/
structure InSync (encoder decoder : DepthCompressor) : Prop where
  other : decoder.other = encoder.other
  frameNumber : decoder.compressedFrameNumber = encoder.compressedFrameNumber % 2 ^ 16

section
variable {zstd : Zstd} {width height : Nat} {encoder decoder : DepthCompressor} {image : List UInt16} {keyframe : Bool}

theorem compress_eq (dimensions : Dimensions width height) :
    encoder.compress zstd width height image keyframe =
      (nextEncoder width height encoder image, some (frameFile zstd width height encoder image keyframe)) :=
  if_neg fun bad => by
    cases bad with
    | inl columns => exact columns dimensions.columns
    | inr rows => exact rows dimensions.rows

theorem quantizeDepthImage_quantized (width height : Nat) (image : List UInt16) :
    Quantized (quantizeDepthImage width height image) := by
  intro value member
  obtain ⟨depth, _, rfl⟩ := List.mem_map.mp member
  exact quantize_lt depth

theorem quantizeDepthImage_length (size : image.length = width * height) :
    (quantizeDepthImage width height image).length = width * height := by
  rw [quantizeDepthImage, List.length_map, ← size, List.take_length]

theorem ready_next (size : image.length = width * height) : Ready width height (nextEncoder width height encoder image) :=
  ⟨quantizeDepthImage_quantized width height image, fun _ => quantizeDepthImage_length size⟩

theorem previous_quantized (ready : Ready width height encoder) : Quantized ((previous encoder keyframe).getD []) := by
  unfold previous
  split
  · intro value member
    cases member
  · exact ready.quantized

theorem previous_isNone : (previous encoder keyframe).isNone = usesKeyframe encoder keyframe := by
  unfold previous
  cases usesKeyframe encoder keyframe <;> rfl

/-- Whether the decoder can go on with a frame: it is a key frame, or the next in a row. -/
def Continues (encoder decoder : DepthCompressor) (keyframe : Bool) : Prop :=
  usesKeyframe encoder keyframe = true ∨ InSync encoder decoder ∧ (encoder.compressedFrameNumber + 1) % 2 ^ 16 ≠ 0

/-- The header of a frame as the decoder reads it. -/
structure FrameHeader (file : Bytes) (width height frameNumber : Nat) (keyframe : Bool) : Prop where
  long : depthHeaderBytes ≤ file.length
  magic : file[0]? = some depthFormatMagic
  flags : (file.getD 1 0 &&& 1 != 0) = keyframe
  frameNumber : field file 2 2 = frameNumber % 2 ^ 16
  width : field file 4 2 = width
  height : field file 6 2 = height

theorem frame_header (dimensions : Dimensions width height) :
    FrameHeader (frameFile zstd width height encoder image keyframe) width height
      ((encoder.compressedFrameNumber + 1) % 2 ^ 32) (usesKeyframe encoder keyframe) := by
  have words := file_words width height ((encoder.compressedFrameNumber + 1) % 2 ^ 32) (previous encoder keyframe).isNone
    (zstdCompress zstd (encodeZeroes width height (quantizeDepthImage width height image)))
    (zstdCompress zstd (codedFrame width height encoder image keyframe).blocks)
    (zstdCompress zstd (pack12 (pad12 (codedFrame width height encoder image keyframe).edges)))
    (zstdCompress zstd (pack12 (pad12 (codedFrame width height encoder image keyframe).surfaces)))
  have word : ∀ index value, [(encoder.compressedFrameNumber + 1) % 2 ^ 32, width, height][index]? = some value →
      field (frameFile zstd width height encoder image keyframe) (2 + 2 * index) 2 = value % 2 ^ 16 :=
    fun index value inside => field_row words inside
  have narrow := dimensions.narrow
  have low := dimensions.low
  constructor
  · rw [frameFile, compressFile, file_length]
    omega
  · rfl
  · have flags : (frameFile zstd width height encoder image keyframe).getD 1 0 =
        if (previous encoder keyframe).isNone then 1 else 0 := rfl
    rw [flags, previous_isNone]
    cases usesKeyframe encoder keyframe <;> rfl
  · exact word 0 _ rfl
  · rw [word 1 _ rfl]
    omega
  · rw [word 2 _ rfl]
    omega

/-- Past the header, the decoder is at the pass over the streams. -/
theorem decompress_frame (dimensions : Dimensions width height) (size : image.length = width * height)
    (ready : Ready width height encoder) (continues : Continues encoder decoder keyframe) : ∃ edges surfaces,
    decoder.decompress zstd (frameFile zstd width height encoder image keyframe) =
      match decompressImage width (previous encoder keyframe) height
        ((quantizeDepthImage width height image).map presence)
        (received (codedFrame width height encoder image keyframe) edges surfaces) with
      | none => .error .corrupted
      | some depth => .ok (⟨decoder.other, depth, (encoder.compressedFrameNumber + 1) % 2 ^ 32 % 2 ^ 16⟩,
          dequantizeDepthImage width height depth) := by
  obtain ⟨edges, surfaces, decompressed⟩ := decompressFile_compressFile zstd dimensions
    (quantizeDepthImage_length size) (previous encoder keyframe) ((encoder.compressedFrameNumber + 1) % 2 ^ 32)
  refine ⟨edges, surfaces, ?_⟩
  obtain ⟨long, magic, flags, frameNumber, columns, rows⟩ : FrameHeader
    (frameFile zstd width height encoder image keyframe) width height _ _ := frame_header dimensions
  change decompressFile zstd (frameFile zstd width height encoder image keyframe) width height (previous encoder keyframe) =
    _ at decompressed
  obtain ⟨_, _, narrow, low, inner⟩ := dimensions
  have positive : 0 < width ∧ 0 < height := by
    constructor
    · apply Nat.pos_of_ne_zero
      rintro rfl
      simp at inner
    · apply Nat.pos_of_ne_zero
      rintro rfl
      simp at inner
  have accepted : (!usesKeyframe encoder keyframe && (encoder.compressedFrameNumber + 1) % 2 ^ 32 % 2 ^ 16 !=
      (decoder.compressedFrameNumber + 1) % 2 ^ 32) = false := by
    cases continues with
    | inl key => rw [key]; rfl
    | inr continues =>
      obtain ⟨synced, within⟩ := continues
      rw [synced.frameNumber]
      have next : (encoder.compressedFrameNumber + 1) % 2 ^ 32 % 2 ^ 16 =
          (encoder.compressedFrameNumber % 2 ^ 16 + 1) % 2 ^ 32 := by omega
      rw [next]
      simp
  have buffered : (!usesKeyframe encoder keyframe && decoder.other.length != width * height) = false := by
    cases key : usesKeyframe encoder keyframe with
    | true => rfl
    | false =>
      obtain ⟨synced, _⟩ := continues.resolve_left (by rw [key]; simp)
      have begun : encoder.compressedFrameNumber ≠ 0 := by
        intro zero
        simp [usesKeyframe, zero] at key
      rw [synced.other, ready.size begun]
      simp
  have prev : (if usesKeyframe encoder keyframe then none else some decoder.other) = previous encoder keyframe := by
    unfold previous
    cases key : usesKeyframe encoder keyframe with
    | true => rfl
    | false =>
      obtain ⟨synced, _⟩ := continues.resolve_left (by rw [key]; simp)
      rw [synced.other]
  unfold DepthCompressor.decompress
  dsimp only
  rw [if_neg (Nat.not_lt.mpr long), if_neg (fun differ => differ magic), flags, frameNumber, accepted, columns, rows,
    if_neg (by simp), if_neg (by omega), buffered, if_neg (by simp), prev, decompressed]
  unfold codedFrame
  cases decompressImage width (previous encoder keyframe) height ((quantizeDepthImage width height image).map presence)
    (received (compressImage width (quantizeDepthImage width height image) (previous encoder keyframe) height) edges
      surfaces) with
  | none => rfl
  | some depth => rfl

/-- A frame whose codes fit is decoded, and the two stay in step. -/
theorem frame_restored (dimensions : Dimensions width height) (size : image.length = width * height)
    (ready : Ready width height encoder) (continues : Continues encoder decoder keyframe)
    (fits : Fits (codedFrame width height encoder image keyframe)) :
    ∃ after, decoder.decompress zstd (frameFile zstd width height encoder image keyframe) =
        .ok (after, rounded width height image) ∧ InSync (nextEncoder width height encoder image) after := by
  obtain ⟨edges, surfaces, decompressed⟩ := @decompress_frame zstd _ _ _ _ _ _ dimensions size ready continues
  have restored := image_restored dimensions.columns dimensions.rows (quantizeDepthImage_length size)
    (quantizeDepthImage_quantized width height image) (previous_quantized ready) fits edges surfaces
  change decompressImage width (previous encoder keyframe) height ((quantizeDepthImage width height image).map presence)
    (received (codedFrame width height encoder image keyframe) edges surfaces) = _ at restored
  rw [restored] at decompressed
  exact ⟨_, decompressed, rfl, rfl⟩

theorem pixelAt_dequantized (width height : Nat) (depth : List UInt16) {index : Nat} (inside : index < width * height) :
    pixelAt (dequantizeDepthImage width height depth) index = azureKinectDequantizeDepth (pixelAt depth index) := by
  unfold dequantizeDepthImage pixelAt
  rw [List.getD_eq_getElem?_getD, List.getD_eq_getElem?_getD, List.getElem?_map, List.getElem?_take_of_lt inside]
  cases depth[index]? with
  | none => rfl
  | some value => rfl

/-- A frame with a code that does not fit is not decoded as it was. -/
theorem frame_differs (dimensions : Dimensions width height) (size : image.length = width * height)
    (ready : Ready width height encoder) (continues : Continues encoder decoder keyframe)
    (overflows : ¬ Fits (codedFrame width height encoder image keyframe)) (after : DepthCompressor) :
    decoder.decompress zstd (frameFile zstd width height encoder image keyframe) ≠
      .ok (after, rounded width height image) := by
  obtain ⟨edges, surfaces, decompressed⟩ := @decompress_frame zstd _ _ _ _ _ _ dimensions size ready continues
  have length := quantizeDepthImage_length size
  have quantized := quantizeDepthImage_quantized width height image
  rw [decompressed]
  cases found : decompressImage width (previous encoder keyframe) height
      ((quantizeDepthImage width height image).map presence)
      (received (codedFrame width height encoder image keyframe) edges surfaces) with
  | none => simp
  | some depth =>
    obtain ⟨same, index, inside, present, wrong⟩ :=
      image_differs length quantized (previous_quantized ready) overflows found
    intro equal
    have images := congrArg Prod.snd (Except.ok.inj equal)
    have values : pixelAt (dequantizeDepthImage width height depth) index = pixelAt (rounded width height image) index :=
      congrArg (pixelAt · index) images
    rw [rounded, pixelAt_dequantized _ _ _ inside, pixelAt_dequantized _ _ _ inside] at values
    exact wrong (dequantize_inj (pixelAt_quantized quantized index) present values.symm).symm

/-- A frame that is out of step is refused. -/
theorem frame_refused (dimensions : Dimensions width height) (synced : InSync encoder decoder)
    (key : usesKeyframe encoder keyframe = false) (wraps : (encoder.compressedFrameNumber + 1) % 2 ^ 16 = 0) :
    decoder.decompress zstd (frameFile zstd width height encoder image keyframe) = .error .missingPFrame := by
  obtain ⟨long, magic, flags, frameNumber, _, _⟩ : FrameHeader
    (frameFile zstd width height encoder image keyframe) width height _ _ := frame_header dimensions
  have refused : (!usesKeyframe encoder keyframe && (encoder.compressedFrameNumber + 1) % 2 ^ 32 % 2 ^ 16 !=
      (decoder.compressedFrameNumber + 1) % 2 ^ 32) = true := by
    rw [key, synced.frameNumber, Bool.not_false, Bool.true_and, bne_iff_ne]
    omega
  unfold DepthCompressor.decompress
  dsimp only
  rw [if_neg (Nat.not_lt.mpr long), if_neg (fun differ => differ magic), flags, frameNumber, refused, if_pos rfl]

end

/-! Streams. -/

/-- The images of a stream, each with whether a key frame is asked for. -/
abbrev Frames := List (List UInt16 × Bool)

/-- The files that an encoder makes, if it makes one of every image. -/
def compressAll (zstd : Zstd) (width height : Nat) : DepthCompressor → Frames → Option (List Bytes)
  | _, [] => some []
  | encoder, (image, keyframe) :: frames => do
    let (encoder, file) := encoder.compress zstd width height image keyframe
    return (← file) :: (← compressAll zstd width height encoder frames)

/-- The images that a decoder makes of files, up to the first one that it refuses. -/
def decompressAll (zstd : Zstd) : DepthCompressor → List Bytes → Except DepthResult (List (List UInt16))
  | _, [] => .ok []
  | decoder, file :: files => do
    let (decoder, image) ← decoder.decompress zstd file
    return image :: (← decompressAll zstd decoder files)

/-- Every code fits, and the frame whose number has run over is a key frame. -/
def Sound (width height : Nat) : DepthCompressor → Frames → Prop
  | _, [] => True
  | encoder, (image, keyframe) :: frames =>
    (Fits (codedFrame width height encoder image keyframe) ∧
      (usesKeyframe encoder keyframe = true ∨ (encoder.compressedFrameNumber + 1) % 2 ^ 16 ≠ 0)) ∧
      Sound width height (nextEncoder width height encoder image) frames

section
variable {zstd : Zstd} {width height : Nat} {encoder decoder : DepthCompressor} {frames : Frames}

theorem compressAll_cons (dimensions : Dimensions width height) (image : List UInt16) (keyframe : Bool) :
    compressAll zstd width height encoder ((image, keyframe) :: frames) =
      (compressAll zstd width height (nextEncoder width height encoder image) frames).map
        (frameFile zstd width height encoder image keyframe :: ·) := by
  rw [compressAll, compress_eq dimensions]
  dsimp only
  cases compressAll zstd width height (nextEncoder width height encoder image) frames with
  | none => rfl
  | some files => rfl

theorem decompressAll_cons {file : Bytes} {files : List Bytes} {image : List UInt16} {images : List (List UInt16)} :
    decompressAll zstd decoder (file :: files) = .ok (image :: images) ↔
      ∃ after, decoder.decompress zstd file = .ok (after, image) ∧ decompressAll zstd after files = .ok images := by
  rw [decompressAll]
  cases first : decoder.decompress zstd file with
  | error result => simp [Bind.bind, Except.bind]
  | ok pair =>
    obtain ⟨after, found⟩ := pair
    cases rest : decompressAll zstd after files with
    | error result => simp [Bind.bind, Except.bind, rest]
    | ok others =>
      simp only [Bind.bind, Except.bind, rest, pure, Except.pure, Except.ok.injEq, List.cons.injEq, Prod.mk.injEq]
      constructor
      · intro same
        obtain ⟨rfl, rfl⟩ := same
        exact ⟨after, ⟨rfl, rfl⟩, rest⟩
      · intro same
        obtain ⟨_, ⟨rfl, rfl⟩, again⟩ := same
        rw [rest] at again
        exact ⟨rfl, Except.ok.inj again⟩

/-- The decoder gives every image as it is to if and only if nothing in the stream runs over. -/
theorem stream_step (dimensions : Dimensions width height)
    (sizes : ∀ frame ∈ frames, frame.1.length = width * height) (ready : Ready width height encoder)
    (synced : encoder.compressedFrameNumber = 0 ∨ InSync encoder decoder) {files : List Bytes}
    (compressed : compressAll zstd width height encoder frames = some files) :
    decompressAll zstd decoder files = .ok (frames.map fun frame => rounded width height frame.1) ↔
      Sound width height encoder frames := by
  induction frames generalizing encoder decoder files with
  | nil =>
    obtain rfl := Option.some.inj compressed
    simp [decompressAll, Sound]
  | cons frame frames ih =>
    obtain ⟨image, keyframe⟩ := frame
    have size : image.length = width * height := sizes (image, keyframe) (by simp)
    rw [compressAll_cons dimensions] at compressed
    obtain ⟨later, others, rfl⟩ := Option.map_eq_some_iff.mp compressed
    rw [List.map_cons, decompressAll_cons, Sound]
    have inSync : usesKeyframe encoder keyframe = false → InSync encoder decoder := by
      intro key
      apply synced.resolve_left
      intro zero
      simp [usesKeyframe, zero] at key
    by_cases goes : usesKeyframe encoder keyframe = true ∨ (encoder.compressedFrameNumber + 1) % 2 ^ 16 ≠ 0
    · have continues : Continues encoder decoder keyframe := by
        cases key : usesKeyframe encoder keyframe with
        | true => exact .inl key
        | false => exact .inr ⟨inSync key, goes.resolve_left (by rw [key]; simp)⟩
      by_cases fits : Fits (codedFrame width height encoder image keyframe)
      · obtain ⟨after, decompressed, next⟩ := @frame_restored zstd _ _ _ _ _ _ dimensions size ready continues fits
        have rest := ih (fun frame member => sizes frame (by simp [member])) (ready_next size) (.inr next) others
        rw [← rest]
        constructor
        · intro found
          obtain ⟨again, same, images⟩ := found
          obtain ⟨rfl, _⟩ := Prod.mk.inj (Except.ok.inj (decompressed.symm.trans same))
          exact ⟨⟨fits, goes⟩, images⟩
        · exact fun sound => ⟨after, decompressed, sound.2⟩
      · constructor
        · intro found
          obtain ⟨after, decompressed, _⟩ := found
          exact absurd decompressed (frame_differs dimensions size ready continues fits after)
        · exact fun sound => absurd sound.1.1 fits
    · have key : usesKeyframe encoder keyframe = false := by
        cases key : usesKeyframe encoder keyframe with
        | true => exact absurd (.inl key) goes
        | false => rfl
      have wraps : (encoder.compressedFrameNumber + 1) % 2 ^ 16 = 0 := by
        by_contra within
        exact goes (.inr within)
      constructor
      · intro found
        obtain ⟨after, decompressed, _⟩ := found
        rw [frame_refused dimensions (inSync key) key wraps] at decompressed
        cases decompressed
      · exact fun sound => absurd sound.1.2 goes

theorem ready_new : Ready width height {} := by
  constructor
  · intro value member
    cases member
  · exact fun begun => absurd rfl begun

theorem compressAll_total (zstd : Zstd) (dimensions : Dimensions width height) (encoder : DepthCompressor) (frames : Frames) :
    ∃ files, compressAll zstd width height encoder frames = some files := by
  induction frames generalizing encoder with
  | nil => exact ⟨[], rfl⟩
  | cons frame frames ih =>
    obtain ⟨files, compressed⟩ := ih (nextEncoder width height encoder frame.1)
    exact ⟨_, by rw [compressAll_cons dimensions, compressed]; rfl⟩

/-- A whole stream comes back, each depth as the lower end of its range, if and only if no code needs more than 12 bits
and no frame but a key frame has a number that has run over 16 bits. -/
theorem stream_restored_iff (zstd : Zstd) (dimensions : Dimensions width height)
    (sizes : ∀ frame ∈ frames, frame.1.length = width * height) :
    ∃ files, compressAll zstd width height {} frames = some files ∧
      (decompressAll zstd {} files = .ok (frames.map fun frame => rounded width height frame.1) ↔
        Sound width height {} frames) := by
  obtain ⟨files, compressed⟩ := compressAll_total zstd dimensions {} frames
  exact ⟨files, compressed, stream_step dimensions sizes ready_new (.inl rfl) compressed⟩

end

/-! Near scenes. -/

/-- No depth of an image is 1900 millimetres or more. -/
def NearDepths (image : List UInt16) : Prop := ∀ depth ∈ image, depth.toNat < 1900

section
variable {width height : Nat} {encoder : DepthCompressor} {frames : Frames}

theorem quantizeDepthImage_near {image : List UInt16} (near : NearDepths image) :
    NearImage (quantizeDepthImage width height image) := by
  intro value member
  obtain ⟨depth, inside, rfl⟩ := List.mem_map.mp member
  exact quantize_near (near depth (List.mem_of_mem_take inside))

theorem previous_near (near : NearImage encoder.other) (keyframe : Bool) :
    NearImage ((previous encoder keyframe).getD []) := by
  unfold previous
  split
  · intro value member
    cases member
  · exact near

theorem near_sound (near : NearImage encoder.other) (scene : ∀ frame ∈ frames, NearDepths frame.1)
    (few : encoder.compressedFrameNumber + frames.length < 2 ^ 16) : Sound width height encoder frames := by
  induction frames generalizing encoder with
  | nil => trivial
  | cons frame frames ih =>
    obtain ⟨image, keyframe⟩ := frame
    have image_near : NearImage (quantizeDepthImage width height image) :=
      quantizeDepthImage_near (scene (image, keyframe) (by simp))
    rw [List.length_cons] at few
    refine ⟨⟨near_fits image_near (previous_near near keyframe), .inr (by omega)⟩, ?_⟩
    apply ih image_near fun frame member => scene frame (by simp [member])
    rw [nextEncoder]
    dsimp only
    omega

theorem rounded_pixel {image : List UInt16} {index : Nat} (inside : index < width * height) :
    pixelAt (rounded width height image) index = azureKinectDequantizeDepth (azureKinectQuantizeDepth (pixelAt image index)) := by
  rw [rounded, pixelAt_dequantized _ _ _ inside]
  congr 1
  unfold quantizeDepthImage pixelAt
  rw [List.getD_eq_getElem?_getD, List.getD_eq_getElem?_getD, List.getElem?_map, List.getElem?_take_of_lt inside]
  cases image[index]? with
  | none => rfl
  | some value => rfl

/-- A scene within 1900 millimetres comes back with less than four millimetres taken off each depth, and nothing in the
place of depths up to 200. -/
theorem near_stream_restored (zstd : Zstd) (dimensions : Dimensions width height)
    (sizes : ∀ frame ∈ frames, frame.1.length = width * height) (few : frames.length < 2 ^ 16)
    (scene : ∀ frame ∈ frames, NearDepths frame.1) :
    ∃ files images, compressAll zstd width height {} frames = some files ∧ decompressAll zstd {} files = .ok images ∧
      images = frames.map (fun frame => rounded width height frame.1) ∧
      ∀ frame ∈ frames, ∀ index < width * height,
        ((pixelAt frame.1 index).toNat ≤ 200 → pixelAt (rounded width height frame.1) index = 0) ∧
          (200 < (pixelAt frame.1 index).toNat →
            (pixelAt (rounded width height frame.1) index).toNat ≤ (pixelAt frame.1 index).toNat ∧
              (pixelAt frame.1 index).toNat < (pixelAt (rounded width height frame.1) index).toNat + 4) := by
  have sound : Sound width height {} frames := by
    apply near_sound _ scene (by simpa using few)
    intro value member
    cases member
  obtain ⟨files, compressed⟩ := compressAll_total zstd dimensions {} frames
  refine ⟨files, _, compressed, (stream_step dimensions sizes ready_new (.inl rfl) compressed).mpr sound, rfl, ?_⟩
  intro frame member index inside
  rw [rounded_pixel inside]
  constructor
  · intro close
    have zero : azureKinectQuantizeDepth (pixelAt frame.1 index) = 0 := if_pos (UInt16.le_iff_toNat_le.mpr close)
    rw [zero]
    rfl
  · intro far
    have below : (pixelAt frame.1 index).toNat < 1900 := by
      rw [pixelAt_inside (by rw [sizes frame member]; exact inside)]
      exact scene frame member _ (List.getElem_mem _)
    obtain ⟨above, width⟩ := dequantize_near far (by omega)
    refine ⟨above, ?_⟩
    unfold precision at width
    split_ifs at width <;> omega

end

/-- Zstd that only stores. -/
def storing : Zstd where
  compress := id
  decompress := some
  restores _ := rfl
  bound _ := by simp; omega

/-- A wall in front of the camera, in a frame of three blocks by two. -/
def wallAt (distance : UInt16) : List UInt16 := List.replicate 384 distance

theorem wallAt_near {distance : UInt16} (near : distance.toNat < 1900) : NearDepths (wallAt distance) := by
  intro depth member
  rw [List.eq_of_mem_replicate member]
  exact near

/-- The wall comes nearer. -/
def wall : Frames := [(wallAt 1000, true), (wallAt 990, false), (wallAt 977, false)]

theorem wall_dimensions : Dimensions 24 16 := by
  constructor <;> decide

theorem wall_sizes : ∀ frame ∈ wall, frame.1.length = 24 * 16 := by
  simp only [wall, List.forall_mem_cons]
  exact ⟨List.length_replicate, List.length_replicate, List.length_replicate, by simp⟩

theorem wall_near : ∀ frame ∈ wall, NearDepths frame.1 := by
  simp only [wall, List.forall_mem_cons]
  exact ⟨wallAt_near (by decide), wallAt_near (by decide), wallAt_near (by decide), by simp⟩

theorem near_stream_restored_wall : ∃ files images, compressAll storing 24 16 {} wall = some files ∧
    decompressAll storing {} files = .ok images ∧ images = wall.map (fun frame => rounded 24 16 frame.1) := by
  obtain ⟨files, images, compressed, decompressed, same, _⟩ :=
    near_stream_restored storing wall_dimensions wall_sizes (by decide) wall_near
  exact ⟨files, images, compressed, decompressed, same⟩

theorem stream_restored_iff_wall : ∃ files, compressAll storing 24 16 {} wall = some files ∧
    (decompressAll storing {} files = .ok (wall.map fun frame => rounded 24 16 frame.1) ↔ Sound 24 16 {} wall) :=
  stream_restored_iff storing wall_dimensions wall_sizes

end AxbyCore.Proofs.Zdepth
