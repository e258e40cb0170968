import AxbyCore.Library.PredictiveCoding
import AxbyCore.Proofs.ZdepthPacking
import AxbyCore.Proofs.ZdepthPlaces
import Mathlib.Data.List.Induction

/-! The two passes of zdepth over an image are a predictive code and its decoder. An image
comes back from its streams if and only if every code has room in 12 bits. -/

namespace AxbyCore.Proofs.Zdepth
open AxbyCore.Zdepth PredictiveCoding

/-- The code of both passes, for predictors that have been chosen. -/
def imageCode (width : Nat) (prev : Nat → UInt16) (predictor : Pixel → Nat) :
    Code Pixel UInt16 (Neighbours × Nat) Bool UInt16 where
  place := Pixel.index width
  context image pixel := (neighbours width image prev pixel, predictor pixel)
  coded value := value != 0
  stream context := context.1.isEdge
  symbol context value := UInt16.ofNat (applyPrediction (pixelInt value) (context.1.predict context.2)).toNat
  value context zigzag :=
    UInt16.ofInt (undoPrediction (BitVec.ofNat 32 zigzag.toNat) (context.1.predict context.2))

/-! Compression. -/

section
variable {width height : Nat} {depth : List UInt16} {prevDepth : Option (List UInt16)}

/-- The predictor that is used at a pixel. -/
def chosen (width : Nat) (depth : List UInt16) (prevDepth : Option (List UInt16)) (pixel : Pixel) : Nat :=
  if border pixel.ix pixel.iy then 0 else bestPredictor width depth prevDepth pixel.ix pixel.iy

theorem encode_append {ι V C τ S : Type} [DecidableEq τ] (code : Code ι V C τ S) (image : Nat → V) (stream : τ)
    (one two : List ι) : code.encode image stream (one ++ two) = code.encode image stream one ++ code.encode image stream two :=
  List.flatMap_append

/-- The streams of some pixels, behind those of the pixels before. -/
theorem pushPixels_streams {predictor : Pixel → Nat} {number : Nat} {order : List Pixel} (coded : Coded)
    (same : ∀ pixel ∈ order, predictor pixel = number) :
    order.foldl (pushPixel width depth prevDepth number) coded =
      { blocks := coded.blocks
        edges := coded.edges ++ (imageCode width (prevPixelAt prevDepth) predictor).encode (pixelAt depth) true order
        surfaces := coded.surfaces ++
          (imageCode width (prevPixelAt prevDepth) predictor).encode (pixelAt depth) false order } := by
  induction order generalizing coded with
  | nil => simp [Code.encode]
  | cons pixel order ih =>
    rw [List.foldl_cons, ih _ fun other member => same other (by simp [member]), encode_cons, encode_cons]
    unfold pushPixel
    by_cases zero : pixelAt depth (pixel.index width) = 0
    · simp [imageCode, zero]
    · cases edge : (neighbours width (pixelAt depth) (prevPixelAt prevDepth) pixel).isEdge with
      | true => simp [imageCode, zero, edge, same pixel (by simp), zigzagOf]
      | false => simp [imageCode, zero, edge, same pixel (by simp), zigzagOf]

theorem compressBlock_eq (coded : Coded) (block : Nat × Nat) :
    compressBlock width depth prevDepth coded block =
      { blocks :=
          if border block.1 block.2 then coded.blocks
          else coded.blocks.set (blockIndex width block.1 block.2)
            (UInt8.ofNat (bestPredictor width depth prevDepth block.1 block.2))
        edges := coded.edges ++ (imageCode width (prevPixelAt prevDepth) (chosen width depth prevDepth)).encode
          (pixelAt depth) true (blockPixels block.1 block.2)
        surfaces := coded.surfaces ++ (imageCode width (prevPixelAt prevDepth) (chosen width depth prevDepth)).encode
          (pixelAt depth) false (blockPixels block.1 block.2) } := by
  have own : ∀ pixel ∈ blockPixels block.1 block.2, chosen width depth prevDepth pixel =
      if border block.1 block.2 then 0 else bestPredictor width depth prevDepth block.1 block.2 := by
    intro pixel member
    obtain ⟨column, row, _, _⟩ := mem_blockPixels.mp member
    rw [chosen, column, row]
  unfold compressBlock
  cases edge : border block.1 block.2 with
  | true =>
    simp only [edge, if_true] at own
    simp only [if_true, pushPixels_streams coded own]
  | false =>
    simp only [edge, Bool.false_eq_true, if_false] at own
    simp only [Bool.false_eq_true, if_false, pushPixels_streams _ own]

/-- What `Blocks` has after some blocks. -/
def writtenBlocks (width : Nat) (depth : List UInt16) (prevDepth : Option (List UInt16)) (initial : List UInt8)
    (order : List (Nat × Nat)) : List UInt8 :=
  order.foldl (fun written block =>
    if border block.1 block.2 then written
    else written.set (blockIndex width block.1 block.2)
      (UInt8.ofNat (bestPredictor width depth prevDepth block.1 block.2))) initial

theorem compressBlocks_eq (coded : Coded) (order : List (Nat × Nat)) :
    order.foldl (compressBlock width depth prevDepth) coded =
      { blocks := writtenBlocks width depth prevDepth coded.blocks order
        edges := coded.edges ++ (imageCode width (prevPixelAt prevDepth) (chosen width depth prevDepth)).encode
          (pixelAt depth) true (order.flatMap fun block => blockPixels block.1 block.2)
        surfaces := coded.surfaces ++ (imageCode width (prevPixelAt prevDepth) (chosen width depth prevDepth)).encode
          (pixelAt depth) false (order.flatMap fun block => blockPixels block.1 block.2) } := by
  induction order generalizing coded with
  | nil => simp [writtenBlocks, Code.encode]
  | cons block order ih =>
    rw [List.foldl_cons, ih, compressBlock_eq]
    simp only [List.flatMap_cons, encode_append, List.append_assoc, writtenBlocks, List.foldl_cons]

theorem writtenBlocks_length (initial : List UInt8) (order : List (Nat × Nat)) :
    (writtenBlocks width depth prevDepth initial order).length = initial.length := by
  induction order generalizing initial with
  | nil => rfl
  | cons block order ih =>
    rw [writtenBlocks, List.foldl_cons]
    refine (ih _).trans ?_
    split
    · rfl
    · exact List.length_set

theorem bestPredictor_le (ix iy : Nat) : bestPredictor width depth prevDepth ix iy ≤ 6 := by
  have bounded : ∀ (order : List Nat) (sum : Nat → BitVec 32) (best : Nat × BitVec 32), best.1 ≤ 6 →
      (∀ i ∈ order, i ≤ 6) → (order.foldl (fun best i => if sum i < best.2 then (i, sum i) else best) best).1 ≤ 6 := by
    intro order sum
    induction order with
    | nil => exact fun _ start _ => start
    | cons i order ih =>
      intro best start inside
      rw [List.foldl_cons]
      apply ih _ _ fun other member => inside other (by simp [member])
      split
      · exact inside i (by simp)
      · exact start
  unfold bestPredictor
  dsimp only
  apply bounded
  · exact Nat.zero_le 6
  · intro i member
    obtain ⟨_, below⟩ := List.mem_range'_1.mp member
    split at below <;> omega

theorem blockIndex_lt {ix iy : Nat} (member : (ix, iy) ∈ blocks width height) (inner : border ix iy = false) :
    blockIndex width ix iy < (width / blockSize - 1) * (height / blockSize - 1) := by
  obtain ⟨row, column⟩ := mem_blocks.mp member
  obtain ⟨positiveColumn, positiveRow⟩ : ix ≠ 0 ∧ iy ≠ 0 := by simpa [border] using inner
  unfold blockIndex
  calc (iy - 1) * (width / blockSize - 1) + (ix - 1) < (iy - 1) * (width / blockSize - 1) + (width / blockSize - 1) := by
        omega
    _ = (iy - 1 + 1) * (width / blockSize - 1) := (Nat.succ_mul _ _).symm
    _ ≤ (height / blockSize - 1) * (width / blockSize - 1) := Nat.mul_le_mul_right _ (by omega)
    _ = _ := Nat.mul_comm _ _

theorem blockIndex_inj {one two : Nat × Nat} (first : one ∈ blocks width height) (second : two ∈ blocks width height)
    (firstInner : border one.1 one.2 = false) (secondInner : border two.1 two.2 = false)
    (same : blockIndex width one.1 one.2 = blockIndex width two.1 two.2) : one = two := by
  obtain ⟨ix, iy⟩ := one
  obtain ⟨ix', iy'⟩ := two
  obtain ⟨row, column⟩ := mem_blocks.mp first
  obtain ⟨row', column'⟩ := mem_blocks.mp second
  obtain ⟨positiveColumn, positiveRow⟩ : ix ≠ 0 ∧ iy ≠ 0 := by simpa [border] using firstInner
  obtain ⟨positiveColumn', positiveRow'⟩ : ix' ≠ 0 ∧ iy' ≠ 0 := by simpa [border] using secondInner
  unfold blockIndex at same
  dsimp only at same
  have columns : ix - 1 = ix' - 1 := by
    have modulo := congrArg (· % (width / blockSize - 1)) same
    simpa [Nat.mod_eq_of_lt (show ix - 1 < width / blockSize - 1 by omega),
      Nat.mod_eq_of_lt (show ix' - 1 < width / blockSize - 1 by omega)] using modulo
  have rows : iy - 1 = iy' - 1 := by
    rw [columns] at same
    exact Nat.eq_of_mul_eq_mul_right (show 0 < width / blockSize - 1 by omega) (Nat.add_right_cancel same)
  rw [Prod.mk.injEq]
  omega

/-- The predictor of a block is found where it was put. -/
theorem writtenBlocks_getD {initial : List UInt8} {order : List (Nat × Nat)} {block : Nat × Nat}
    (inside : ∀ block ∈ order, block ∈ blocks width height)
    (size : initial.length = (width / blockSize - 1) * (height / blockSize - 1)) (member : block ∈ order)
    (inner : border block.1 block.2 = false) :
    (writtenBlocks width depth prevDepth initial order).getD (blockIndex width block.1 block.2) 0 =
      UInt8.ofNat (bestPredictor width depth prevDepth block.1 block.2) := by
  induction order using List.reverseRecOn with
  | nil => cases member
  | append_singleton order last ih =>
    have earlier := ih fun block member => inside block (by simp [member])
    rw [writtenBlocks, List.foldl_append, List.foldl_cons, List.foldl_nil]
    change (if border last.1 last.2 then writtenBlocks width depth prevDepth initial order
      else (writtenBlocks width depth prevDepth initial order).set _ _).getD _ _ = _
    by_cases same : block = last
    · have length : (writtenBlocks width depth prevDepth initial order).length = initial.length :=
        writtenBlocks_length initial order
      have room := blockIndex_lt (inside block member) inner
      rw [← size, ← length] at room
      subst same
      rw [if_neg (by rw [inner]; simp), List.getD_eq_getElem?_getD, List.getElem?_set_self room]
      rfl
    · have before := earlier ((List.mem_append.mp member).resolve_right (by simpa using same))
      cases lastInner : border last.1 last.2 with
      | true => exact before
      | false =>
        have apart : blockIndex width last.1 last.2 ≠ blockIndex width block.1 block.2 := fun equal =>
          same (blockIndex_inj (inside last (by simp)) (inside block member) lastInner inner equal).symm
        rw [List.getD_eq_getElem?_getD] at before ⊢
        rwa [if_neg (by simp), List.getElem?_set_ne apart]

/-- The predictor that the decoder finds for a pixel. -/
def foundPredictor (width : Nat) (blocks : List UInt8) (pixel : Pixel) : Nat :=
  if border pixel.ix pixel.iy then 0 else (blocks.getD (blockIndex width pixel.ix pixel.iy) 0).toNat

theorem compressImage_eq : compressImage width depth prevDepth height =
    { blocks := writtenBlocks width depth prevDepth
        (List.replicate ((width / blockSize - 1) * (height / blockSize - 1)) 0) (blocks width height)
      edges := (imageCode width (prevPixelAt prevDepth) (chosen width depth prevDepth)).encode (pixelAt depth) true
        (pixels width height)
      surfaces := (imageCode width (prevPixelAt prevDepth) (chosen width depth prevDepth)).encode (pixelAt depth) false
        (pixels width height) } := by
  rw [compressImage, compressBlocks_eq]
  rfl

theorem blocks_length (width height : Nat) (depth : List UInt16) (prevDepth : Option (List UInt16)) :
    (compressImage width depth prevDepth height).blocks.length =
      (width / blockSize - 1) * (height / blockSize - 1) := by
  rw [compressImage_eq]
  exact (writtenBlocks_length _ _).trans List.length_replicate

theorem found_chosen {pixel : Pixel} (member : pixel ∈ pixels width height) :
    foundPredictor width (compressImage width depth prevDepth height).blocks pixel = chosen width depth prevDepth pixel := by
  obtain ⟨row, column, _, _⟩ := mem_pixels.mp member
  rw [compressImage_eq, foundPredictor, chosen]
  cases edge : border pixel.ix pixel.iy with
  | true => rfl
  | false =>
    have few : bestPredictor width depth prevDepth pixel.ix pixel.iy ≤ 6 := bestPredictor_le pixel.ix pixel.iy
    have found : (writtenBlocks width depth prevDepth
        (List.replicate ((width / blockSize - 1) * (height / blockSize - 1)) 0) (blocks width height)).getD
          (blockIndex width pixel.ix pixel.iy) 0 = UInt8.ofNat (bestPredictor width depth prevDepth pixel.ix pixel.iy) :=
      writtenBlocks_getD (fun _ member => member) List.length_replicate (mem_blocks.mpr ⟨row, column⟩) edge
    simp only [Bool.false_eq_true, if_false]
    rw [found, UInt8.toNat_ofNat', Nat.mod_eq_of_lt (by omega)]

end

/-! Decompression. -/

def toDecoder (decoding : Decoding) : Decoder UInt16 Bool UInt16 where
  image := pixelAt decoding.depth
  streams edge := if edge then decoding.edges else decoding.surfaces

theorem pixelAt_set {depth : List UInt16} {index : Nat} (inside : index < depth.length) (value : UInt16) :
    pixelAt (depth.set index value) = Function.update (pixelAt depth) index value := by
  funext other
  unfold pixelAt
  by_cases same : other = index
  · rw [same, Function.update_self, List.getD_eq_getElem?_getD, List.getElem?_set_self inside]
    rfl
  · rw [Function.update_of_ne same, List.getD_eq_getElem?_getD, List.getElem?_set_ne (Ne.symm same),
      List.getD_eq_getElem?_getD]

section
variable {width : Nat} (prevDepth : Option (List UInt16)) {predictor : Pixel → Nat}

theorem pullPixel_decodes {number : Nat} {decoding : Decoding} {pixel : Pixel} (own : predictor pixel = number)
    (inside : pixel.index width < decoding.depth.length) :
    (pullPixel width prevDepth number decoding pixel).map toDecoder =
        (imageCode width (prevPixelAt prevDepth) predictor).decodeItem (toDecoder decoding) pixel ∧
      ∀ after, pullPixel width prevDepth number decoding pixel = some after →
        after.depth.length = decoding.depth.length := by
  unfold pullPixel Code.decodeItem
  by_cases zero : pixelAt decoding.depth (pixel.index width) = 0
  · simp [imageCode, toDecoder, zero]
  · cases edge : (neighbours width (pixelAt decoding.depth) (prevPixelAt prevDepth) pixel).isEdge with
    | true =>
      cases stream : decoding.edges with
      | nil => simp [imageCode, toDecoder, zero, edge, stream]
      | cons zigzag edges =>
        constructor
        · simp only [imageCode, toDecoder, restorePixel, zero, edge, stream, if_true, if_false, bne_iff_ne, ne_eq,
            not_false_eq_true, Option.map_some, pixelAt_set inside, own]
          congr 2
          funext other
          cases other <;> simp
        · simp only [zero, edge, if_true, if_false]
          intro after same
          obtain rfl := Option.some.inj same
          exact List.length_set
    | false =>
      cases stream : decoding.surfaces with
      | nil => simp [imageCode, toDecoder, zero, edge, stream]
      | cons zigzag surfaces =>
        constructor
        · simp only [imageCode, toDecoder, restorePixel, zero, edge, stream, if_true, if_false, bne_iff_ne, ne_eq,
            not_false_eq_true, Option.map_some, pixelAt_set inside, own, Bool.false_eq_true]
          congr 2
          funext other
          cases other <;> simp
        · simp only [zero, edge, if_false, Bool.false_eq_true]
          intro after same
          obtain rfl := Option.some.inj same
          exact List.length_set

theorem pullPixels_decodes {number : Nat} {decoding : Decoding} {order : List Pixel}
    (own : ∀ pixel ∈ order, predictor pixel = number)
    (inside : ∀ pixel ∈ order, pixel.index width < decoding.depth.length) :
    (order.foldlM (pullPixel width prevDepth number) decoding).map toDecoder =
        (imageCode width (prevPixelAt prevDepth) predictor).decode (toDecoder decoding) order ∧
      ∀ after, order.foldlM (pullPixel width prevDepth number) decoding = some after →
        after.depth.length = decoding.depth.length := by
  induction order generalizing decoding with
  | nil =>
    refine ⟨rfl, ?_⟩
    intro after same
    rw [← Option.some.inj same]
  | cons pixel order ih =>
    obtain ⟨item, kept⟩ := pullPixel_decodes prevDepth (own pixel (by simp)) (inside pixel (by simp))
    rw [Code.decode, List.foldlM_cons, List.foldlM_cons, ← item]
    cases first : pullPixel width prevDepth number decoding pixel with
    | none => exact ⟨rfl, fun after impossible => by cases impossible⟩
    | some middle =>
      have length := kept middle first
      obtain ⟨rest, lengths⟩ := @ih middle (fun other member => own other (by simp [member]))
        (fun other member => by rw [length]; exact inside other (by simp [member]))
      exact ⟨rest, fun after decoded => (lengths after decoded).trans length⟩

theorem decode_append {ι V C τ S : Type} [DecidableEq τ] (code : Code ι V C τ S) (decoder : Decoder V τ S)
    (one two : List ι) : code.decode decoder (one ++ two) = (code.decode decoder one).bind fun middle => code.decode middle two :=
  List.foldlM_append

theorem decompressBlocks_decodes {found : List UInt8} {decoding : Decoding} {order : List (Nat × Nat)}
    (own : ∀ block ∈ order, ∀ pixel ∈ blockPixels block.1 block.2, predictor pixel = foundPredictor width found pixel)
    (inside : ∀ block ∈ order, ∀ pixel ∈ blockPixels block.1 block.2, pixel.index width < decoding.depth.length) :
    (order.foldlM (decompressBlock width prevDepth found) decoding).map toDecoder =
        (imageCode width (prevPixelAt prevDepth) predictor).decode (toDecoder decoding)
          (order.flatMap fun block => blockPixels block.1 block.2) ∧
      ∀ after, order.foldlM (decompressBlock width prevDepth found) decoding = some after →
        after.depth.length = decoding.depth.length := by
  induction order generalizing decoding with
  | nil =>
    refine ⟨rfl, ?_⟩
    intro after same
    rw [← Option.some.inj same]
  | cons block order ih =>
    have number : ∀ pixel ∈ blockPixels block.1 block.2, predictor pixel =
        if border block.1 block.2 then 0 else (found.getD (blockIndex width block.1 block.2) 0).toNat := by
      intro pixel member
      obtain ⟨column, row, _, _⟩ := mem_blockPixels.mp member
      rw [own block (by simp) pixel member, foundPredictor, column, row]
    obtain ⟨pulled, kept⟩ := pullPixels_decodes prevDepth number (inside block (by simp))
    rw [List.flatMap_cons, decode_append, List.foldlM_cons, ← pulled]
    change (Option.bind (decompressBlock width prevDepth found decoding block) _).map _ = _ ∧
      ∀ after, Option.bind (decompressBlock width prevDepth found decoding block) _ = _ → _
    cases first : decompressBlock width prevDepth found decoding block with
    | none =>
      rw [decompressBlock] at first
      rw [first]
      exact ⟨rfl, fun after impossible => by cases impossible⟩
    | some middle =>
      have length := kept middle first
      rw [decompressBlock] at first
      rw [first]
      obtain ⟨rest, lengths⟩ := @ih middle (fun other member => own other (by simp [member]))
        (fun other member pixel within => by rw [length]; exact inside other (by simp [member]) pixel within)
      exact ⟨rest, fun after decoded => (lengths after decoded).trans length⟩

end

/-! Round trip. -/

/-- Every code of an image has room in a word of 12 bits. -/
def Fits (coded : Coded) : Prop := ∀ zigzag ∈ coded.edges ++ coded.surfaces, zigzag.toNat < 4096

/-- Values that the quantisation can give. -/
def Quantized (depth : List UInt16) : Prop := ∀ value ∈ depth, value.toNat < 2040

section
variable {width height : Nat} {depth : List UInt16} {prevDepth : Option (List UInt16)}

theorem pixelAt_inside {index : Nat} (inside : index < depth.length) : pixelAt depth index = depth[index] := by
  rw [pixelAt, List.getD_eq_getElem?_getD, List.getElem?_eq_getElem inside, Option.getD_some]

theorem pixelAt_quantized (quantized : Quantized depth) (index : Nat) : (pixelAt depth index).toNat < 2040 := by
  rw [pixelAt, List.getD_eq_getElem?_getD]
  cases found : depth[index]? with
  | none => simp
  | some value => exact quantized value (List.mem_of_getElem? found)

theorem neighbours_valid {prev : Nat → UInt16} (quantized : Quantized depth) (prevQuantized : ∀ index, (prev index).toNat < 2040)
    (pixel : Pixel) : Valid (neighbours width (pixelAt depth) prev pixel) := by
  have value := pixelAt_quantized quantized
  unfold neighbours
  dsimp only
  split
  · constructor <;> dsimp only <;> (try split) <;> first | exact value _ | decide
  · exact ⟨value _, value _, value _, value _, prevQuantized _⟩

/-- The code of the encoder. -/
abbrev encoderCode (width : Nat) (depth : List UInt16) (prevDepth : Option (List UInt16)) :
    Code Pixel UInt16 (Neighbours × Nat) Bool UInt16 :=
  imageCode width (prevPixelAt prevDepth) (chosen width depth prevDepth)

theorem survives_iff (quantized : Quantized depth) (prevQuantized : Quantized (prevDepth.getD [])) (pixel : Pixel) :
    (encoderCode width depth prevDepth).Survives (pixelAt depth) twelveBits pixel ↔
      (pixelAt depth (pixel.index width) ≠ 0 →
        ((encoderCode width depth prevDepth).symbol ((encoderCode width depth prevDepth).context (pixelAt depth) pixel)
          (pixelAt depth (pixel.index width))).toNat < 4096) := by
  have valid : Valid (neighbours width (pixelAt depth) (prevPixelAt prevDepth) pixel) :=
    neighbours_valid quantized (pixelAt_quantized prevQuantized) pixel
  obtain ⟨above, below⟩ := predict_bounds valid (chosen width depth prevDepth pixel)
  have restored := restored_iff (pixelAt_quantized quantized (pixel.index width)) above below
  unfold Code.Survives
  simp only [encoderCode, imageCode, bne_iff_ne]
  exact imp_congr_right fun _ => restored

theorem mem_encode {ι V C τ S : Type} [DecidableEq τ] {code : Code ι V C τ S} {image : Nat → V} {stream : τ}
    {order : List ι} {symbol : S} : symbol ∈ code.encode image stream order ↔
      ∃ item ∈ order, code.coded (image (code.place item)) = true ∧ code.stream (code.context image item) = stream ∧
        code.symbol (code.context image item) (image (code.place item)) = symbol := by
  simp only [Code.encode, List.mem_flatMap]
  constructor
  · intro found
    obtain ⟨item, member, inside⟩ := found
    split at inside
    next taken => exact ⟨item, member, taken.1, taken.2, (List.mem_singleton.mp inside).symm⟩
    next => cases inside
  · intro found
    obtain ⟨item, member, present, chosen, rfl⟩ := found
    exact ⟨item, member, by rw [if_pos ⟨present, chosen⟩]; exact List.mem_singleton_self _⟩

theorem fits_iff (quantized : Quantized depth) (prevQuantized : Quantized (prevDepth.getD [])) :
    Fits (compressImage width depth prevDepth height) ↔
      ∀ pixel ∈ pixels width height, (encoderCode width depth prevDepth).Survives (pixelAt depth) twelveBits pixel := by
  simp only [survives_iff quantized prevQuantized, Fits, compressImage_eq, List.mem_append]
  constructor
  · intro fits pixel member present
    apply fits
    cases edge : (encoderCode width depth prevDepth).stream
        ((encoderCode width depth prevDepth).context (pixelAt depth) pixel) with
    | true => exact .inl (mem_encode.mpr ⟨pixel, member, by simpa [imageCode] using present, edge, rfl⟩)
    | false => exact .inr (mem_encode.mpr ⟨pixel, member, by simpa [imageCode] using present, edge, rfl⟩)
  · intro few zigzag member
    cases member with
    | inl member =>
      obtain ⟨pixel, inside, present, _, rfl⟩ := mem_encode.mp member
      exact few pixel inside (by simpa [imageCode] using present)
    | inr member =>
      obtain ⟨pixel, inside, present, _, rfl⟩ := mem_encode.mp member
      exact few pixel inside (by simpa [imageCode] using present)

theorem encoder_causal : (encoderCode width depth prevDepth).Causal (pixels width height) := by
  intro earlier pixel later order one two agree
  exact Prod.ext (neighbours_congr order agree) rfl

theorem pixelAt_presence (depth : List UInt16) (index : Nat) :
    pixelAt (depth.map presence) index = presence (pixelAt depth index) := by
  unfold pixelAt
  rw [List.getD_eq_getElem?_getD, List.getD_eq_getElem?_getD, List.getElem?_map]
  cases depth[index]? with
  | none => rfl
  | some value => rfl

/-- What the decoder has of a coded image: the words of 12 bits, with padding. -/
def received (coded : Coded) (edges surfaces : List UInt16) : Coded where
  blocks := coded.blocks
  edges := coded.edges.map twelveBits ++ edges
  surfaces := coded.surfaces.map twelveBits ++ surfaces

/-- The decoder before the first pixel. -/
def started (width height : Nat) (depth : List UInt16) (prevDepth : Option (List UInt16)) (edges surfaces : List UInt16) :
    Decoding :=
  let coded := received (compressImage width depth prevDepth height) edges surfaces
  ⟨depth.map presence, coded.edges, coded.surfaces⟩

theorem started_follows (edges surfaces : List UInt16) :
    (encoderCode width depth prevDepth).Follows (pixelAt depth) twelveBits (fun edge => if edge then edges else surfaces) []
      (pixels width height) (toDecoder (started width height depth prevDepth edges surfaces)) := by
  refine ⟨fun _ member => (List.not_mem_nil member).elim, ⟨?_, ?_⟩, ?_⟩
  · intro pixel _
    simp only [imageCode, toDecoder, started, pixelAt_presence, presence]
    split
    next zero => rw [zero]
    next present => simp [present]
  · intro pixel _ absent
    have zero : pixelAt depth (pixel.index width) = 0 := by simpa [imageCode] using absent
    simp only [imageCode, toDecoder, started, pixelAt_presence, presence, zero, if_true]
  · intro edge
    rw [started, compressImage_eq]
    cases edge with
    | true => rfl
    | false => rfl

/-- The decoder is that of the code. -/
theorem decompress_decodes (size : depth.length = width * height) (edges surfaces : List UInt16) :
    ∃ decoded : Option Decoding,
      decompressImage width prevDepth height (depth.map presence)
          (received (compressImage width depth prevDepth height) edges surfaces) = decoded.map Decoding.depth ∧
        decoded.map toDecoder = (encoderCode width depth prevDepth).decode
          (toDecoder (started width height depth prevDepth edges surfaces)) (pixels width height) ∧
        ∀ after, decoded = some after → after.depth.length = depth.length := by
  refine ⟨_, if_neg (fun differ => differ (blocks_length width height depth prevDepth)), ?_⟩
  have presences : (depth.map presence).length = depth.length := List.length_map _
  rw [← presences]
  apply decompressBlocks_decodes
  · intro block member pixel inside
    exact (found_chosen (List.mem_flatMap.mpr ⟨block, member, inside⟩)).symm
  · intro block member pixel inside
    dsimp only
    rw [presences, size]
    exact index_lt (List.mem_flatMap.mpr ⟨block, member, inside⟩)

/-- An image whose codes fit is restored. -/
theorem image_restored (columns : width % blockSize = 0) (rows : height % blockSize = 0)
    (size : depth.length = width * height) (quantized : Quantized depth) (prevQuantized : Quantized (prevDepth.getD []))
    (fits : Fits (compressImage width depth prevDepth height)) (edges surfaces : List UInt16) :
    decompressImage width prevDepth height (depth.map presence)
      (received (compressImage width depth prevDepth height) edges surfaces) = some depth := by
  obtain ⟨decoded, decompressed, same, lengths⟩ := decompress_decodes size edges surfaces
  obtain ⟨after, finished, follows⟩ := decode_restores encoder_causal (places_nodup width height)
    (started_follows edges surfaces) ((fits_iff quantized prevQuantized).mp fits)
  rw [decompressed]
  obtain ⟨decoding, rfl, rfl⟩ := Option.map_eq_some_iff.mp (same.trans finished)
  have length := lengths decoding rfl
  have values : ∀ index < width * height, pixelAt decoding.depth index = pixelAt depth index := by
    intro index inside
    obtain ⟨pixel, member, rfl⟩ := exists_pixel columns rows inside
    exact follows.restored pixel member
  rw [Option.map_some, Option.some_inj]
  apply List.ext_getElem length
  intro index one two
  have value := values index (by rw [← size]; exact two)
  rwa [pixelAt_inside one, pixelAt_inside two] at value

/-- An image with a code that does not fit is wrong somewhere, if it comes back at all. -/
theorem image_differs (size : depth.length = width * height) (quantized : Quantized depth)
    (prevQuantized : Quantized (prevDepth.getD [])) (overflows : ¬ Fits (compressImage width depth prevDepth height))
    {edges surfaces image : List UInt16}
    (decompressed : decompressImage width prevDepth height (depth.map presence)
      (received (compressImage width depth prevDepth height) edges surfaces) = some image) :
    image.length = depth.length ∧
      ∃ index < width * height, pixelAt depth index ≠ 0 ∧ pixelAt image index ≠ pixelAt depth index := by
  obtain ⟨decoded, result, same, lengths⟩ := decompress_decodes size edges surfaces
  obtain ⟨decoding, rfl, rfl⟩ := Option.map_eq_some_iff.mp (result.symm.trans decompressed)
  refine ⟨lengths decoding rfl, ?_⟩
  have lost : ∃ pixel ∈ pixels width height, ¬ (encoderCode width depth prevDepth).Survives (pixelAt depth) twelveBits pixel := by
    by_contra kept
    apply overflows
    apply (fits_iff quantized prevQuantized).mpr
    intro pixel member
    by_contra gone
    exact kept ⟨pixel, member, gone⟩
  obtain ⟨pixel, member, present, wrong⟩ := decode_differs encoder_causal (places_nodup width height)
    (started_follows edges surfaces) same.symm lost
  exact ⟨pixel.index width, index_lt member, by simpa [imageCode] using present, wrong⟩

end

/-! Near images. -/

/-- The quantised values of depths below 1900 millimetres. -/
def NearImage (depth : List UInt16) : Prop := ∀ value ∈ depth, value.toNat ≤ nearest

theorem pixelAt_near {depth : List UInt16} (near : NearImage depth) (index : Nat) : (pixelAt depth index).toNat ≤ nearest := by
  rw [pixelAt, List.getD_eq_getElem?_getD]
  cases found : depth[index]? with
  | none => exact Nat.zero_le _
  | some value => exact near value (List.mem_of_getElem? found)

theorem neighbours_near {width : Nat} {depth : List UInt16} {prev : Nat → UInt16} (near : NearImage depth)
    (prevNear : ∀ index, (prev index).toNat ≤ nearest) (pixel : Pixel) :
    Near (neighbours width (pixelAt depth) prev pixel) := by
  have value := pixelAt_near near
  unfold neighbours
  dsimp only
  split
  · constructor <;> dsimp only <;> (try split) <;> first | exact value _ | exact Nat.zero_le _
  · exact ⟨value _, value _, value _, value _, prevNear _⟩

theorem near_fits {width height : Nat} {depth : List UInt16} {prevDepth : Option (List UInt16)} (near : NearImage depth)
    (prevNear : NearImage (prevDepth.getD [])) : Fits (compressImage width depth prevDepth height) := by
  have code : ∀ pixel stream, ∀ zigzag, (encoderCode width depth prevDepth).coded (pixelAt depth (pixel.index width)) = true →
      (encoderCode width depth prevDepth).stream ((encoderCode width depth prevDepth).context (pixelAt depth) pixel) = stream →
      (encoderCode width depth prevDepth).symbol ((encoderCode width depth prevDepth).context (pixelAt depth) pixel)
        (pixelAt depth (pixel.index width)) = zigzag → zigzag.toNat < 4096 := by
    intro pixel _ zigzag present _ same
    have around : Near (neighbours width (pixelAt depth) (prevPixelAt prevDepth) pixel) :=
      neighbours_near near (pixelAt_near prevNear) pixel
    obtain ⟨above, below⟩ := predict_near around (chosen width depth prevDepth pixel)
    rw [← same]
    exact code_near (by simpa [imageCode] using present) (pixelAt_near near _) above below
  intro zigzag member
  rw [compressImage_eq, List.mem_append] at member
  cases member with
  | inl member =>
    obtain ⟨pixel, _, present, stream, same⟩ := mem_encode.mp member
    exact code pixel _ zigzag present stream same
  | inr member =>
    obtain ⟨pixel, _, present, stream, same⟩ := mem_encode.mp member
    exact code pixel _ zigzag present stream same

end AxbyCore.Proofs.Zdepth
