import AxbyCore.Proofs.ZdepthImage

/-! A file of zdepth is read as it was written. The decoder gets the sections back through
Zstd, and an image through the pass over its streams. -/

namespace AxbyCore.Proofs.Zdepth
open AxbyCore.Zdepth Realsense Endian

/-! Reading a part of a file. -/

theorem flatMap_little_length (width : Nat) (values : List Nat) :
    (values.flatMap (little width)).length = width * values.length := by
  induction values with
  | nil => rfl
  | cons value values ih =>
    rw [List.flatMap_cons, List.length_append, little_length, ih, List.length_cons, Nat.mul_succ]
    omega

/-- A number in a row of numbers of the same width. -/
theorem field_row {bytes before after : Bytes} {values : List Nat} {width index value : Nat}
    (layout : bytes = before ++ (values.flatMap (little width) ++ after)) (inside : values[index]? = some value) :
    field bytes (before.length + width * index) width = value % 256 ^ width := by
  have room : width * index + width ≤ (values.flatMap (little width)).length := by
    have below := (List.getElem?_eq_some_iff.mp inside).choose
    rw [flatMap_little_length, ← Nat.mul_succ]
    exact Nat.mul_le_mul_left _ below
  have element := array_element inside (Nat.le_of_eq (Nat.zero_add width))
  rw [Nat.add_zero, Nat.pow_zero, Nat.div_one] at element
  rw [layout, field, List.drop_length_add_append, List.drop_append_of_le_length (by omega),
    List.take_append_of_le_length (by rw [List.length_drop]; omega), element, ofLittle_little]

/-- A section that is where its sizes say. -/
theorem section_read {zstd : Zstd} {file before data after : Bytes} {offset sizes : Nat}
    (layout : file = before ++ (zstd.compress data ++ after)) (place : before.length = offset)
    (uncompressed : field file sizes 4 = data.length)
    (compressed : field file (sizes + 4) 4 = (zstd.compress data).length) :
    sectionData zstd file offset sizes = some data := by
  have slice : (file.drop offset).take (zstd.compress data).length = zstd.compress data := by
    rw [layout, List.drop_left' place, List.take_left]
  rw [sectionData, uncompressed, compressed, slice, zstdDecompress, zstd.restores]
  simp

section
variable (width height frameNumber : Nat) (keyframe : Bool) (zeroes blocks edges surfaces : Section)

theorem file_words : writeCompressedFile width height keyframe frameNumber zeroes blocks edges surfaces =
    [depthFormatMagic, if keyframe then 1 else 0] ++ ([frameNumber, width, height].flatMap (little 2) ++
      (zeroes.sizes ++ blocks.sizes ++ edges.sizes ++ surfaces.sizes ++ zeroes.data ++ blocks.data ++ edges.data ++
        surfaces.data)) := by
  simp [writeCompressedFile]

/-- The words of the header that have the sizes. -/
def sizeWords : List Nat :=
  [zeroes.uncompressedBytes, zeroes.data.length, blocks.uncompressedBytes, blocks.data.length, edges.uncompressedBytes,
    edges.data.length, surfaces.uncompressedBytes, surfaces.data.length]

def headerStart : Bytes :=
  [depthFormatMagic, if keyframe then 1 else 0] ++ little 2 frameNumber ++ little 2 width ++ little 2 height

theorem file_sizes : writeCompressedFile width height keyframe frameNumber zeroes blocks edges surfaces =
    headerStart width height frameNumber keyframe ++ ((sizeWords zeroes blocks edges surfaces).flatMap (little 4) ++
      (zeroes.data ++ blocks.data ++ edges.data ++ surfaces.data)) := by
  simp [writeCompressedFile, headerStart, sizeWords, Section.sizes]

/-- The first bytes of a file. -/
def fileHeader : Bytes :=
  headerStart width height frameNumber keyframe ++ (sizeWords zeroes blocks edges surfaces).flatMap (little 4)

theorem fileHeader_length : (fileHeader width height frameNumber keyframe zeroes blocks edges surfaces).length =
    depthHeaderBytes := by
  simp [fileHeader, headerStart, sizeWords, depthHeaderBytes]

theorem file_parts : writeCompressedFile width height keyframe frameNumber zeroes blocks edges surfaces =
    fileHeader width height frameNumber keyframe zeroes blocks edges surfaces ++
      (zeroes.data ++ (blocks.data ++ (edges.data ++ surfaces.data))) := by
  rw [file_sizes, fileHeader]
  simp only [List.append_assoc]

theorem file_length : (writeCompressedFile width height keyframe frameNumber zeroes blocks edges surfaces).length =
    depthHeaderBytes + zeroes.data.length + blocks.data.length + edges.data.length + surfaces.data.length := by
  simp [writeCompressedFile, Section.sizes, depthHeaderBytes]
  omega

end

section
variable {zstd : Zstd} {width height frameNumber : Nat} {keyframe : Bool} {zeroes blocks edges surfaces : Bytes}

/-- The file of four sections. -/
abbrev fileOf (zstd : Zstd) (width height frameNumber : Nat) (keyframe : Bool) (zeroes blocks edges surfaces : Bytes) : Bytes :=
  writeCompressedFile width height keyframe frameNumber (zstdCompress zstd zeroes) (zstdCompress zstd blocks)
    (zstdCompress zstd edges) (zstdCompress zstd surfaces)

/-- Sections that are small enough for the words of the header. -/
structure Small (zeroes blocks edges surfaces : Bytes) : Prop where
  zeroes : zeroes.length < 2 ^ 26
  blocks : blocks.length < 2 ^ 26
  edges : edges.length < 2 ^ 26
  surfaces : surfaces.length < 2 ^ 26

theorem compressed_small (zstd : Zstd) {data : Bytes} (small : data.length < 2 ^ 26) :
    (zstd.compress data).length < 256 ^ 4 := by
  have bound := zstd.bound data
  omega

/-- The words of the header as the decoder reads them. -/
structure HeaderRead (file : Bytes) (zeroes blocks edges surfaces : Section) : Prop where
  zeroesBytes : field file 8 4 = zeroes.uncompressedBytes
  zeroesData : field file 12 4 = zeroes.data.length
  blocksBytes : field file 16 4 = blocks.uncompressedBytes
  blocksData : field file 20 4 = blocks.data.length
  edgesBytes : field file 24 4 = edges.uncompressedBytes
  edgesData : field file 28 4 = edges.data.length
  surfacesBytes : field file 32 4 = surfaces.uncompressedBytes
  surfacesData : field file 36 4 = surfaces.data.length

theorem header_read (small : Small zeroes blocks edges surfaces) :
    HeaderRead (fileOf zstd width height frameNumber keyframe zeroes blocks edges surfaces) (zstdCompress zstd zeroes)
      (zstdCompress zstd blocks) (zstdCompress zstd edges) (zstdCompress zstd surfaces) := by
  have layout := file_sizes width height frameNumber keyframe (zstdCompress zstd zeroes) (zstdCompress zstd blocks)
    (zstdCompress zstd edges) (zstdCompress zstd surfaces)
  have start : (headerStart width height frameNumber keyframe).length = 8 := by simp [headerStart]
  have word : ∀ index value, (sizeWords (zstdCompress zstd zeroes) (zstdCompress zstd blocks) (zstdCompress zstd edges)
      (zstdCompress zstd surfaces))[index]? = some value → value < 256 ^ 4 →
      field (fileOf zstd width height frameNumber keyframe zeroes blocks edges surfaces) (8 + 4 * index) 4 = value := by
    intro index value inside few
    have read := field_row layout inside
    rwa [start, Nat.mod_eq_of_lt few] at read
  obtain ⟨zeroesSmall, blocksSmall, edgesSmall, surfacesSmall⟩ := small
  constructor
  · exact word 0 _ rfl (Nat.lt_trans zeroesSmall (by decide))
  · exact word 1 _ rfl (compressed_small zstd zeroesSmall)
  · exact word 2 _ rfl (Nat.lt_trans blocksSmall (by decide))
  · exact word 3 _ rfl (compressed_small zstd blocksSmall)
  · exact word 4 _ rfl (Nat.lt_trans edgesSmall (by decide))
  · exact word 5 _ rfl (compressed_small zstd edgesSmall)
  · exact word 6 _ rfl (Nat.lt_trans surfacesSmall (by decide))
  · exact word 7 _ rfl (compressed_small zstd surfacesSmall)

/-- The sections as the decoder finds them. -/
structure SectionsRead (zstd : Zstd) (file zeroes blocks edges surfaces : Bytes) : Prop where
  zeroes : sectionData zstd file depthHeaderBytes 8 = some zeroes
  blocks : sectionData zstd file (depthHeaderBytes + field file 12 4) 16 = some blocks
  edges : sectionData zstd file (depthHeaderBytes + field file 12 4 + field file 20 4) 24 = some edges
  surfaces : sectionData zstd file (depthHeaderBytes + field file 12 4 + field file 20 4 + field file 28 4) 32 = some surfaces

theorem sections_read (small : Small zeroes blocks edges surfaces) :
    SectionsRead zstd (fileOf zstd width height frameNumber keyframe zeroes blocks edges surfaces) zeroes blocks edges
      surfaces := by
  have read : HeaderRead (fileOf zstd width height frameNumber keyframe zeroes blocks edges surfaces) _ _ _ _ :=
    header_read small
  have layout := file_parts width height frameNumber keyframe (zstdCompress zstd zeroes) (zstdCompress zstd blocks)
    (zstdCompress zstd edges) (zstdCompress zstd surfaces)
  have start := fileHeader_length width height frameNumber keyframe (zstdCompress zstd zeroes) (zstdCompress zstd blocks)
    (zstdCompress zstd edges) (zstdCompress zstd surfaces)
  generalize fileHeader width height frameNumber keyframe _ _ _ _ = header at layout start
  constructor
  · exact section_read layout start read.zeroesBytes read.zeroesData
  · rw [← List.append_assoc] at layout
    refine section_read layout ?_ read.blocksBytes read.blocksData
    rw [List.length_append, start, read.zeroesData]
  · rw [← List.append_assoc, ← List.append_assoc] at layout
    refine section_read layout ?_ read.edgesBytes read.edgesData
    rw [List.length_append, List.length_append, start, read.zeroesData, read.blocksData]
  · rw [← List.append_assoc, ← List.append_assoc, ← List.append_assoc, ← List.append_nil (zstdCompress zstd surfaces).data]
      at layout
    refine section_read layout ?_ read.surfacesBytes read.surfacesData
    rw [List.length_append, List.length_append, List.length_append, start, read.zeroesData, read.blocksData, read.edgesData]

end

/-! The image of a file. -/

section
variable {zstd : Zstd} {width height : Nat} {depth : List UInt16} {prevDepth : Option (List UInt16)}

/-- Dimensions that the decoder accepts. -/
structure Dimensions (width height : Nat) : Prop where
  columns : width % blockSize = 0
  rows : height % blockSize = 0
  narrow : width ≤ 4096
  low : height ≤ 4096
  /-- There have to be two blocks that are not at the border. -/
  inner : 2 ≤ (width / blockSize - 1) * (height / blockSize - 1)

theorem encode_length {ι V C τ S : Type} [DecidableEq τ] (code : PredictiveCoding.Code ι V C τ S) (image : Nat → V)
    (stream : τ) (order : List ι) : (code.encode image stream order).length ≤ order.length := by
  induction order with
  | nil => exact Nat.le_refl _
  | cons item order ih =>
    rw [PredictiveCoding.encode_cons, List.length_append, List.length_cons]
    split
    · rw [List.length_singleton]
      omega
    · rw [List.length_nil]
      omega

theorem pixels_length (width height : Nat) :
    (pixels width height).length = (height / blockSize) * (width / blockSize) * 64 := by
  simp [pixels, blocks, blockPixels, blockSize, Nat.mul_assoc]

theorem pack12_small {data : List UInt16} (few : data.length ≤ 2 ^ 24) : (pack12 (pad12 data)).length < 2 ^ 26 := by
  rw [pack12_length]
  unfold pad12
  split
  · rw [List.length_append, List.length_singleton]
    omega
  · omega

theorem image_small (dimensions : Dimensions width height) :
    Small (encodeZeroes width height depth) (compressImage width depth prevDepth height).blocks
      (pack12 (pad12 (compressImage width depth prevDepth height).edges))
      (pack12 (pad12 (compressImage width depth prevDepth height).surfaces)) := by
  obtain ⟨columns, rows, narrow, low, _⟩ := dimensions
  have area : width * height ≤ 4096 * 4096 := Nat.mul_le_mul narrow low
  have inner : (width / blockSize - 1) * (height / blockSize - 1) ≤ 512 * 512 := by
    apply Nat.mul_le_mul <;> unfold blockSize <;> omega
  have count : (pixels width height).length ≤ 2 ^ 24 := by
    have blocks : height / blockSize * (width / blockSize) ≤ 512 * 512 := by
      apply Nat.mul_le_mul <;> unfold blockSize <;> omega
    rw [pixels_length]
    omega
  rw [compressImage_eq]
  constructor
  · rw [encodeZeroes_length]
    omega
  · rw [writtenBlocks_length, List.length_replicate]
    omega
  · exact pack12_small (Nat.le_trans (encode_length _ _ _ _) count)
  · exact pack12_small (Nat.le_trans (encode_length _ _ _ _) count)

/-- What a file is decompressed to is what the pass over its streams gives. -/
theorem decompressFile_compressFile (zstd : Zstd) (dimensions : Dimensions width height)
    (size : depth.length = width * height) (prevDepth : Option (List UInt16)) (frameNumber : Nat) : ∃ edges surfaces,
    decompressFile zstd (compressFile zstd width height depth prevDepth frameNumber) width height prevDepth =
      match decompressImage width prevDepth height (depth.map presence)
        (received (compressImage width depth prevDepth height) edges surfaces) with
      | none => .error .corrupted
      | some image => .ok image := by
  have small : Small (encodeZeroes width height depth) (compressImage width depth prevDepth height).blocks _ _ :=
    image_small dimensions
  obtain ⟨edges, edgesPacked⟩ := unpack12_pad12 (compressImage width depth prevDepth height).edges
  obtain ⟨surfaces, surfacesPacked⟩ := unpack12_pad12 (compressImage width depth prevDepth height).surfaces
  refine ⟨edges, surfaces, ?_⟩
  have bytes : width * height % 8 = 0 := by
    rw [Nat.mul_mod, show width % 8 = 0 from dimensions.columns]
    simp
  have read : HeaderRead (compressFile zstd width height depth prevDepth frameNumber) _ _ _ _ := header_read small
  have sections : SectionsRead zstd (compressFile zstd width height depth prevDepth frameNumber) _ _ _ _ :=
    sections_read small
  have enough : ¬ field (compressFile zstd width height depth prevDepth frameNumber) 16 4 < 2 := by
    rw [read.blocksBytes]
    simp only [zstdCompress, blocks_length, Nat.not_lt]
    exact dimensions.inner
  have whole : (compressFile zstd width height depth prevDepth frameNumber).length =
      depthHeaderBytes + field (compressFile zstd width height depth prevDepth frameNumber) 12 4 +
        field (compressFile zstd width height depth prevDepth frameNumber) 20 4 +
        field (compressFile zstd width height depth prevDepth frameNumber) 28 4 +
        field (compressFile zstd width height depth prevDepth frameNumber) 36 4 := by
    rw [read.zeroesData, read.blocksData, read.edgesData, read.surfacesData]
    exact file_length ..
  unfold decompressFile
  rw [if_neg enough, if_neg (fun differ => differ (by rw [whole])), received]
  cases decoded : decompressImage width prevDepth height (depth.map presence)
      ⟨(compressImage width depth prevDepth height).blocks,
        (compressImage width depth prevDepth height).edges.map twelveBits ++ edges,
        (compressImage width depth prevDepth height).surfaces.map twelveBits ++ surfaces⟩ with
  | none =>
    simp only [sections.zeroes, sections.blocks, sections.edges, sections.surfaces, encodeZeroes_length, ne_eq,
      not_true_eq_false, if_false, zeroes_restored size bytes, edgesPacked, surfacesPacked, decoded]
  | some image =>
    simp only [sections.zeroes, sections.blocks, sections.edges, sections.surfaces, encodeZeroes_length, ne_eq,
      not_true_eq_false, if_false, zeroes_restored size bytes, edgesPacked, surfacesPacked, decoded]

end

end AxbyCore.Proofs.Zdepth
