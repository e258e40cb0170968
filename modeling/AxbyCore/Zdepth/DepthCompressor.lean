import AxbyCore.Pubsub.Message
import AxbyCore.Realsense.Messages
import AxbyCore.Zdepth.Image

/-! `DepthCompressor` of third_party/zdepth/src/zdepth.cpp, which is an encoder or a
decoder, and the file format between the two. Zstd is a parameter. -/

namespace AxbyCore.Zdepth
open Pubsub Realsense Endian

/-- What the code relies on of Zstd: that data is restored, and `ZSTD_compressBound`. -/
structure Zstd where
  compress : Bytes → Bytes
  decompress : Bytes → Option Bytes
  restores : ∀ data, decompress (compress data) = some data
  bound : ∀ data, (compress data).length ≤ data.length + data.length / 256 + 64

/-- `ZstdDecompress`, which knows how many bytes are to come. -/
def zstdDecompress (zstd : Zstd) (compressed : Bytes) (uncompressedBytes : Nat) : Option Bytes :=
  (zstd.decompress compressed).filter fun data => data.length = uncompressedBytes

/-! Words of 12 bits. -/

def pad12 (data : List UInt16) : List UInt16 := if data.length % 2 ≠ 0 then data ++ [0] else data

/-- The plane of the low bits, which has two words in a byte. -/
def packLow : List UInt16 → Bytes
  | x :: y :: data =>
    UInt8.ofNat ((x.toNat &&& 15) ||| ((y.toNat &&& 15) <<< 4)) :: packLow data
  | _ => []

def pack12 (unpacked : List UInt16) : Bytes := unpacked.map (fun x => UInt8.ofNat (x.toNat >>> 4)) ++ packLow unpacked

def unpackPairs : Bytes → Bytes → List UInt16
  | high0 :: high1 :: highs, low :: lows =>
    UInt16.ofNat ((high0.toNat <<< 4) ||| (low.toNat &&& 15)) ::
      UInt16.ofNat ((high1.toNat <<< 4) ||| (low.toNat >>> 4)) :: unpackPairs highs lows
  | _, _ => []

def unpack12 (packed : Bytes) : List UInt16 :=
  let dataCount := packed.length * 2 / 3
  unpackPairs (packed.take dataCount) (packed.drop dataCount)

/-! Which values are zero, as the places where that changes. -/

/-- The bits of a byte from its lowest one on, after a pixel with `prev`. -/
def encodeZeroBits (prev : Bool) : List UInt16 → List Bool
  | [] => []
  | depth :: rest => ((depth != 0) ^^ prev) :: encodeZeroBits (depth != 0) rest

def packBits (bits : List Bool) : UInt8 :=
  UInt8.ofNat ((List.range 8).foldl (fun sum j => sum ||| ((bits.getD j false).toNat <<< j)) 0)

/-- The loop over the bytes, each of eight pixels. -/
def encodeZeroes (width height : Nat) (depth : List UInt16) : Bytes :=
  let bits := encodeZeroBits false (depth.take (width * height))
  (List.range (width * height / 8)).map fun i => packBits (bits.drop (8 * i))

def decodeZeroBits (prev : Bool) : List Bool → List UInt16
  | [] => []
  | bit :: rest => (if prev ^^ bit then 1 else 0) :: decodeZeroBits (prev ^^ bit) rest

def unpackBits (byte : UInt8) : List Bool := (List.range 8).map fun j => byte.toNat.testBit j

def decodeZeroes (zeroes : Bytes) : List UInt16 := decodeZeroBits false (zeroes.flatMap unpackBits)

/-! The file. -/

/-- `kDepthHeaderBytes` and `kDepthFormatMagic` -/
def depthHeaderBytes : Nat := 40
def depthFormatMagic : UInt8 := 202

/-- The data of a file, with the sizes before the compression. -/
structure Section where
  uncompressedBytes : Nat
  data : Bytes

def zstdCompress (zstd : Zstd) (uncompressed : Bytes) : Section := ⟨uncompressed.length, zstd.compress uncompressed⟩

def Section.sizes (part : Section) : Bytes := little 4 part.uncompressedBytes ++ little 4 part.data.length

def writeCompressedFile (width height : Nat) (keyframe : Bool) (compressedFrameNumber : Nat)
    (zeroes blocks edges surfaces : Section) : Bytes :=
  [depthFormatMagic, if keyframe then 1 else 0] ++ little 2 compressedFrameNumber ++ little 2 width ++ little 2 height ++
    zeroes.sizes ++ blocks.sizes ++ edges.sizes ++ surfaces.sizes ++
    zeroes.data ++ blocks.data ++ edges.data ++ surfaces.data

/-! The compressor. -/

inductive DepthResult where
  | fileTruncated
  | wrongFormat
  | corrupted
  | missingPFrame
  | badDimensions
  | success
  deriving DecidableEq, Repr

/-- `current` and `other` are the two buffers `QuantizedDepth`, by `CurrentFrameIndex`. What a call clears
before it uses it is left out. -/
structure DepthCompressor where
  current : List UInt16 := []
  other : List UInt16 := []
  compressedFrameNumber : Nat := 0
  deriving DecidableEq, Repr

variable (zstd : Zstd)

/-- The file of a quantized image. -/
def compressFile (width height : Nat) (depth : List UInt16) (prevDepth : Option (List UInt16))
    (compressedFrameNumber : Nat) : Bytes :=
  let coded := compressImage width depth prevDepth height
  writeCompressedFile width height prevDepth.isNone compressedFrameNumber
    (zstdCompress zstd (encodeZeroes width height depth)) (zstdCompress zstd coded.blocks)
    (zstdCompress zstd (pack12 (pad12 coded.edges))) (zstdCompress zstd (pack12 (pad12 coded.surfaces)))

/-- `Compress`, and what it writes to `compressed`, which is nothing if the result is `BadDimensions`. -/
def DepthCompressor.compress (compressor : DepthCompressor) (width height : Nat) (unquantizedDepth : List UInt16)
    (keyframe : Bool) : DepthCompressor × Option Bytes :=
  if width % blockSize ≠ 0 ∨ height % blockSize ≠ 0 then (compressor, none)
  else
    -- the first frame has nothing before it
    let keyframe := keyframe || compressor.compressedFrameNumber == 0
    let compressedFrameNumber := (compressor.compressedFrameNumber + 1) % 2 ^ 32
    let depth := quantizeDepthImage width height unquantizedDepth
    let prevDepth := if keyframe then none else some compressor.other
    (⟨compressor.other, depth, compressedFrameNumber⟩,
      some (compressFile zstd width height depth prevDepth compressedFrameNumber))

/-- The part of a file with given sizes. -/
def sectionData (compressed : Bytes) (offset : Nat) (sizes : Nat) : Option Bytes :=
  zstdDecompress zstd ((compressed.drop offset).take (field compressed (sizes + 4) 4)) (field compressed sizes 4)

/-- `Decompress` from the header's dimensions on, when the buffers have been turned. -/
def decompressFile (compressed : Bytes) (width height : Nat) (prevDepth : Option (List UInt16)) :
    Except DepthResult (List UInt16) :=
  if field compressed 16 4 < 2 then .error .corrupted
  else if compressed.length % 2 ^ 32 ≠ (depthHeaderBytes + field compressed 12 4 + field compressed 20 4 +
      field compressed 28 4 + field compressed 36 4) % 2 ^ 32 then .error .fileTruncated
  else
    let blocksData := depthHeaderBytes + field compressed 12 4
    let edgesData := blocksData + field compressed 20 4
    let surfacesData := edgesData + field compressed 28 4
    match sectionData zstd compressed depthHeaderBytes 8, sectionData zstd compressed edgesData 24,
        sectionData zstd compressed surfacesData 32, sectionData zstd compressed blocksData 16 with
    | some zeroes, some edges, some surfaces, some blocks =>
      if zeroes.length ≠ width * height / 8 then .error .corrupted
      else
        match decompressImage width prevDepth height (decodeZeroes zeroes) ⟨blocks, unpack12 edges, unpack12 surfaces⟩ with
        | none => .error .corrupted
        | some depth => .ok depth
    | _, _, _, _ => .error .corrupted

/-- `Decompress` into a buffer that was made for the dimensions it is passed. A decoder that has failed is not
used again. -/
def DepthCompressor.decompress (compressor : DepthCompressor) (compressed : Bytes) :
    Except DepthResult (DepthCompressor × List UInt16) :=
  if compressed.length < depthHeaderBytes then .error .fileTruncated
  else if compressed[0]? ≠ some depthFormatMagic then .error .wrongFormat
  else
    let keyframe := (compressed.getD 1 0) &&& 1 != 0
    let frameNumber := field compressed 2 2
    if !keyframe && frameNumber != (compressor.compressedFrameNumber + 1) % 2 ^ 32 then .error .missingPFrame
    else
      let width := field compressed 4 2
      let height := field compressed 6 2
      if width < 1 ∨ 4096 < width ∨ height < 1 ∨ 4096 < height then .error .corrupted
      else if !keyframe && compressor.other.length != width * height then .error .missingPFrame
      else
        (decompressFile zstd compressed width height (if keyframe then none else some compressor.other)).map fun depth =>
          (⟨compressor.other, depth, frameNumber⟩, dequantizeDepthImage width height depth)

end AxbyCore.Zdepth
