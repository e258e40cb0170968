import AxbyCore.Library.Endian
import Mathlib.Data.Nat.Notation

/-! The images of third_party/zdepth/src/zdepth.cpp: their quantisation, the prediction of
a value from those around it, and the two passes over the blocks. An image is row by row. -/

namespace AxbyCore.Zdepth

/-- `kBlockSize` -/
def blockSize : Nat := 8

def azureKinectQuantizeDepth (depth : UInt16) : UInt16 :=
  if depth ≤ 200 then 0 -- too close
  else if depth < 750 then depth - 200
  else if depth < 1500 then 550 + (depth - 750) / 2
  else if depth < 3000 then 925 + (depth - 1500) / 4
  else if depth < 6000 then 1300 + (depth - 3000) / 8
  else if depth < 11840 then 1675 + (depth - 6000) / 16
  else 0 -- too far

def azureKinectDequantizeDepth (quantized : UInt16) : UInt16 :=
  if quantized = 0 then 0
  else if quantized < 550 then quantized + 200
  else if quantized < 925 then 750 + (quantized - 550) * 2
  else if quantized < 1300 then 1500 + (quantized - 925) * 4
  else if quantized < 1675 then 3000 + (quantized - 1300) * 8
  else if quantized < 2040 then 6000 + (quantized - 1675) * 16
  else 0 -- invalid value

def quantizeDepthImage (width height : Nat) (depth : List UInt16) : List UInt16 :=
  (depth.take (width * height)).map azureKinectQuantizeDepth

def dequantizeDepthImage (width height : Nat) (quantized : List UInt16) : List UInt16 :=
  (quantized.take (width * height)).map azureKinectDequantizeDepth

/-! Predictors. -/

/-- The zig-zag code of a difference. -/
def applyPrediction (depth prediction : Int) : BitVec 32 :=
  let delta := BitVec.ofInt 32 (depth - prediction)
  (delta <<< 1) ^^^ (delta.sshiftRight 31)

def undoPrediction (zigzag : BitVec 32) (prediction : Int) : Int :=
  let delta := (zigzag >>> 1) ^^^ -(zigzag &&& 1)
  delta.toInt + prediction

def predictLarger (left0 up0 : Int) : Int := if left0 > up0 then left0 else up0

def predictUp (left0 up0 : Int) : Int := if up0 ≠ 0 then up0 else left0

def predictLeft (left0 up0 : Int) : Int := if left0 ≠ 0 then left0 else up0

def predictUpTrend (left0 up0 up1 : Int) : Int :=
  if up0 ≠ 0 ∧ up1 ≠ 0 then 2 * up0 - up1 else predictLarger left0 up0

def predictLeftTrend (left0 left1 up0 : Int) : Int :=
  if left0 ≠ 0 ∧ left1 ≠ 0 then 2 * left0 - left1 else predictLarger left0 up0

def predictAverage (left0 up0 : Int) : Int :=
  if left0 ≠ 0 ∧ up0 ≠ 0 then (left0 + up0) / 2 else predictLarger left0 up0

def predictPrevFrame (prev0 left0 up0 : Int) : Int := if prev0 ≠ 0 then prev0 else predictLarger left0 up0

/-- The values that a prediction is made from. -/
structure Neighbours where
  left0 : UInt16
  left1 : UInt16
  up0 : UInt16
  up1 : UInt16
  prev0 : UInt16
  deriving DecidableEq, Repr

/-- The value of a pixel for the arithmetic of the predictors. -/
def pixelInt (pixel : UInt16) : Int := pixel.toNat

/-- The prediction by the number of its predictor; larger numbers than there are stand for the first one. -/
def Neighbours.predict (around : Neighbours) (predictor : Nat) : Int :=
  let left0 := pixelInt around.left0
  let left1 := pixelInt around.left1
  let up0 := pixelInt around.up0
  let up1 := pixelInt around.up1
  match predictor with
  | 1 => predictUp left0 up0
  | 2 => predictLeft left0 up0
  | 3 => predictUpTrend left0 up0 up1
  | 4 => predictLeftTrend left0 left1 up0
  | 5 => predictAverage left0 up0
  | 6 => predictPrevFrame (pixelInt around.prev0) left0 up0
  | _ => predictLarger left0 up0

/-- A pixel by its block and its place in the block. -/
structure Pixel where
  ix : Nat
  iy : Nat
  x : Nat
  y : Nat
  deriving DecidableEq, Repr

/-- The loop over the blocks. -/
def blocks (width height : Nat) : List (Nat × Nat) :=
  (List.range (height / blockSize)).flatMap fun iy => (List.range (width / blockSize)).map fun ix => (ix, iy)

/-- The loop over the pixels of a block. -/
def blockPixels (ix iy : Nat) : List Pixel :=
  (List.range blockSize).flatMap fun y => (List.range blockSize).map fun x => ⟨ix, iy, x, y⟩

/-- A block at the left or the upper end of the image, which has no predictor of its own. -/
def border (ix iy : Nat) : Bool := ix == 0 || iy == 0

def Pixel.index (width : Nat) (pixel : Pixel) : Nat :=
  (pixel.iy * blockSize + pixel.y) * width + (pixel.ix * blockSize + pixel.x)

/-- Nothing outside a block is read around the pixels of one at the border. -/
def neighbours (width : Nat) (depth prevDepth : Nat → UInt16) (pixel : Pixel) : Neighbours :=
  let index := pixel.index width
  if border pixel.ix pixel.iy then
    { left0 := if 0 < pixel.x then depth (index - 1) else 0
      left1 := 0
      up0 := if 0 < pixel.y then depth (index - width) else 0
      up1 := 0
      prev0 := 0 }
  else
    { left0 := depth (index - 1)
      left1 := depth (index - 2)
      up0 := depth (index - width)
      up1 := depth (index - width * 2)
      prev0 := prevDepth index }

/-- Whether a value goes to `Edges`, and not to `Surfaces`. -/
def Neighbours.isEdge (around : Neighbours) : Bool := around.left0 == 0 || around.up0 == 0

/-- A pixel of a buffer. -/
def pixelAt (depth : List UInt16) (index : Nat) : UInt16 := depth.getD index 0

/-- A pixel of the previous frame, if there is one. -/
def prevPixelAt (prevDepth : Option (List UInt16)) (index : Nat) : UInt16 := pixelAt (prevDepth.getD []) index

/-! `CompressImage` -/

/-- What an image is compressed to. -/
structure Coded where
  blocks : List UInt8
  edges : List UInt16 := []
  surfaces : List UInt16 := []
  deriving DecidableEq, Repr

section
variable (width : Nat) (depth : List UInt16) (prevDepth : Option (List UInt16))

def zigzagOf (pixel : Pixel) (predictor : Nat) : BitVec 32 :=
  applyPrediction (pixelInt (pixelAt depth (pixel.index width)))
    ((neighbours width (pixelAt depth) (prevPixelAt prevDepth) pixel).predict predictor)

/-- What the predictor adds up to in a block. -/
def predSum (ix iy predictor : Nat) : BitVec 32 :=
  (blockPixels ix iy).foldl (fun sum pixel =>
    if pixelAt depth (pixel.index width) = 0 then sum else sum + zigzagOf width depth prevDepth pixel predictor) 0

/-- The first predictor with the smallest sum, without that of the previous frame in a key frame. -/
def bestPredictor (ix iy : Nat) : Nat :=
  let predCount := if prevDepth.isSome then 7 else 6
  let sum := predSum width depth prevDepth ix iy
  ((List.range' 1 (predCount - 1)).foldl (fun best i => if sum i < best.2 then (i, sum i) else best) (0, sum 0)).1

def pushPixel (predictor : Nat) (coded : Coded) (pixel : Pixel) : Coded :=
  if pixelAt depth (pixel.index width) = 0 then coded
  else
    let zigzag := UInt16.ofNat (zigzagOf width depth prevDepth pixel predictor).toNat
    if (neighbours width (pixelAt depth) (prevPixelAt prevDepth) pixel).isEdge then
      { coded with edges := coded.edges ++ [zigzag] }
    else { coded with surfaces := coded.surfaces ++ [zigzag] }

/-- The place of a block in `Blocks`. -/
def blockIndex (ix iy : Nat) : Nat := (iy - 1) * (width / blockSize - 1) + (ix - 1)

def compressBlock (coded : Coded) (block : Nat × Nat) : Coded :=
  if border block.1 block.2 then (blockPixels block.1 block.2).foldl (pushPixel width depth prevDepth 0) coded
  else
    let best := bestPredictor width depth prevDepth block.1 block.2
    (blockPixels block.1 block.2).foldl (pushPixel width depth prevDepth best)
      { coded with blocks := coded.blocks.set (blockIndex width block.1 block.2) (UInt8.ofNat best) }

def compressImage (height : Nat) : Coded :=
  (blocks width height).foldl (compressBlock width depth prevDepth)
    { blocks := List.replicate ((width / blockSize - 1) * (height / blockSize - 1)) 0 }

end

/-! `DecompressImage` -/

/-- The image in the middle of its decompression. The streams are what is left of them. -/
structure Decoding where
  depth : List UInt16
  edges : List UInt16
  surfaces : List UInt16
  deriving DecidableEq, Repr

section
variable (width : Nat) (prevDepth : Option (List UInt16))

/-- A value that is taken from one of the streams. -/
def restorePixel (depth : List UInt16) (around : Neighbours) (pixel : Pixel) (predictor : Nat) (zigzag : UInt16) :
    List UInt16 :=
  depth.set (pixel.index width)
    (UInt16.ofInt (undoPrediction (BitVec.ofNat 32 zigzag.toNat) (around.predict predictor)))

def pullPixel (predictor : Nat) (decoding : Decoding) (pixel : Pixel) : Option Decoding :=
  if pixelAt decoding.depth (pixel.index width) = 0 then some decoding
  else
    let around := neighbours width (pixelAt decoding.depth) (prevPixelAt prevDepth) pixel
    if around.isEdge then
      match decoding.edges with
      | [] => none
      | zigzag :: edges => some { decoding with
          depth := restorePixel width decoding.depth around pixel predictor zigzag, edges }
    else
      match decoding.surfaces with
      | [] => none
      | zigzag :: surfaces => some { decoding with
          depth := restorePixel width decoding.depth around pixel predictor zigzag, surfaces }

def decompressBlock (blocks : List UInt8) (decoding : Decoding) (block : Nat × Nat) : Option Decoding :=
  let predictor :=
    if border block.1 block.2 then 0 else (blocks.getD (blockIndex width block.1 block.2) 0).toNat
  (blockPixels block.1 block.2).foldlM (pullPixel width prevDepth predictor) decoding

/-- `depth` tells which values are not zero. -/
def decompressImage (height : Nat) (depth : List UInt16) (coded : Coded) : Option (List UInt16) :=
  if coded.blocks.length ≠ (width / blockSize - 1) * (height / blockSize - 1) then none
  else
    ((blocks width height).foldlM (decompressBlock width prevDepth coded.blocks) ⟨depth, coded.edges, coded.surfaces⟩).map
      Decoding.depth

end

end AxbyCore.Zdepth
