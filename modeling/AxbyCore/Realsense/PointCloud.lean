import AxbyCore.Realsense.VideoClient

/-! `make_xyzs_and_rgbs_from_rgbd` of rgbd/rgbd.cpp, as the job of
realsense_streaming/pointcloud_job.cpp calls it. Floats are kept as their bits, and what
their arithmetic gives is a parameter. -/

namespace AxbyCore.Realsense

abbrev DepthData := VideoData UInt16
abbrev ColorData := VideoData UInt8
abbrev Xyz := UInt32 × UInt32 × UInt32

/-- The floating-point arithmetic, on the metadata of the depth and of the color image. `lift`
is nothing when a CHECK of `xy_from_depth` fails; `project` gives a pixel of the color image. -/
structure Geometry where
  lift : (depth : StreamMeta) → (xidx yidx : Nat) → (zi : UInt16) → Option Xyz
  project : (depth color : StreamMeta) → Xyz → Int × Int
  txApply : (depth color : StreamMeta) → Xyz → Xyz

def pixels (depth : StreamMeta) : Nat :=
  depth.intrinsics.width.toNatClampNeg * depth.intrinsics.height.toNatClampNeg

/-- The body of the loops of `make_xyzs_from_depth_image`, with `remove_zeros` and no bounds. -/
def liftPixel (geometry : Geometry) (depth : StreamMeta) (depthImage : List UInt16) (xyzsOut : List UInt32) (idx : Nat) :
    Option (List UInt32) := do
  let zi ← depthImage[idx]?
  if zi = 0 then return xyzsOut
  else
    let width := depth.intrinsics.width.toNatClampNeg
    let (x, y, z) ← geometry.lift depth (idx % width) (idx / width) zi
    return xyzsOut ++ [x, y, z]

def makeXyzsFromDepthImage (geometry : Geometry) (depth : StreamMeta) (depthImage : List UInt16) : Option (List UInt32) :=
  (List.range (pixels depth)).foldlM (liftPixel geometry depth depthImage) []

def xyzAt (xyzs : List UInt32) (i : Nat) : Option Xyz :=
  match xyzs.drop (3 * i) with
  | x :: y :: z :: _ => some (x, y, z)
  | _ => none

/-- The body of the loop of `make_rgbs_from_xyzs`. -/
def colorPoint (geometry : Geometry) (depth color : StreamMeta) (rgbImage : List UInt8) (xyzs : List UInt32)
    (out : List UInt8) (i : Nat) : Option (List UInt8) := do
  let xyz ← xyzAt xyzs i
  let (ix, iy) := geometry.project depth color xyz
  let width := color.intrinsics.width.toInt
  if ix < 0 ∨ width ≤ ix ∨ iy < 0 ∨ color.intrinsics.height.toInt ≤ iy then return out ++ [0, 0, 0]
  else
    let flatIdx := (3 * (iy * width + ix)).toNat
    let r ← rgbImage[flatIdx]?
    let g ← rgbImage[flatIdx + 1]?
    let b ← rgbImage[flatIdx + 2]?
    return out ++ [r, g, b]

def makeRgbsFromXyzs (geometry : Geometry) (depth color : StreamMeta) (rgbImage : List UInt8) (xyzs : List UInt32) :
    Option (List UInt8) := do
  guard (xyzs.length % 3 = 0)
  let numPoints := xyzs.length / 3
  let out ← (List.range numPoints).foldlM (colorPoint geometry depth color rgbImage xyzs) []
  guard (out.length = 3 * numPoints)
  guard (out.length = xyzs.length)
  return out

/-- `tx_apply` of a point onto itself. -/
def movePoint (geometry : Geometry) (depth color : StreamMeta) (xyzs : List UInt32) (i : Nat) : List UInt32 :=
  match xyzs.drop (3 * i) with
  | x :: y :: z :: rest =>
    let moved := geometry.txApply depth color (x, y, z)
    xyzs.take (3 * i) ++ moved.1 :: moved.2.1 :: moved.2.2 :: rest
  | _ => xyzs

/-- What a job computes from a pair of images, unless one of its CHECKs fails. -/
def pointcloud (geometry : Geometry) (color : ColorData) (depth : DepthData) : Option (List UInt32 × List UInt8) := do
  let xyzs ← makeXyzsFromDepthImage geometry depth.streamMeta depth.data
  let rgbs ← makeRgbsFromXyzs geometry depth.streamMeta color.streamMeta color.data xyzs
  guard (xyzs.length % 3 = 0)
  guard (rgbs.length = xyzs.length)
  return ((List.range (xyzs.length / 3)).foldl (movePoint geometry depth.streamMeta color.streamMeta) xyzs, rgbs)

end AxbyCore.Realsense
