import AxbyCore.Library.Binary32
import AxbyCore.Library.Homography
import AxbyCore.Library.MachineInt
import AxbyCore.Library.Outcome
import Mathlib.Algebra.Order.Floor.Ring

/-! rgbd/rgbd.cpp in exact arithmetic. Floats are elements of an ordered field, and what
an int cannot hold is undefined. The inverse of a matrix is Eigen's. -/

namespace AxbyCore.Rgbd
open Homography MachineInt Matrix

/-! Names for the instances that the literals below are read with, of rows and columns and of the floats. -/

scoped instance rows_neZero : NeZero 4 := inferInstance

scoped instance two_atLeastTwo : Nat.AtLeastTwo 2 := inferInstance

section
variable {K : Type} [Field K]

/-- `CM_Matrix4f` on 16 numbers, column by column. -/
def matrix4 (data : Vector K 16) : Homography K := fun row column => data[4 * column.val + row.val]

/-- `1e-8f` -/
def epsilon : K := 11258999 / 2 ^ 50

/-- `a1` to `a4` of `xy_from_depth`, by the row of the inverse. -/
def rayA (invP : Homography K) (row : Fin 4) (ix iy : K) : K := invP row 0 * ix + invP row 1 * iy + invP row 3

/-- `b1` to `b4` -/
def rayB (invP : Homography K) (row : Fin 4) : K := invP row 2

def denom (invP : Homography K) (z : K) : K := rayB invP 2 - z * rayB invP 3

def lambda (invP : Homography K) (ix iy z : K) : K := (z * rayA invP 3 ix iy - rayA invP 2 ix iy) / denom invP z

def tau (invP : Homography K) (ix iy z : K) : K := rayA invP 3 ix iy + rayB invP 3 * lambda invP ix iy z

def alpha (invP : Homography K) (ix iy z : K) : K :=
  (rayA invP 0 ix iy + rayB invP 0 * lambda invP ix iy z) / tau invP ix iy z

def beta (invP : Homography K) (ix iy z : K) : K :=
  (rayA invP 1 ix iy + rayB invP 1 * lambda invP ix iy z) / tau invP ix iy z

structure DepthImageInfo (K : Type) where
  width : Nat
  height : Nat
  depthScale : K
  depthImage : List UInt16
  hmImageCamera : Vector K 16
  whole : depthImage.length = width * height

structure RgbImageInfo (K : Type) where
  width : Nat
  height : Nat
  rgbImage : List UInt8
  hmImageCamera : Vector K 16
  whole : rgbImage.length = 3 * (width * height)

structure XyzsFromDepthOptions (K : Type) where
  removeZeros : Bool := false
  minDepth : Option K := none
  maxDepth : Option K := none

variable [LinearOrder K] [IsStrictOrderedRing K]

def xyFromDepth (invP : Homography K) (ix iy z : K) : Outcome (K × K) := do
  Outcome.check (epsilon < |denom invP z|)
  Outcome.check (epsilon < |tau invP ix iy z|)
  return (alpha invP ix iy z, beta invP ix iy z)

/-- What an iteration of `make_xyzs_from_depth_image` pushes. -/
def depthPixel (hmCameraImage : Homography K) (info : DepthImageInfo K) (options : XyzsFromDepthOptions K)
    (yidx xidx : Nat) : Outcome (List K) := do
  let idx := xidx + yidx * info.width
  let zi ← Outcome.read info.depthImage[idx]?
  if zi = 0 then
    if options.removeZeros then return [] else return [0, 0, 0]
  else
    let z := (zi.toNat : K) * info.depthScale
    if options.minDepth.any (fun min => z < min) then return []
    else if options.maxDepth.any (fun max => max < z) then return []
    else
      let (x, y) ← xyFromDepth hmCameraImage (xidx + 1 / 2) (yidx + 1 / 2) z
      return [x, y, z]

/-- `make_xyzs_from_depth_image`; the product that it reserves is one of ints. -/
def makeXyzsFromDepthImage (inverse : Homography K → Homography K) (info : DepthImageInfo K)
    (options : XyzsFromDepthOptions K) : Outcome (List K) := do
  Outcome.require (info.width * info.height < 2 ^ 31)
  let hmCameraImage := inverse (matrix4 info.hmImageCamera)
  Outcome.pushAll (fun yidx => Outcome.pushAll (depthPixel hmCameraImage info options yidx) (List.range info.width))
    (List.range info.height)

variable [FloorRing K]

def truncate (value : K) : Int := if 0 ≤ value then ⌊value⌋ else ⌈value⌉

/-- The conversion of a float to an int. -/
def toInt (value : K) : Outcome Int := do
  Outcome.require (FitsInt32 (truncate value))
  return truncate value

/-- An int as the float that it is compared as. -/
def toFloat (value : Nat) : K := Binary32.round value

/-- What is pushed for a pair of coordinates. -/
def lookUp (hmCameraImage : Homography K) (info : DepthImageInfo K) (imageX imageY : K) : Outcome (List K) := do
  if imageX < 0 ∨ imageY < 0 ∨ toFloat info.width < imageX ∨ toFloat info.height < imageY then return [0, 0, 0]
  else
    let imageIx ← toInt imageX
    let imageIy ← toInt imageY
    Outcome.require (FitsInt32 (imageIy * info.width))
    Outcome.require (FitsInt32 (imageIy * info.width + imageIx))
    let imageIflat := imageIy * info.width + imageIx
    Outcome.check (imageIflat < (info.width * info.height : Nat))
    let zi ← Outcome.read info.depthImage[imageIflat.toNat]?
    if zi = 0 then return [0, 0, 0]
    else
      let z := (zi.toNat : K) * info.depthScale
      let (x, y) ← xyFromDepth hmCameraImage imageX imageY z
      return [x, y, z]

/-- An iteration of `make_xyzs_from_depth_image_coordinates`, whose counter takes steps of two. -/
def depthCoordinate (hmCameraImage : Homography K) (info : DepthImageInfo K) (imageCoordinates : List K) (pair : Nat) :
    Outcome (List K) := do
  let imageX ← Outcome.read imageCoordinates[2 * pair]?
  let imageY ← Outcome.read imageCoordinates[2 * pair + 1]?
  let pushed ← lookUp hmCameraImage info imageX imageY
  Outcome.require (2 * pair + 2 < 2 ^ 31)
  return pushed

def makeXyzsFromDepthImageCoordinates (inverse : Homography K → Homography K) (info : DepthImageInfo K)
    (imageCoordinates : List K) : Outcome (List K) := do
  Outcome.require (info.width * info.height < 2 ^ 31)
  let hmCameraImage := inverse (matrix4 info.hmImageCamera)
  Outcome.pushAll (depthCoordinate hmCameraImage info imageCoordinates)
    (List.range ((imageCoordinates.length + 1) / 2))

/-- What is pushed for pixel coordinates. -/
def colorAt (info : RgbImageInfo K) (ix iy : Int) : Outcome (List UInt8) := do
  if ix < 0 ∨ (info.width : Int) ≤ ix ∨ iy < 0 ∨ (info.height : Int) ≤ iy then return [0, 0, 0]
  else
    let flatIdx := (3 * (iy * info.width + ix)).toNat
    Outcome.require (flatIdx < 2 ^ 31)
    Outcome.check (flatIdx < info.rgbImage.length)
    Outcome.require (flatIdx + 2 < 2 ^ 31)
    let r ← Outcome.read info.rgbImage[flatIdx]?
    let g ← Outcome.read info.rgbImage[flatIdx + 1]?
    let b ← Outcome.read info.rgbImage[flatIdx + 2]?
    return [r, g, b]

/-- What an iteration of `make_rgbs_from_xyzs` pushes. A quotient by zero is infinite or no
number, and no int. -/
def colorPoint (hmRgbimageDepth : Homography K) (info : RgbImageInfo K) (xyzs : List K) (i : Nat) : Outcome (List UInt8) := do
  let x ← Outcome.read xyzs[3 * i]?
  let y ← Outcome.read xyzs[3 * i + 1]?
  let z ← Outcome.read xyzs[3 * i + 2]?
  let rgbimageXyzw := hmRgbimageDepth *ᵥ ![x, y, z, 1]
  Outcome.require (rgbimageXyzw 3 ≠ 0)
  let ix ← toInt (rgbimageXyzw 0 / rgbimageXyzw 3)
  let iy ← toInt (rgbimageXyzw 1 / rgbimageXyzw 3)
  colorAt info ix iy

def makeRgbsFromXyzs (info : RgbImageInfo K) (txRgbXyzs : Vector K 16) (xyzs : List K) : Outcome (List UInt8) := do
  Outcome.check (xyzs.length % 3 = 0)
  let numPoints := xyzs.length / 3
  let hmRgbimageDepth := matrix4 info.hmImageCamera * matrix4 txRgbXyzs
  let out ← Outcome.pushAll (colorPoint hmRgbimageDepth info xyzs) (List.range numPoints)
  Outcome.check (out.length = 3 * numPoints)
  Outcome.check (out.length = xyzs.length)
  return out

end

end AxbyCore.Rgbd
