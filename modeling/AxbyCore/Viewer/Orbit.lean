import AxbyCore.Math.Spatial

/-! The orbit of viewer/viewer.cpp, by which the mouse moves the camera, in exact arithmetic.
A transform is the matrix that its sequence of floats holds. -/

namespace AxbyCore.Viewer
open Math Math.Spatial Matrix RigidMotion

/-- `IO`, as far as the orbit uses it. -/
structure IoState (K : Type) where
  mouseDelta : Fin 2 → K
  mouseWheel : K
  mouseDown : Fin 3 → Bool
  keyCtrl : Bool

structure OrbitState (K : Type) where
  txWorldOrbit : Matrix4 K
  camOffset : Vector3 K

structure ViewParams (K : Type) where
  width : Nat
  height : Nat
  txCameraWorld : Matrix4 K
  ndcImageCamera : Homography K

/-- The state of the viewer that the orbit has to do with. -/
structure State (K : Type) where
  orbitState : OrbitState K
  viewParams : ViewParams K
  focalScale : K

/-- What is used of Eigen: the rotation matrix of an `AngleAxis`, and the inverse of a matrix. -/
structure Eigen (K : Type) where
  angleAxis : K → Vector3 K → Matrix3 K
  inverse : Matrix4 K → Matrix4 K

section
variable {K : Type} [Field K]

/-- What `init` sets. -/
def initialOrbit : OrbitState K where
  txWorldOrbit := 1
  camOffset := ![0, 0, -(3 / 10)]

def setTxCameraWorld (eigen : Eigen K) (state : State K) (txCameraWorld : Matrix4 K) : State K :=
  { state with
    viewParams := { state.viewParams with txCameraWorld := txCameraWorld }
    orbitState := { txWorldOrbit := eigen.inverse txCameraWorld, camOffset := 0 } }

/-- `block<3, 1>(0, 3) += movement` -/
def addTranslation (tx : Matrix4 K) (movement : Vector3 K) : Matrix4 K :=
  fromBlocks tx.toBlocks₁₁ (tx.toBlocks₁₂ + replicateCol Unit movement) tx.toBlocks₂₁ tx.toBlocks₂₂

/-- `block<3, 3>(0, 0) *= rotation` -/
def mulRotation (tx : Matrix4 K) (rotation : Matrix3 K) : Matrix4 K :=
  fromBlocks (tx.toBlocks₁₁ * rotation) tx.toBlocks₁₂ tx.toBlocks₂₁ tx.toBlocks₂₂

def setPtWorldOrbit (orbitState : OrbitState K) (ptWorldOrbitData : List K) : Outcome (OrbitState K) :=
  match ptWorldOrbitData with
  | [x, y, z] =>
    let orbitMovement := ![x, y, z] - translation orbitState.txWorldOrbit
    let txWorldOrbit := addTranslation orbitState.txWorldOrbit orbitMovement
    return {
      txWorldOrbit := txWorldOrbit
      camOffset := orbitState.camOffset + txWorldOrbit.toBlocks₁₁ᵀ *ᵥ orbitMovement }
  | _ => .checkFailed

/-- The camera pose that is computed from the orbit. -/
def txCameraWorld (eigen : Eigen K) (orbitState : OrbitState K) : Matrix4 K :=
  addTranslation (eigen.inverse orbitState.txWorldOrbit) orbitState.camOffset

/-- The projection matrix, for the aspect ratio of the screen. -/
def ndcImageCamera (widthToHeight focalScale : K) : Outcome (Homography K) := do
  match ← CameraSpan.makeCameraMatrix 1 widthToHeight 0 0 (.matrix4 0) with
  | .matrix4 M =>
    let M := M.updateRow 1 (-1 • M 1)
    return of fun i j => if i.val < 2 ∧ j.val < 2 then M i j * focalScale else M i j
  | _ => .checkFailed

def updateViewParamsFromOrbit (eigen : Eigen K) (state : State K) : Outcome (State K) := do
  let widthToHeight : K := state.viewParams.width / state.viewParams.height
  let ndcImageCamera ← ndcImageCamera widthToHeight state.focalScale
  return { state with
    viewParams := { state.viewParams with
      txCameraWorld := txCameraWorld eigen state.orbitState
      ndcImageCamera := ndcImageCamera } }

variable [LinearOrder K]

def updateOrbitFromMouse (eigen : Eigen K) (io : IoState K) (orbitState : OrbitState K) : OrbitState K :=
  let dx := io.mouseDelta 0
  let dy := io.mouseDelta 1
  if io.mouseWheel ≠ 0 ∧ io.mouseDown 1 then
    -- roll z
    let drotWorldOrbit := eigen.angleAxis (io.mouseWheel * (6 / 100)) (-![0, 0, 1])
    { orbitState with txWorldOrbit := mulRotation orbitState.txWorldOrbit drotWorldOrbit }
  else if io.mouseWheel ≠ 0 then
    -- zooming
    { orbitState with camOffset := orbitState.camOffset + ![0, 0, io.mouseWheel * (1 / 10)] }
  else if io.mouseDown 2 ∨ (io.keyCtrl ∧ io.mouseDown 0) then
    -- panning, less when zoomed in
    let transScale := max (|orbitState.camOffset 2| * (1 / 1000)) (1 / 1000)
    { orbitState with camOffset := orbitState.camOffset + ![dx * transScale, dy * transScale, 0] }
  else if io.mouseDown 1 then
    -- spin x, spin y
    let drotWorldOrbit := eigen.angleAxis (dx * (3 / 1000)) ![0, 1, 0] * eigen.angleAxis (-dy * (3 / 1000)) ![1, 0, 0]
    { orbitState with txWorldOrbit := mulRotation orbitState.txWorldOrbit drotWorldOrbit }
  else orbitState

end
end AxbyCore.Viewer
