import AxbyCore.Library.Homography
import AxbyCore.Library.Outcome

/-! math/camera.cpp in exact arithmetic, where a literal is the number that is written. -/

namespace AxbyCore.Math
open Matrix

/-! Names for the instances that the literals below are read with, of rows and columns and of the floats. -/

scoped instance three_neZero : NeZero 3 := inferInstance

scoped instance four_neZero : NeZero 4 := inferInstance

scoped instance two_atLeastTwo : Nat.AtLeastTwo 2 := inferInstance

scoped instance hundred_atLeastTwo : Nat.AtLeastTwo 100 := inferInstance

scoped instance thousand_atLeastTwo : Nat.AtLeastTwo 1000 := inferInstance

scoped instance tenThousand_atLeastTwo : Nat.AtLeastTwo 10000 := inferInstance

/-- A span of floats. One with the size of a matrix holds it column by column. -/
inductive CameraSpan (K : Type) where
  | intrinsics (fx fy ppx ppy : K)
  | matrix3 (M : Matrix (Fin 3) (Fin 3) K)
  | matrix4 (M : Homography K)
  | other (data : List K) (size : data.length ≠ 4 ∧ data.length ≠ 9 ∧ data.length ≠ 16)

namespace CameraSpan

variable {K : Type}

def size : CameraSpan K → Nat
  | .intrinsics .. => 4
  | .matrix3 _ => 9
  | .matrix4 _ => 16
  | .other data _ => data.length

variable [Field K]

def near : K := 1 / 1000

def far : K := 100

def alpha : K := 1 / (1 - near / far)

/-- What is put into the last column of the row of depth. -/
def lift : K := -(1 / 10000)

/-- The buffer that is written to is the last argument, with what it holds before. -/
def makeCameraMatrix (fx fy ppx ppy : K) (out : CameraSpan K) : Outcome (CameraSpan K) :=
  match out with
  | .matrix3 _ => return .matrix3 (
      !![fx, 0, ppx;
         0, fy, ppy;
         0, 0, 1])
  | .matrix4 _ => return .matrix4 (
      !![fx, 0, ppx, 0;
         0, fy, ppy, 0;
         0, 0, alpha, -near * alpha;
         0, 0, 1, 0])
  | _ => .checkFailed

def cameraMatrix4x4To3x3 (input out : CameraSpan K) : Outcome (CameraSpan K) :=
  match input, out with
  | .matrix4 M, .matrix3 _ => return .matrix3 (M.submatrix Fin.castSucc Fin.castSucc)
  | _, _ => .checkFailed

def cameraMatrix3x3To4x4 (input out : CameraSpan K) : Outcome (CameraSpan K) :=
  match input, out with
  | .matrix3 M, .matrix4 _ => return .matrix4 (
      !![M 0 0, M 0 1, M 0 2, 0;
         M 1 0, M 1 1, M 1 2, 0;
         M 2 0, M 2 1, M 2 2, lift;
         0, 0, 1, 0])
  | _, _ => .checkFailed

/-- An input of another size leaves the buffer as it is. -/
def convertHmImageCamera (hmImageCamera out : CameraSpan K) : Outcome (CameraSpan K) :=
  match hmImageCamera with
  | .intrinsics fx fy ppx ppy => makeCameraMatrix fx fy ppx ppy out
  | .matrix3 M =>
    match out with
    | .matrix3 _ => return .matrix3 M
    | .matrix4 _ => cameraMatrix3x3To4x4 hmImageCamera out
    | _ => .checkFailed
  | .matrix4 M =>
    match out with
    | .matrix4 _ => return .matrix4 M
    | .matrix3 _ => cameraMatrix4x4To3x3 hmImageCamera out
    | _ => .checkFailed
  | .other _ _ => return out

def cameraProjectImpl (hmImageCamera txCameraBody : Homography K) (ptBody : List K) (outSize : Nat) :
    Outcome (List K) := do
  Outcome.check (ptBody.length = 3 ∨ ptBody.length = 4)
  Outcome.check (outSize = 2 ∨ outSize = 3)
  let x ← Outcome.read ptBody[0]?
  let y ← Outcome.read ptBody[1]?
  let z ← Outcome.read ptBody[2]?
  let result := (hmImageCamera * txCameraBody) *ᵥ ![x, y, z, 1]
  let result := fun i => result i / result 3
  return if outSize = 3 then [result 0, result 1, result 2] else [result 0, result 1]

/-- A matrix that was not written to is not read. -/
def cameraProject (hmImageCamera txCameraBody : CameraSpan K) (ptBody : List K) (outSize : Nat) : Outcome (List K) := do
  Outcome.check (txCameraBody.size = 16 ∨ txCameraBody.size = 0)
  let txCameraBody := match txCameraBody with
    | .matrix4 M => M
    | _ => 1
  match hmImageCamera with
  | .other _ _ => .undefined
  | _ =>
    match ← convertHmImageCamera hmImageCamera (.matrix4 0) with
    | .matrix4 M => cameraProjectImpl M txCameraBody ptBody outSize
    | _ => .checkFailed

def cameraMatrixToNdcMatrix (hmImageCamera : CameraSpan K) (width height : Int) (ndcImageCamera : CameraSpan K) :
    Outcome (CameraSpan K) := do
  Outcome.check (0 < width)
  Outcome.check (0 < height)
  Outcome.check (ndcImageCamera.size = 9 ∨ ndcImageCamera.size = 16)
  match hmImageCamera with
  | .matrix4 M =>
    let out := .matrix4 (of ![(2 / width : K) • M 0 - M 3, (2 / height : K) • M 1 - M 3, M 2, M 3])
    if ndcImageCamera.size ≠ 16 then cameraMatrix4x4To3x3 out ndcImageCamera else return out
  | .matrix3 M =>
    let out := .matrix3 (of ![(2 / width : K) • M 0 - M 2, (2 / height : K) • M 1 - M 2, M 2])
    if ndcImageCamera.size ≠ 9 then cameraMatrix3x3To4x4 out ndcImageCamera else return out
  | _ => .checkFailed

def ndcMatrixToCameraMatrix (ndcImageCamera : CameraSpan K) (width height : Int) (hmImageCamera : CameraSpan K) :
    Outcome (CameraSpan K) := do
  Outcome.check (0 < width)
  Outcome.check (0 < height)
  Outcome.check (ndcImageCamera.size = 9 ∨ ndcImageCamera.size = 16)
  match ndcImageCamera with
  | .matrix4 M =>
    let out := .matrix4 (of ![(width / 2 : K) • M 0 + (width / 2 : K) • M 3, (height / 2 : K) • M 1 + (height / 2 : K) • M 3, M 2, M 3])
    if hmImageCamera.size ≠ 16 then cameraMatrix4x4To3x3 out hmImageCamera else return out
  | .matrix3 M =>
    let out := .matrix3 (of ![(width / 2 : K) • M 0 + (width / 2 : K) • M 2, (height / 2 : K) • M 1 + (height / 2 : K) • M 2, M 2])
    if hmImageCamera.size ≠ 9 then cameraMatrix3x3To4x4 out hmImageCamera else return out
  | _ => .checkFailed

end CameraSpan
end AxbyCore.Math
