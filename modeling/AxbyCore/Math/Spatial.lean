import AxbyCore.Eigen.AngleAxis
import AxbyCore.Library.RigidMotion
import AxbyCore.Math.Camera
import Mathlib.Analysis.SpecialFunctions.Trigonometric.Inverse
import Mathlib.LinearAlgebra.Matrix.Trace

/-! math/spatial_impl.hpp in exact arithmetic. A 4x4 matrix is made of its 3x3 corner, the
column and the row beside it, and a 6x6 matrix of four 3x3 corners. -/

namespace AxbyCore.Math.Spatial
open Matrix RigidMotion

abbrev Matrix3 (K : Type*) := Matrix (Fin 3) (Fin 3) K

abbrev Matrix4 (K : Type*) := Matrix (Fin 3 ⊕ Unit) (Fin 3 ⊕ Unit) K

abbrev Matrix6 (K : Type*) := Matrix (Fin 3 ⊕ Fin 3) (Fin 3 ⊕ Fin 3) K

abbrev Vector3 (K : Type*) := Fin 3 → K

abbrev Vector6 (K : Type*) := Fin 3 ⊕ Fin 3 → K

section
variable {K : Type*} [CommRing K]

def se3Inv (se3 : Matrix4 K) : Matrix4 K :=
  fromBlocks se3.toBlocks₁₁ᵀ (replicateCol Unit (-se3.toBlocks₁₁ᵀ *ᵥ translation se3)) 0 1

def so3VecToMat (vec : Vector3 K) : Matrix3 K :=
  !![0, -vec 2, vec 1;
     vec 2, 0, -vec 0;
     -vec 1, vec 0, 0]

/-- `SE3_adj` of a rotation and a translation, whose `t_hat` is written out in the source. -/
def adjOf (rot : Matrix3 K) (trans : Vector3 K) : Matrix6 K :=
  fromBlocks rot 0 (so3VecToMat trans * rot) rot

def se3Adj (se3 : Matrix4 K) : Matrix6 K := adjOf se3.toBlocks₁₁ (translation se3)

def so3MatToVec (mat : Matrix3 K) : Vector3 K := ![mat 2 1, mat 0 2, mat 1 0]

def se3VecToMat (vec : Vector6 K) : Matrix4 K :=
  fromBlocks (so3VecToMat (vec ∘ .inl)) (replicateCol Unit (vec ∘ .inr)) 0 0

def se3MatToVec (mat : Matrix4 K) : Vector6 K := Sum.elim (so3MatToVec mat.toBlocks₁₁) (translation mat)

end

noncomputable section

/-- `normalized()`, which leaves the zero vector as it is. -/
def normalized (vec : Vector3 ℝ) : Vector3 ℝ := if 0 < vec ⬝ᵥ vec then (√(vec ⬝ᵥ vec))⁻¹ • vec else vec

def rotationToVector (rot : Matrix3 ℝ) : Vector3 ℝ :=
  let angleAxis := Eigen.AngleAxis.ofMatrix rot
  angleAxis.angle • angleAxis.axis

def vectorToRotation (vec : Vector3 ℝ) : Matrix3 ℝ :=
  let length := √(vec ⬝ᵥ vec)
  if length < 1e-8 then 1
  else
    let axis := length⁻¹ • vec
    Eigen.AngleAxis.toRotationMatrix { angle := length, axis }

def lerpRotation (initialRot finalRot : Matrix3 ℝ) (progress : ℝ) : Matrix3 ℝ :=
  let deltaRotMat := finalRot * initialRotᵀ
  let deltaRotVec := rotationToVector deltaRotMat
  vectorToRotation (progress • deltaRotVec) * initialRot

def lerpTx (initialTx finalTx : Matrix4 ℝ) (progress : ℝ) : Matrix4 ℝ :=
  let outRot := lerpRotation initialTx.toBlocks₁₁ finalTx.toBlocks₁₁ progress
  let outTrans := (1 - progress) • translation initialTx + progress • translation finalTx
  fromBlocks outRot (replicateCol Unit outTrans) 0 1

def directionToRotation (direction : Vector3 ℝ) (axis : Fin 3) : Matrix3 ℝ :=
  let rotZ := normalized direction
  let rotX := normalized (rotZ ⨯₃ ![1, 0, 0])
  let rotY := rotZ ⨯₃ rotX
  (((0 : Matrix3 ℝ).updateCol (axis + 1) rotX).updateCol (axis + 2) rotY).updateCol axis rotZ

def kTol : ℝ := 1 / 10000

def AlmostEquals (a b : ℝ) : Prop := |a - b| < kTol

instance (a b : ℝ) : Decidable (AlmostEquals a b) := inferInstanceAs (Decidable (_ < _))

/-- What `SO3_log` writes through its pointers. -/
structure So3Log where
  theta : ℝ
  omegaHat : Matrix3 ℝ
  wasIdentity : Bool := false

/-- The axis of a half turn, read off a column of which the entry on the diagonal is not -1. -/
def omegaVector (rotationMatrix : Matrix3 ℝ) (column : Fin 3) : Vector3 ℝ := fun i =>
  (if i = column then 1 + rotationMatrix column column else rotationMatrix i column) /
    √(2 * (1 + rotationMatrix column column))

/-- The column that `SO3_log` reads it off. -/
def pivot (rotationMatrix : Matrix3 ℝ) : Fin 3 :=
  if ¬ AlmostEquals (1 + rotationMatrix 2 2) 0 then 2
  else if ¬ AlmostEquals (1 + rotationMatrix 1 1) 0 then 1
  else 0

/-- A result that is not finite comes from a division by zero. -/
def so3Log (rotationMatrix : Matrix3 ℝ) : Outcome So3Log := do
  if ∀ i, AlmostEquals 1 (rotationMatrix i i) then
    return { theta := 0, omegaHat := so3VecToMat ![1, 0, 0], wasIdentity := true }
  else if AlmostEquals (-1) rotationMatrix.trace then
    return { theta := Real.pi, omegaHat := so3VecToMat (omegaVector rotationMatrix (pivot rotationMatrix)) }
  else
    let htmo := 1 / 2 * (rotationMatrix.trace - 1)
    Outcome.check (|htmo| ≤ 1)
    let sinAcosHtmo := √(1 - htmo * htmo)
    Outcome.check (sinAcosHtmo ≠ 0)
    return { theta := Real.arccos htmo, omegaHat := (1 / 2 / sinAcosHtmo) • (rotationMatrix - rotationMatrixᵀ) }

end

end AxbyCore.Math.Spatial
