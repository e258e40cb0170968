import AxbyCore.Library.QuaternionRotation
import Mathlib.Analysis.SpecialFunctions.Complex.Arg

/-! Eigen's conversions of rotation matrices to an angle with an axis, and back, in exact
arithmetic. A small norm is computed again in another way, which makes no difference here. -/

namespace AxbyCore.Eigen
open Matrix Rotation

noncomputable section

structure Quaternion where
  vec : Fin 3 → ℝ
  w : ℝ

namespace Quaternion

def largestDiagonal (mat : Matrix (Fin 3) (Fin 3) ℝ) : Fin 3 :=
  let i : Fin 3 := if mat 0 0 < mat 1 1 then 1 else 0
  if mat i i < mat 2 2 then 2 else i

/-- The root is that of the trace, or else of what the largest entry of the diagonal has more than the others. -/
def ofMatrix (mat : Matrix (Fin 3) (Fin 3) ℝ) : Quaternion :=
  if 0 < mat.trace then
    let root := √(mat.trace + 1)
    let t := 0.5 / root
    { w := 0.5 * root, vec := ![(mat 2 1 - mat 1 2) * t, (mat 0 2 - mat 2 0) * t, (mat 1 0 - mat 0 1) * t] }
  else
    let i := largestDiagonal mat
    let j := i + 1
    let k := j + 1
    let root := √(mat i i - mat j j - mat k k + 1)
    let t := 0.5 / root
    { w := (mat k j - mat j k) * t
      vec := fun c => if c = i then 0.5 * root else if c = j then (mat j i + mat i j) * t else (mat k i + mat i k) * t }

end Quaternion

def atan2 (y x : ℝ) : ℝ := Complex.arg ⟨x, y⟩

structure AngleAxis where
  angle : ℝ
  axis : Fin 3 → ℝ

namespace AngleAxis

def ofQuaternion (q : Quaternion) : AngleAxis :=
  let n := √(q.vec ⬝ᵥ q.vec)
  if n ≠ 0 then
    { angle := 2 * atan2 n |q.w|, axis := (if q.w < 0 then -n else n)⁻¹ • q.vec }
  else { angle := 0, axis := ![1, 0, 0] }

def ofMatrix (mat : Matrix (Fin 3) (Fin 3) ℝ) : AngleAxis := ofQuaternion (Quaternion.ofMatrix mat)

def toRotationMatrix (angleAxis : AngleAxis) : Matrix (Fin 3) (Fin 3) ℝ :=
  let axis := angleAxis.axis
  let sinAxis := Real.sin angleAxis.angle • axis
  let c := Real.cos angleAxis.angle
  let cos1Axis := (1 - c) • axis
  !![cos1Axis 0 * axis 0 + c, cos1Axis 0 * axis 1 - sinAxis 2, cos1Axis 0 * axis 2 + sinAxis 1;
     cos1Axis 0 * axis 1 + sinAxis 2, cos1Axis 1 * axis 1 + c, cos1Axis 1 * axis 2 - sinAxis 0;
     cos1Axis 0 * axis 2 - sinAxis 1, cos1Axis 1 * axis 2 + sinAxis 0, cos1Axis 2 * axis 2 + c]

end AngleAxis

end

end AxbyCore.Eigen
