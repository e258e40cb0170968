import AxbyCore.Math.Spatial

/-! The exponential of twists and the logarithm of rigid motions of math/spatial_impl.hpp, in
exact arithmetic. -/

namespace AxbyCore.Math.Spatial
open Matrix RigidMotion

noncomputable section

/-- `A`, `B` and `C` of `se3_exp`. -/
structure ExpCoefficients where
  a : ℝ
  b : ℝ
  c : ℝ

def expCoefficients (thetaSquared : ℝ) : ExpCoefficients :=
  if thetaSquared < 1e-8 then
    { a := 1.0 - thetaSquared / 6.0
      b := 0.5 - thetaSquared / 24.0
      c := 1.0 / 6.0 - thetaSquared / 120.0 }
  else
    let theta := √thetaSquared
    let stheta := Real.sin theta
    let ctheta := Real.cos theta
    let a := stheta / theta
    { a, b := (1 - ctheta) / thetaSquared, c := (1 - a) / thetaSquared }

def se3Exp (se3 : Vector6 ℝ) : Matrix4 ℝ :=
  let omega : Vector3 ℝ := se3 ∘ .inl
  let v : Vector3 ℝ := se3 ∘ .inr
  let thetaSquared := omega ⬝ᵥ omega
  let omegaHat := so3VecToMat omega
  let coefficients := expCoefficients thetaSquared
  let omegaHat2 := omegaHat * omegaHat
  fromBlocks (1 + (coefficients.a • omegaHat + coefficients.b • omegaHat2))
    (replicateCol Unit ((coefficients.b • omegaHat + coefficients.c • omegaHat2) *ᵥ v + v)) 0 1

/-- The beginning of the series of `x * cot x`. -/
def xCotx (x : ℝ) : ℝ :=
  let c2 : ℝ := -1.0 / 3.0
  let c4 : ℝ := -1.0 / 45.0
  let c6 : ℝ := -2.0 / 945.0
  let c8 : ℝ := -1.0 / 4725.0
  let c10 : ℝ := -2.0 / 93555.0
  let x2 := x * x
  let x4 := x2 * x2
  let x6 := x4 * x2
  let x8 := x4 * x4
  let x10 := x8 * x2
  1.0 + c2 * x2 + c4 * x4 + c6 * x6 + c8 * x8 + c10 * x10

/-- Real numbers are finite, so the last CHECK does not fail. -/
def se3Log (se3Element : Matrix4 ℝ) : Outcome (Vector6 ℝ) := do
  let log ← so3Log se3Element.toBlocks₁₁
  let theta := log.theta
  let omega := log.omegaHat
  let omegaTheta : Vector3 ℝ := ![theta * omega 2 1, -theta * omega 2 0, theta * omega 1 0]
  let p := translation se3Element
  let omegaP := omega *ᵥ p
  let vTheta := p - (0.5 * theta) • omegaP + ((1.0 - xCotx (theta / 2.0)) • omega) *ᵥ omegaP
  return Sum.elim omegaTheta vTheta

end

end AxbyCore.Math.Spatial
