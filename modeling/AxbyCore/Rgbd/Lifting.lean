import AxbyCore.Library.NearestNeighbors
import AxbyCore.Rgbd.Rgbd

/-! `lift_xys_to_xyzs` of rgbd/rgbd.cpp in exact arithmetic, in which every number is finite.
The exponential function and the search of the kd-tree are parameters. -/

namespace AxbyCore.Rgbd
open Homography Matrix

section
variable {K : Type} [Field K] [LinearOrder K]

structure NanoFlannData (K : Type) where
  xy : List K

def NanoFlannData.kdtreeGetPointCount (data : NanoFlannData K) : Nat := data.xy.length / 2

def NanoFlannData.kdtreeGetPt (data : NanoFlannData K) (idx dim : Nat) : Outcome K := do
  Outcome.check (2 * idx < data.xy.length)
  Outcome.check (dim < 2)
  Outcome.read data.xy[idx * 2 + dim]?

/-- The metric of `L2_Simple_Adaptor`. -/
def evalMetric (data : NanoFlannData K) (query : K × K) (idx : Nat) : Outcome K := do
  let x ← data.kdtreeGetPt idx 0
  let y ← data.kdtreeGetPt idx 1
  return (query.1 - x) * (query.1 - x) + (query.2 - y) * (query.2 - y)

/-- What the search of a tree over some data promises. -/
def Searches (knnSearch : NanoFlannData K → K × K → Nat → List (Nat × K)) : Prop :=
  ∀ data query count distances, distances.length = data.kdtreeGetPointCount →
    (∀ i distance, distances[i]? = some distance → evalMetric data query i = .done distance) →
    Nearest distances count (knnSearch data query count)

def numNbrs : Nat := 10

def maxDist : K := 15

def maxDistSquared : K := maxDist * maxDist

/-- What is pushed to `scene_xys` for a point. A quotient by zero is no number. -/
def projectScenePoint (hmImageXyzs : Homography K) (sceneXyzs : List K) (i : Nat) : Outcome (List K) := do
  Outcome.require (3 * i < 2 ^ 31)
  let x ← Outcome.read sceneXyzs[3 * i]?
  let y ← Outcome.read sceneXyzs[3 * i + 1]?
  let z ← Outcome.read sceneXyzs[3 * i + 2]?
  let imageXyzw := hmImageXyzs *ᵥ ![x, y, z, 1]
  Outcome.require (imageXyzw 3 ≠ 0)
  return [imageXyzw 0 / imageXyzw 3, imageXyzw 1 / imageXyzw 3]

structure Matched (K : Type) where
  numValid : Nat
  totalWeight : K
  matchedPointAcc : K × K × K

/-- An iteration over the neighbours found; three times an index is a uint32_t. -/
def matchNeighbor (exp : K → K) (sceneXyzs : List K) (matched : Matched K) (neighbor : Nat × K) : Outcome (Matched K) := do
  let (nbrIdx, distSquared) := neighbor
  if maxDistSquared < distSquared then return matched
  else
    let x ← Outcome.read sceneXyzs[3 * nbrIdx % 2 ^ 32]?
    let y ← Outcome.read sceneXyzs[3 * nbrIdx % 2 ^ 32 + 1]?
    let z ← Outcome.read sceneXyzs[3 * nbrIdx % 2 ^ 32 + 2]?
    let weight := exp (-distSquared / maxDistSquared)
    let (accX, accY, accZ) := matched.matchedPointAcc
    return {
      numValid := matched.numValid + 1
      totalWeight := matched.totalWeight + weight
      matchedPointAcc := (accX + x * weight, accY + y * weight, accZ + z * weight) }

/-- What is written for a query. -/
def liftQuery (exp : K → K) (knnSearch : K × K → Nat → List (Nat × K)) (invP : Homography K) (sceneXyzs queryXys : List K)
    (q : Nat) : Outcome (List K) := do
  let queryX ← Outcome.read queryXys[2 * q]?
  let queryY ← Outcome.read queryXys[2 * q + 1]?
  let found := knnSearch (queryX, queryY) numNbrs
  let matched ← found.foldlM (matchNeighbor exp sceneXyzs) ⟨0, 0, 0⟩
  Outcome.require (3 * q < 2 ^ 31)
  if 0 < matched.numValid then
    let estimatedZ := matched.matchedPointAcc.2.2 / matched.totalWeight
    let (x, y) ← xyFromDepth invP queryX queryY estimatedZ
    return [x, y, estimatedZ]
  else return [0, 0, 0]

def liftXysToXyzs (exp : K → K) (knnSearch : NanoFlannData K → K × K → Nat → List (Nat × K))
    (inverse : Homography K → Homography K) (hmImageXyzs : Vector K 16) (sceneXyzs queryXys : List K) : Outcome (List K) := do
  Outcome.check (sceneXyzs.length % 3 = 0)
  Outcome.check (queryXys.length % 2 = 0)
  let numScenePoints := sceneXyzs.length / 3
  let sceneXys ← Outcome.pushAll (projectScenePoint (matrix4 hmImageXyzs) sceneXyzs) (List.range numScenePoints)
  let flann := knnSearch ⟨sceneXys⟩
  let invP := inverse (matrix4 hmImageXyzs)
  let numQueries := queryXys.length / 2
  Outcome.pushAll (liftQuery exp flann invP sceneXyzs queryXys) (List.range numQueries)

end

end AxbyCore.Rgbd
