import AxbyCore.Library.Binary32
import AxbyCore.Library.MachineInt

/-! The generator of random/linear_congruential_generator.cpp and its choice of indices
without replacement. A failed CHECK or a write outside the output ends the run. -/

namespace AxbyCore.Random
open MachineInt

structure LinearCongruentialGenerator where
  seed : UInt32 := 0
  deriving DecidableEq, Repr

/-- `generate`: the next seed, and the float it is returned as. -/
def LinearCongruentialGenerator.generate (generator : LinearCongruentialGenerator) : LinearCongruentialGenerator × Rat :=
  let a : UInt32 := 1664525
  let c : UInt32 := 1013904223
  let seed := a * generator.seed + c
  ({ seed }, (Binary32.round seed.toNat : Rat) / 4294967296)

/-- The generator, the output and how much of it is filled. -/
structure Sampling where
  generator : LinearCongruentialGenerator
  out : List UInt64
  numIndicesUsed : Nat
  deriving DecidableEq, Repr

/-- The loop of `generate_sample_idxs`, of which `reservoirSize` iterations are left. -/
def sampleLoop (collectionSize : UInt64) : Nat → Sampling → Option Sampling
  | 0, sampling => some sampling
  | reservoirSize + 1, sampling =>
    let i := collectionSize.toNat - (reservoirSize + 1)
    let numIndicesMissing := toUint64 (sampling.out.length - sampling.numIndicesUsed)
    if reservoirSize + 1 < numIndicesMissing then none
    else if numIndicesMissing = 0 then some sampling
    else
      let prob := Binary32.quotient (Binary32.round numIndicesMissing) (Binary32.round (reservoirSize + 1))
      let (generator, U) := sampling.generator.generate
      if U ≤ prob then
        if sampling.numIndicesUsed < sampling.out.length then
          sampleLoop collectionSize reservoirSize {
            generator
            out := sampling.out.set sampling.numIndicesUsed (UInt64.ofNat i)
            numIndicesUsed := sampling.numIndicesUsed + 1 }
        else none
      else sampleLoop collectionSize reservoirSize { sampling with generator }

def generateSampleIdxs (generator : LinearCongruentialGenerator) (collectionSize : UInt64) (out : List UInt64) :
    Option (LinearCongruentialGenerator × List UInt64) :=
  if out.length ≤ collectionSize.toNat then
    (sampleLoop collectionSize collectionSize.toNat ⟨generator, out, 0⟩).map fun sampling =>
      (sampling.generator, sampling.out)
  else none

end AxbyCore.Random
