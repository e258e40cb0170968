import AxbyCore.Random.LinearCongruentialGenerator
import Mathlib.Algebra.Order.Field.Basic

/-! Selection sampling always fills its output. No more indices are missing than are
left, and once they are as many every draw is accepted. -/

namespace AxbyCore.Proofs.SampleIndices
open AxbyCore.Random Binary32 MachineInt

theorem generate_le_one (generator : LinearCongruentialGenerator) : generator.generate.2 ≤ 1 := by
  simp only [LinearCongruentialGenerator.generate]
  have small := (1664525 * generator.seed + 1013904223).toNat_lt
  have rounded : Binary32.round (1664525 * generator.seed + 1013904223).toNat ≤ 2 ^ 32 :=
    round_le_two_pow (Nat.le_of_lt small)
  have cast : (Binary32.round (1664525 * generator.seed + 1013904223).toNat : Rat) ≤ 4294967296 := by
    exact_mod_cast rounded
  exact (div_le_one (by decide)).mpr cast

/-- What holds with so many iterations left: the filled positions hold increasing
indices that were passed, and the rest can still be filled. -/
structure Filling (collectionSize : UInt64) (reservoirSize : Nat) (sampling : Sampling) : Prop where
  left : reservoirSize ≤ collectionSize.toNat
  used : sampling.numIndicesUsed ≤ sampling.out.length
  enough : sampling.out.length - sampling.numIndicesUsed ≤ reservoirSize
  increasing : (sampling.out.take sampling.numIndicesUsed).Pairwise (· < ·)
  passed : ∀ index ∈ sampling.out.take sampling.numIndicesUsed, index.toNat + reservoirSize < collectionSize.toNat

section
variable {collectionSize : UInt64} {reservoirSize : Nat} {sampling : Sampling}

theorem Filling.missing (filling : Filling collectionSize reservoirSize sampling) :
    toUint64 (sampling.out.length - sampling.numIndicesUsed) = sampling.out.length - sampling.numIndicesUsed := by
  have used := filling.used
  have left := filling.left
  have enough := filling.enough
  have small := collectionSize.toNat_lt
  rw [← Int.ofNat_sub used]
  exact toUint64_natCast (by omega)

/-- The index of this iteration fills the next position. -/
theorem Filling.take (filling : Filling collectionSize (reservoirSize + 1) sampling)
    (needed : sampling.numIndicesUsed < sampling.out.length) (generator : LinearCongruentialGenerator) :
    Filling collectionSize reservoirSize {
      generator
      out := sampling.out.set sampling.numIndicesUsed (UInt64.ofNat (collectionSize.toNat - (reservoirSize + 1)))
      numIndicesUsed := sampling.numIndicesUsed + 1 } := by
  have left := filling.left
  have enough := filling.enough
  have small := collectionSize.toNat_lt
  have index : (UInt64.ofNat (collectionSize.toNat - (reservoirSize + 1))).toNat = collectionSize.toNat - (reservoirSize + 1) := by
    rw [UInt64.toNat_ofNat']
    omega
  have filled : ((sampling.out.set sampling.numIndicesUsed
      (UInt64.ofNat (collectionSize.toNat - (reservoirSize + 1)))).take (sampling.numIndicesUsed + 1)) =
      sampling.out.take sampling.numIndicesUsed ++ [UInt64.ofNat (collectionSize.toNat - (reservoirSize + 1))] := by
    rw [List.take_add_one, List.take_set_of_le (Nat.le_refl _), List.getElem?_set_self needed]
    rfl
  constructor
  · omega
  · simp only [List.length_set]
    omega
  · simp only [List.length_set]
    omega
  · simp only
    rw [filled]
    apply List.pairwise_append.mpr
    refine ⟨filling.increasing, List.pairwise_singleton _ _, ?_⟩
    intro earlier member last singleton
    obtain rfl := List.mem_singleton.mp singleton
    have passed := filling.passed earlier member
    apply UInt64.lt_iff_toNat_lt.mpr
    omega
  · simp only
    rw [filled]
    intro earlier member
    rcases List.mem_append.mp member with before | last
    · have passed := filling.passed earlier before
      omega
    · obtain rfl := List.mem_singleton.mp last
      omega

/-- An index is passed over only while more are left than are missing. -/
theorem Filling.skip (filling : Filling collectionSize (reservoirSize + 1) sampling)
    (spare : sampling.out.length - sampling.numIndicesUsed ≠ reservoirSize + 1) (generator : LinearCongruentialGenerator) :
    Filling collectionSize reservoirSize { sampling with generator } := by
  have left := filling.left
  have enough := filling.enough
  constructor
  · omega
  · exact filling.used
  · simp only
    omega
  · exact filling.increasing
  · intro earlier member
    have passed := filling.passed earlier member
    omega

/-- The loop ends with every position filled. -/
theorem sampleLoop_fills (filling : Filling collectionSize reservoirSize sampling) :
    ∃ result left, sampleLoop collectionSize reservoirSize sampling = some result ∧
      result.out.length = sampling.out.length ∧ result.numIndicesUsed = result.out.length ∧
      Filling collectionSize left result := by
  induction reservoirSize generalizing sampling with
  | zero =>
    have used := filling.used
    have enough := filling.enough
    exact ⟨sampling, 0, rfl, rfl, by omega, filling⟩
  | succ reservoirSize ih =>
    have used := filling.used
    have enough := filling.enough
    have missing := filling.missing
    simp only [sampleLoop, missing]
    rw [if_neg (by omega)]
    by_cases finished : sampling.out.length - sampling.numIndicesUsed = 0
    · rw [if_pos finished]
      exact ⟨sampling, reservoirSize + 1, rfl, rfl, by omega, filling⟩
    · rw [if_neg finished]
      split
      next accepted =>
        rw [if_pos (by omega)]
        obtain ⟨result, left, ended, size, full, kept⟩ := ih (filling.take (by omega) sampling.generator.generate.1)
        rw [List.length_set] at size
        exact ⟨result, left, ended, size, full, kept⟩
      next rejected =>
        -- as many missing as left would have been accepted for certain
        have spare : sampling.out.length - sampling.numIndicesUsed ≠ reservoirSize + 1 := by
          intro same
          apply rejected
          rw [same, quotient_self (round_pos (Nat.succ_pos _))]
          exact generate_le_one sampling.generator
        exact ih (filling.skip spare sampling.generator.generate.1)

end

theorem filling_initial (generator : LinearCongruentialGenerator) {collectionSize : UInt64} {out : List UInt64}
    (fits : out.length ≤ collectionSize.toNat) : Filling collectionSize collectionSize.toNat ⟨generator, out, 0⟩ := by
  constructor
  · exact Nat.le_refl _
  · exact Nat.zero_le _
  · simpa using fits
  · simp
  · simp

/-- Whatever the seed, the output is filled with increasing indices of the collection. -/
theorem indices_sampled (generator : LinearCongruentialGenerator) (collectionSize : UInt64) (out : List UInt64)
    (fits : out.length ≤ collectionSize.toNat) :
    ∃ after indices, generateSampleIdxs generator collectionSize out = some (after, indices) ∧
      indices.length = out.length ∧ indices.Pairwise (· < ·) ∧ indices.Nodup ∧ ∀ index ∈ indices, index < collectionSize := by
  obtain ⟨result, left, ended, size, full, filling⟩ := sampleLoop_fills (filling_initial generator fits)
  have whole : result.out.take result.numIndicesUsed = result.out := by rw [full, List.take_length]
  have increasing := filling.increasing
  have passed := filling.passed
  rw [whole] at increasing passed
  refine ⟨result.generator, result.out, ?_, size, increasing, ?_, ?_⟩
  · rw [generateSampleIdxs, if_pos fits, ended]
    rfl
  · exact increasing.imp fun below => UInt64.ne_of_lt below
  · intro index member
    have below := passed index member
    apply UInt64.lt_iff_toNat_lt.mpr
    omega

theorem indices_sampled_seven : ∃ after indices, generateSampleIdxs ⟨7⟩ 3 [0, 0] = some (after, indices) ∧
    indices.length = 2 ∧ indices.Pairwise (· < ·) ∧ indices.Nodup ∧ ∀ index ∈ indices, index < 3 :=
  indices_sampled ⟨7⟩ 3 [0, 0] (by decide)

end AxbyCore.Proofs.SampleIndices
