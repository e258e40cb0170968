import AxbyCore.Library.AffineIteration
import AxbyCore.Random.LinearCongruentialGenerator
import Mathlib.Data.Fintype.EquivFin

/-! The seeds that calls of the generator go through. The unsigned arithmetic is that of an
affine map modulo 2^32, whose multiplier and increment give it the longest period. -/

namespace AxbyCore.Proofs.FullPeriod
open AffineIteration AxbyCore.Random

/-- The generator after so many calls of `generate`. -/
def after (calls : Nat) (generator : LinearCongruentialGenerator) : LinearCongruentialGenerator :=
  (fun generator => generator.generate.1)^[calls] generator

theorem after_add (first second : Nat) (generator : LinearCongruentialGenerator) :
    after (first + second) generator = after first (after second generator) :=
  Function.iterate_add_apply ..

theorem generate_modEq (generator : LinearCongruentialGenerator) :
    (generator.generate.1.seed.toNat : Int) ≡ affine 1664525 1013904223 generator.seed.toNat [ZMOD 2 ^ 32] := by
  have next : generator.generate.1.seed = 1664525 * generator.seed + 1013904223 := rfl
  have multiplier : (1664525 : UInt32).toNat = 1664525 := rfl
  have increment : (1013904223 : UInt32).toNat = 1013904223 := rfl
  rw [next, UInt32.toNat_add, UInt32.toNat_mul, multiplier, increment]
  push_cast
  exact (Int.mod_modEq _ _).trans ((Int.mod_modEq _ _).add_right _)

theorem after_modEq (calls : Nat) (generator : LinearCongruentialGenerator) :
    ((after calls generator).seed.toNat : Int) ≡ (affine 1664525 1013904223)^[calls] generator.seed.toNat [ZMOD 2 ^ 32] := by
  induction calls with
  | zero => rfl
  | succ calls ih =>
    have last : after (calls + 1) generator = (after calls generator).generate.1 := Function.iterate_succ_apply' ..
    rw [last, Function.iterate_succ_apply']
    exact (generate_modEq _).trans (affine_modEq ih)

theorem eq_iff_modEq {first second : LinearCongruentialGenerator} :
    first = second ↔ (first.seed.toNat : Int) ≡ second.seed.toNat [ZMOD 2 ^ 32] := by
  constructor
  · rintro rfl
    rfl
  · intro same
    have seeds : first.seed.toNat = second.seed.toNat := by
      have below := first.seed.toNat_lt
      have above := second.seed.toNat_lt
      rw [Int.ModEq] at same
      omega
    cases first
    cases second
    exact congrArg _ (UInt32.toNat_inj.mp seeds)

theorem after_eq_iff (calls : Nat) (generator : LinearCongruentialGenerator) :
    after calls generator = generator ↔ 2 ^ 32 ∣ calls := by
  have orbit := iterate_modEq_iff (a := 1664525) (c := 1013904223) (by decide) (by decide) generator.seed.toNat 32 calls
  rw [eq_iff_modEq, ← orbit]
  exact ⟨(after_modEq calls generator).symm.trans, (after_modEq calls generator).trans⟩

/-- Within a period no state comes twice. -/
theorem after_injective {generator : LinearCongruentialGenerator} {first second : Nat} (early : first < 2 ^ 32)
    (late : second < 2 ^ 32) (same : after first generator = after second generator) : first = second := by
  wlog ordered : first ≤ second generalizing first second
  · exact (this late early same.symm (Nat.le_of_not_le ordered)).symm
  · obtain ⟨between, rfl⟩ := Nat.exists_eq_add_of_le' ordered
    have back : after between (after first generator) = after first generator := by rw [← after_add, same]
    have met : between = 0 := Nat.eq_zero_of_dvd_of_lt ((after_eq_iff _ _).mp back) (by omega)
    rw [met, Nat.zero_add]

theorem after_surjective (generator target : LinearCongruentialGenerator) : ∃ calls < 2 ^ 32, after calls generator = target := by
  let visited (calls : Fin (2 ^ 32)) : Fin (2 ^ 32) := (after calls generator).seed.toFin
  have injective : Function.Injective visited := by
    intro first second same
    apply Fin.ext
    apply after_injective first.isLt second.isLt
    apply eq_iff_modEq.mpr
    have seeds : (after first generator).seed.toNat = (after second generator).seed.toNat := congrArg Fin.val same
    rw [seeds]
  obtain ⟨calls, reached⟩ := Finite.surjective_of_injective injective target.seed.toFin
  refine ⟨calls, calls.isLt, eq_iff_modEq.mpr ?_⟩
  have seeds : (after calls generator).seed.toNat = target.seed.toNat := congrArg Fin.val reached
  rw [seeds]

/-- Every state is met once in a period, whatever the seed. -/
theorem full_period (generator : LinearCongruentialGenerator) :
    (∀ calls, after calls generator = generator ↔ 2 ^ 32 ∣ calls) ∧
    ∀ target, ∃! calls, calls < 2 ^ 32 ∧ after calls generator = target := by
  refine ⟨fun calls => after_eq_iff calls generator, fun target => ?_⟩
  obtain ⟨calls, early, reached⟩ := after_surjective generator target
  refine ⟨calls, ⟨early, reached⟩, ?_⟩
  rintro other ⟨within, meets⟩
  exact after_injective within early (meets.trans reached.symm)

end AxbyCore.Proofs.FullPeriod
