import AxbyCore.Library.SampleMoments
import AxbyCore.Math.RunningStat
import Mathlib.Data.List.Induction
import Mathlib.Data.List.Infix
import Mathlib.Tactic.NormNum

/-! Running statistics are those of the values pushed since the last clear. What
clearing leaves in the accumulators is overwritten before it is read. -/

namespace AxbyCore.Proofs.RunningStatistics
open Math MachineInt

/-- The values pushed since the last clear. -/
def pushed (operations : List RunningStat.Operation) : List Rat :=
  operations.foldl (fun values operation => match operation with | .push x => values ++ [x] | .clear => []) []

/-- The accumulators hold the moments of the values, as far as there are enough of them. -/
structure Holds (stat : RunningStat) (values : List Rat) : Prop where
  count : stat.n = values.length
  oldM : values ≠ [] → stat.oldM = Sample.mean values
  newM : values ≠ [] → stat.newM = Sample.mean values
  oldS : values ≠ [] → stat.oldS = Sample.deviations values
  newS : 2 ≤ values.length → stat.newS = Sample.deviations values

theorem holds_initial : Holds {} [] := by constructor <;> simp

theorem holds_clear (stat : RunningStat) : Holds stat.clear [] := by constructor <;> simp [RunningStat.clear]

theorem holds_push {stat : RunningStat} {values : List Rat} (holds : Holds stat values) (few : values.length + 1 < 2 ^ 31)
    (x : Rat) : ∃ after, stat.push x = .done after ∧ Holds after (values ++ [x]) := by
  have fits : FitsInt32 (stat.n + 1) := by
    have count := holds.count
    unfold FitsInt32
    omega
  unfold RunningStat.push
  rw [Outcome.require_of fits, Outcome.done_bind]
  by_cases empty : values = []
  · subst empty
    have first : stat.n + 1 = 1 := by simp [holds.count]
    simp only [first, ↓reduceIte]
    refine ⟨_, rfl, ?_⟩
    constructor <;> simp
  · have positive : 0 < values.length := List.length_pos_iff.mpr empty
    have later : stat.n + 1 ≠ 1 := by
      have count := holds.count
      omega
    have size : ((stat.n + 1 : Int) : Rat) = values.length + 1 := by simp [holds.count]
    simp only [later, ↓reduceIte, size, holds.oldM empty, holds.oldS empty, ← Sample.mean_concat,
      ← Sample.deviations_concat]
    refine ⟨_, rfl, ?_⟩
    constructor <;> simp [holds.count]

theorem holds_run (operations : List RunningStat.Operation)
    (few : ∀ earlier, earlier <+: operations → (pushed earlier).length < 2 ^ 31) :
    ∃ final, operations.foldlM RunningStat.apply {} = .done final ∧ Holds final (pushed operations) := by
  induction operations using List.reverseRecOn with
  | nil => exact ⟨{}, rfl, holds_initial⟩
  | append_singleton operations operation ih =>
    obtain ⟨before, ran, holds⟩ := ih fun earlier shorter => few earlier (shorter.trans (List.prefix_append ..))
    rw [List.foldlM_append, ran, Outcome.done_bind]
    have whole := few _ (List.prefix_refl _)
    cases operation with
    | clear =>
      refine ⟨before.clear, rfl, ?_⟩
      simpa [pushed] using holds_clear before
    | push x =>
      have longer : pushed (operations ++ [.push x]) = pushed operations ++ [x] := by simp [pushed]
      rw [longer, List.length_append] at whole
      obtain ⟨after, moved, kept⟩ := holds_push holds whole x
      refine ⟨after, ?_, longer ▸ kept⟩
      simp only [List.foldlM_cons, List.foldlM_nil, RunningStat.apply, moved, Outcome.done_bind]
      rfl

theorem mean_eq {stat : RunningStat} {values : List Rat} (holds : Holds stat values) (nonempty : values ≠ []) :
    stat.mean = Sample.mean values := by
  have positive : 0 < stat.n := by simpa [holds.count] using List.length_pos_iff.mpr nonempty
  rw [RunningStat.mean, if_pos positive, holds.newM nonempty]

theorem variance_eq {stat : RunningStat} {values : List Rat} (holds : Holds stat values) (several : 2 ≤ values.length) :
    stat.variance = Sample.variance values := by
  have above : 1 < stat.n := by
    have count := holds.count
    omega
  rw [RunningStat.variance, if_pos above, holds.newS several, holds.count, Int.cast_natCast, Sample.variance]

/-- Whatever has been pushed and cleared, with fewer than 2^31 values at a time. -/
theorem running_statistics (operations : List RunningStat.Operation)
    (few : ∀ earlier, earlier <+: operations → (pushed earlier).length < 2 ^ 31) :
    ∃ final, operations.foldlM RunningStat.apply {} = .done final ∧
      final.mean = (if pushed operations = [] then 0 else (pushed operations).sum / (pushed operations).length : Rat) ∧
      final.variance = (if (pushed operations).length ≤ 1 then 0
        else ((pushed operations).map fun x => (x - final.mean) ^ 2 : List Rat).sum /
          ((pushed operations).length - 1) : Rat) := by
  obtain ⟨final, ran, holds⟩ := holds_run operations few
  refine ⟨final, ran, ?_, ?_⟩
  · split
    next empty => simp [RunningStat.mean, holds.count, empty]
    next nonempty => exact mean_eq holds nonempty
  · split
    next small =>
      have unready : ¬ 1 < final.n := by
        have count := holds.count
        omega
      exact if_neg unready
    next large =>
      have several : 2 ≤ (pushed operations).length := by omega
      have nonempty : pushed operations ≠ [] := List.length_pos_iff.mp (by omega)
      rw [variance_eq holds several, mean_eq holds nonempty]
      rfl

theorem running_statistics_restarted : ∃ final,
    [.push 5, .clear, .push 2, .push 4].foldlM RunningStat.apply {} = .done final ∧ final.mean = 3 ∧ final.variance = 2 := by
  have few : ∀ earlier, earlier <+: [.push 5, .clear, .push 2, .push 4] → (pushed earlier).length < 2 ^ 31 := by
    intro earlier shorter
    have all : ∀ list ∈ List.inits [.push 5, .clear, .push 2, .push 4], (pushed list).length < 2 ^ 31 := by decide
    exact all earlier ((List.mem_inits ..).mpr shorter)
  obtain ⟨final, ran, mean, variance⟩ := running_statistics _ few
  have values : pushed [.push 5, .clear, .push 2, .push 4] = [2, 4] := rfl
  have three : final.mean = 3 := by simpa [values, show (2 + 4 : Rat) / 2 = 3 by norm_num] using mean
  have two : (([2, 4].map fun x => (x - 3) ^ 2).sum / (([2, 4] : List Rat).length - 1) : Rat) = 2 := by norm_num
  rw [three, values] at variance
  exact ⟨final, ran, three, (variance.trans (if_neg (by decide))).trans two⟩

end AxbyCore.Proofs.RunningStatistics
