import AxbyCore.Proofs.TimeSyncBounds
import Mathlib.Data.Nat.Cast.Order.Field
import Mathlib.Data.Real.Basic
import Mathlib.Tactic.Linarith
import Mathlib.Tactic.Ring

/-! Soundness of the offset estimate. Every round trip with an honest server puts
the offset between two bounds, up to the drift since then; widened by the
correction and merged they still enclose it. -/

namespace AxbyCore.TimeSync.Proofs
open MachineInt

/-- The server's clock was read at an instant of the round trip, at which it was
ahead of the client's by the offset. -/
def Honest (theta : ℝ → ℝ) (times : TimingTriplet) : Prop :=
  ∃ instant : ℝ, times.send ≤ instant ∧ instant ≤ times.recv ∧ (times.serv : ℝ) = instant + theta instant

def roundTripTime (times : TimingTriplet) : Nat := times.recv - times.send

def largestRoundTrip (samples : List SlidingWindowSample) : Nat :=
  (samples.map fun sample => roundTripTime sample.timingTriplet).foldr max 0

theorem roundTripTime_le {samples : List SlidingWindowSample} {sample : SlidingWindowSample} (member : sample ∈ samples) :
    roundTripTime sample.timingTriplet ≤ largestRoundTrip samples := by
  unfold largestRoundTrip
  induction samples with
  | nil => simp at member
  | cons first samples ih =>
    rcases List.mem_cons.mp member with rfl | later
    · exact le_max_left _ _
    · exact le_trans (ih later) (le_max_right _ _)

section
variable {theta : ℝ → ℝ} {rho : ℝ} {drift now : Nat} {times : TimingTriplet}

/-- The drift since an instant of the round trip is covered by the correction, by
half the round trip, and by what the truncation takes off. -/
theorem drift_since (rate : ∀ a b, |theta a - theta b| ≤ rho * |a - b|) (nonneg : 0 ≤ rho)
    (covered : rho * 10 ^ 6 ≤ drift) (valid : InRange drift now times) {instant : ℝ}
    (after : times.send ≤ instant) (before : instant ≤ times.recv) :
    |theta now - theta instant| ≤ correction drift now times + rho * roundTripTime times / 2 + 1 := by
  obtain ⟨ordered, past, _, _, _⟩ := valid
  have elapsed : (now : ℝ) - instant ≤ (now - (times.recv + times.send) / 2 : Nat) + (roundTripTime times : ℝ) / 2 := by
    have half : (((times.recv + times.send) / 2 : Nat) : ℝ) ≤ (times.recv + times.send) / 2 := by
      have := Nat.cast_div_le (α := ℝ) (m := times.recv + times.send) (n := 2)
      push_cast at this
      exact this
    have trip : (roundTripTime times : ℝ) = times.recv - times.send := Nat.cast_sub ordered
    rw [Nat.cast_sub (by omega), trip]
    linarith
  have latest : instant ≤ now := le_trans before (by exact_mod_cast past)
  have corrected : rho * (now - (times.recv + times.send) / 2 : Nat) ≤ correction drift now times + 1 := by
    have truncated : (drift * (now - (times.recv + times.send) / 2) : Nat) ≤ 10 ^ 6 * (correction drift now times + 1) := by
      unfold correction
      omega
    have truncated : (drift : ℝ) * (now - (times.recv + times.send) / 2 : Nat) ≤
        10 ^ 6 * (correction drift now times + 1) := by exact_mod_cast truncated
    have scaled := mul_le_mul_of_nonneg_right covered (Nat.cast_nonneg (α := ℝ) (now - (times.recv + times.send) / 2))
    linarith
  calc |theta now - theta instant| ≤ rho * |now - instant| := rate now instant
    _ = rho * (now - instant) := by rw [abs_of_nonneg (by linarith)]
    _ ≤ rho * ((now - (times.recv + times.send) / 2 : Nat) + (roundTripTime times : ℝ) / 2) :=
      mul_le_mul_of_nonneg_left elapsed nonneg
    _ ≤ correction drift now times + rho * roundTripTime times / 2 + 1 := by linarith

theorem lower_le (rate : ∀ a b, |theta a - theta b| ≤ rho * |a - b|) (nonneg : 0 ≤ rho)
    (covered : rho * 10 ^ 6 ≤ drift) (valid : InRange drift now times) (honest : Honest theta times) :
    (lower drift now times : ℝ) ≤ theta now + (rho * roundTripTime times / 2 + 1) := by
  obtain ⟨instant, after, before, clock⟩ := honest
  have drifted := abs_le.mp (drift_since rate nonneg covered valid after before)
  unfold lower
  push_cast
  linarith [drifted.1]

theorem le_upper (rate : ∀ a b, |theta a - theta b| ≤ rho * |a - b|) (nonneg : 0 ≤ rho)
    (covered : rho * 10 ^ 6 ≤ drift) (valid : InRange drift now times) (honest : Honest theta times) :
    theta now - (rho * roundTripTime times / 2 + 1) ≤ upper drift now times := by
  obtain ⟨instant, after, before, clock⟩ := honest
  have drifted := abs_le.mp (drift_since rate nonneg covered valid after before)
  unfold upper
  push_cast
  linarith [drifted.2]

end

/-- The merged bounds enclose the offset, up to `slack`. -/
def Encloses (bounds : Bounds) (offset slack : ℝ) : Prop :=
  bounds.offsetUsLb - slack ≤ offset ∧ offset ≤ bounds.offsetUsUb + slack

/-- Halving towards zero is off by at most a half. -/
theorem half_error (sum : Int) : |((sum.tdiv 2 : Int) : ℝ) - sum / 2| ≤ 1 / 2 := by
  have exact := Int.mul_tdiv_add_tmod sum 2
  have below : sum.tmod 2 < 2 := Int.tmod_lt_of_pos sum (by decide)
  have above : -2 < sum.tmod 2 := Int.lt_tmod_of_pos sum (by decide)
  have value : (sum : ℝ) = 2 * (sum.tdiv 2 : Int) + (sum.tmod 2 : Int) := by exact_mod_cast exact.symm
  have below : ((sum.tmod 2 : Int) : ℝ) ≤ 1 := by exact_mod_cast Int.lt_add_one_iff.mp below
  have above : (-1 : ℝ) ≤ (sum.tmod 2 : Int) := by exact_mod_cast above
  rw [abs_le]
  constructor <;> linarith

/-- The middle of bounds that enclose the offset is off by at most half their width. -/
theorem middle_error {bounds : Bounds} {offset slack : ℝ} (encloses : Encloses bounds offset slack) :
    |(((bounds.offsetUsUb + bounds.offsetUsLb).tdiv 2 : Int) : ℝ) - offset| ≤
      ((bounds.offsetUsUb - bounds.offsetUsLb : Int) : ℝ) / 2 + slack + 1 / 2 := by
  have half := abs_le.mp (half_error (bounds.offsetUsUb + bounds.offsetUsLb))
  obtain ⟨above, below⟩ := encloses
  push_cast at half ⊢
  rw [abs_le]
  constructor <;> linarith [half.1, half.2]

theorem Merged.encloses {theta : ℝ → ℝ} {rho : ℝ} {drift now : Nat} {samples : List SlidingWindowSample} {bounds : Bounds}
    (rate : ∀ a b, |theta a - theta b| ≤ rho * |a - b|) (nonneg : 0 ≤ rho) (covered : rho * 10 ^ 6 ≤ drift)
    (valid : ∀ sample ∈ samples, InRange drift now sample.timingTriplet)
    (honest : ∀ sample ∈ samples, Honest theta sample.timingTriplet)
    (merged : Merged drift now samples bounds) (set : ¬ bounds.Unset) :
    Encloses bounds (theta now) (rho * largestRoundTrip samples / 2 + 1) := by
  have trip : ∀ sample ∈ samples,
      rho * roundTripTime sample.timingTriplet / 2 ≤ rho * largestRoundTrip samples / 2 := by
    intro sample member
    have longest : (roundTripTime sample.timingTriplet : ℝ) ≤ largestRoundTrip samples := by
      exact_mod_cast roundTripTime_le member
    linarith [mul_le_mul_of_nonneg_left longest nonneg]
  obtain ⟨low, lowMember, lowest⟩ := merged.lowest.resolve_left fun same => set (Or.inr same)
  obtain ⟨high, highMember, highest⟩ := merged.highest.resolve_left fun same => set (Or.inl same)
  have below := lower_le rate nonneg covered (valid low lowMember) (honest low lowMember)
  have above := le_upper rate nonneg covered (valid high highMember) (honest high highMember)
  have lowTrip := trip low lowMember
  have highTrip := trip high highMember
  unfold Encloses
  rw [lowest, highest]
  constructor <;> linarith

/-- Bounds of a window that is not empty have been set. -/
theorem Merged.set {drift now : Nat} {samples : List SlidingWindowSample} {bounds : Bounds}
    (valid : ∀ sample ∈ samples, InRange drift now sample.timingTriplet) (merged : Merged drift now samples bounds)
    (nonempty : samples ≠ []) : ¬ bounds.Unset := by
  obtain ⟨sample, member⟩ := List.exists_mem_of_ne_nil samples nonempty
  have above := merged.above sample member
  have below := merged.below sample member
  have small := correction_small (valid sample member)
  obtain ⟨ordered, past, clock, serv, _⟩ := valid sample member
  unfold lower at above
  unfold upper at below
  unfold Bounds.Unset
  omega

/-- The part after the loop gives a result, and a state that it returns has the
middle of the bounds for its estimate and their width for its round trip. -/
theorem adapt_fits (ctx : IngestContext) {bounds : Bounds} (observed : bounds.observedRoundTripTimeUs < 2 ^ 64)
    (fits : ¬ bounds.Unset →
      FitsInt64 (bounds.offsetUsUb - bounds.offsetUsLb) ∧ FitsInt64 (bounds.offsetUsUb + bounds.offsetUsLb)) :
    ∃ after message, adapt ctx bounds = some (after, message) ∧ ∀ state, message = some state →
      ¬ bounds.Unset ∧ state.offsetEstimateUs = (bounds.offsetUsUb + bounds.offsetUsLb).tdiv 2 ∧
        (state.minRoundTripTimeUs : Int) = bounds.offsetUsUb - bounds.offsetUsLb := by
  unfold adapt
  by_cases unset : bounds.Unset
  · rw [if_pos unset]
    exact ⟨_, _, rfl, by simp⟩
  · obtain ⟨width, sum⟩ := fits unset
    rw [if_neg unset, signed_of_fits width, Option.bind_eq_bind, Option.bind_some]
    split
    next => exact ⟨_, _, rfl, by simp⟩
    next wide =>
      rw [signed_of_fits sum]
      refine ⟨_, _, rfl, ?_⟩
      intro state same
      obtain rfl := Option.some.inj same
      refine ⟨unset, rfl, ?_⟩
      -- a width above half the observed round trip is not negative
      rw [toInt64_natCast (by omega)] at wide
      unfold FitsInt64 at width
      exact toUint64_of_nonneg (by omega) (by omega)

/-- The rate at which the offset changes is covered by the correction. -/
structure Drifting (theta : ℝ → ℝ) (rho : ℝ) (drift : Nat) : Prop where
  rate : ∀ a b, |theta a - theta b| ≤ rho * |a - b|
  nonneg : 0 ≤ rho
  covered : rho * 10 ^ 6 ≤ drift

/-- With an honest server no CHECK fails, the merged bounds enclose the offset,
and the estimate is off by at most half their width, up to the drift in half of
the largest round trip. -/
theorem time_sync_sound {theta : ℝ → ℝ} {rho : ℝ} {ctx : IngestContext} {reading : Reading}
    {samples : List SlidingWindowSample} (window : (nextWindow ctx.window reading).samples = samples)
    (drifting : Drifting theta rho ctx.clockDriftUsPerSec)
    (valid : ∀ sample ∈ samples, InRange ctx.clockDriftUsPerSec reading.currentTimeUs sample.timingTriplet)
    (honest : ∀ sample ∈ samples, Honest theta sample.timingTriplet) :
    (∃ after message, processIngestBuffer exactQuotient ctx reading = some (after, message) ∧
      ∀ state, message = some state →
        |(state.offsetEstimateUs : ℝ) - theta reading.currentTimeUs| ≤
          (state.minRoundTripTimeUs : ℝ) / 2 + rho * largestRoundTrip samples / 2 + 2) ∧
    ∃ bounds, mergeSamples exactQuotient ctx.clockDriftUsPerSec reading.currentTimeUs samples = some bounds ∧
      (samples ≠ [] → Encloses bounds (theta reading.currentTimeUs) (rho * largestRoundTrip samples / 2 + 1)) := by
  obtain ⟨rate, nonneg, covered⟩ := drifting
  obtain ⟨bounds, found, merged⟩ := mergeSamples_merged valid
  have encloses := merged.encloses rate nonneg covered valid honest
  obtain ⟨after, message, adapted, estimate⟩ := adapt_fits
    { ctx with window := nextWindow ctx.window reading } merged.observed (merged.fits valid)
  refine ⟨⟨after, message, ?_, ?_⟩, bounds, found, fun nonempty => encloses (merged.set valid nonempty)⟩
  · unfold processIngestBuffer
    simp only [window, found, Option.bind_eq_bind, Option.bind_some]
    exact adapted
  · intro state returned
    obtain ⟨set, middle, width⟩ := estimate state returned
    have error := middle_error (encloses set)
    rw [← middle, ← width] at error
    push_cast at error
    linarith

/-! A server that is five microseconds ahead at first and gains ten in a second. -/

noncomputable def gaining (instant : ℝ) : ℝ := (5 : ℕ) + instant / (100000 : ℕ)

theorem gaining_rate (a b : ℝ) : |gaining a - gaining b| ≤ 1 / 100000 * |a - b| := by
  have scaled : gaining a - gaining b = 1 / 100000 * (a - b) := by
    unfold gaining
    push_cast
    ring
  rw [scaled, abs_mul, abs_of_pos (by norm_num)]

/-- Two round trips, at the beginning and a fifth of a second later. -/
def fifthApart : Reading := ⟨[⟨0, 5, 10⟩, ⟨200000, 200007, 200010⟩], 200, 200010⟩

theorem time_sync_sound_gaining :
    (processIngestBuffer exactQuotient ⟨40, ⟨1250, []⟩⟩ fifthApart).map Prod.snd = some (some ⟨2, 10, 10⟩) ∧
      |((2 : Int) : ℝ) - gaining (200010 : Nat)| ≤ (10 : Nat) / 2 + 1 / 100000 * (10 : Nat) / 2 + 2 := by
  have window : (nextWindow ⟨1250, []⟩ fifthApart).samples = [⟨200, ⟨0, 5, 10⟩⟩, ⟨200, ⟨200000, 200007, 200010⟩⟩] := rfl
  have returned : (processIngestBuffer exactQuotient ⟨40, ⟨1250, []⟩⟩ fifthApart).map Prod.snd = some (some ⟨2, 10, 10⟩) := by
    decide
  have drifting : Drifting gaining (1 / 100000) 40 := ⟨gaining_rate, by norm_num, by norm_num⟩
  have sound := @time_sync_sound _ _ ⟨40, ⟨1250, []⟩⟩ fifthApart _ window drifting
  simp only [List.forall_mem_cons, List.not_mem_nil, false_imp_iff, implies_true, and_true] at sound
  have first : Honest gaining ⟨0, 5, 10⟩ := ⟨0, by norm_num, by norm_num, by norm_num [gaining]⟩
  have second : Honest gaining ⟨200000, 200007, 200010⟩ := ⟨200000, by norm_num, by norm_num, by norm_num [gaining]⟩
  obtain ⟨⟨after, message, processed, near⟩, _⟩ := sound
    ⟨⟨by decide, by decide, by decide, by decide, by decide⟩, by decide, by decide, by decide, by decide, by decide⟩
    ⟨first, second⟩
  rw [processed] at returned ⊢
  exact ⟨returned, near _ (Option.some.inj returned)⟩

end AxbyCore.TimeSync.Proofs
