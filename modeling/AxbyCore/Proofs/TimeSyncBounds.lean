import AxbyCore.TimeSync.Ingest
import Mathlib.Data.Int.Cast.Lemmas
import Mathlib.Data.List.Induction
import Mathlib.Order.Lattice
import Mathlib.Algebra.Order.Ring.Int

/-! The loop over the window on timestamps in range. No CHECK fails, nothing wraps,
and the merged bounds are the largest of the lower and the smallest of the upper
bounds of the round trips. -/

namespace AxbyCore.TimeSync.Proofs
open MachineInt

/-- Timestamps that any arithmetic of the loop can take without wrapping. -/
structure InRange (drift now : Nat) (times : TimingTriplet) : Prop where
  ordered : times.send ≤ times.recv
  past : times.recv ≤ now
  clock : now < 2 ^ 62
  serv : times.serv < 2 ^ 62
  product : drift * (now - (times.recv + times.send) / 2) < 2 ^ 64

def correction (drift now : Nat) (times : TimingTriplet) : Nat :=
  drift * (now - (times.recv + times.send) / 2) / 10 ^ 6

def lower (drift now : Nat) (times : TimingTriplet) : Int := times.serv - times.recv - correction drift now times

def upper (drift now : Nat) (times : TimingTriplet) : Int := times.serv - times.send + correction drift now times

theorem correction_small {drift now : Nat} {times : TimingTriplet} (valid : InRange drift now times) :
    correction drift now times < 2 ^ 45 := by
  have product := valid.product
  unfold correction
  omega

theorem safeMinus_eq {a b : Nat} (first : a < 2 ^ 62) (second : b < 2 ^ 62) : safeMinus a b = some ((a : Int) - b) := by
  unfold safeMinus
  split
  next larger =>
    rw [toInt64_toUint64 (by unfold FitsInt64; omega)]
  next notLarger =>
    rw [toInt64_toUint64 (by unfold FitsInt64; omega), signed_of_fits (by unfold FitsInt64; omega)]
    congr 1
    omega

theorem estimated_eq {drift now : Nat} {times : TimingTriplet} (valid : InRange drift now times) :
    estimatedClockDriftUs exactQuotient drift now times = correction drift now times := by
  obtain ⟨ordered, past, clock, _, product⟩ := valid
  have sum : toUint64 ((times.recv : Int) + times.send) = times.recv + times.send := by
    rw [← Nat.cast_add, toUint64_natCast (by omega)]
  have elapsed : toUint64 ((now : Int) - ((times.recv + times.send) / 2 : Nat)) = now - (times.recv + times.send) / 2 := by
    rw [← Nat.cast_sub (by omega), toUint64_natCast (by omega)]
  unfold estimatedClockDriftUs correction
  simp only [sum, elapsed]
  rw [← Nat.cast_mul, toUint64_natCast product]
  rfl

/-- The bounds of the window, with one more round trip merged into them. -/
def narrow (drift now : Nat) (bounds : Bounds) (times : TimingTriplet) : Bounds where
  offsetUsLb := max bounds.offsetUsLb (lower drift now times)
  offsetUsUb := min bounds.offsetUsUb (upper drift now times)
  observedRoundTripTimeUs := min bounds.observedRoundTripTimeUs (times.recv - times.send)

/-- The body of the loop on timestamps in range. -/
theorem mergeSample_eq {drift now : Nat} {sample : SlidingWindowSample} (valid : InRange drift now sample.timingTriplet)
    (bounds : Bounds) :
    mergeSample exactQuotient drift now bounds sample = some (narrow drift now bounds sample.timingTriplet) := by
  obtain ⟨timeMs, times⟩ := sample
  have small := correction_small valid
  have corrected := estimated_eq valid
  obtain ⟨ordered, past, clock, serv, _⟩ := valid
  dsimp only at *
  have thisUb : toInt64 (toUint64 ((times.serv : Int) - times.send)) = times.serv - times.send :=
    toInt64_toUint64 (by unfold FitsInt64; omega)
  have thisLb := safeMinus_eq serv (Nat.lt_of_le_of_lt past clock)
  have roundTrip : signed ((times.serv : Int) - times.send - (times.serv - times.recv)) =
      some (((times.recv - times.send : Nat) : Int)) := by
    rw [signed_of_fits (by unfold FitsInt64; omega)]
    congr 1
    omega
  have low : toInt64 (toUint64 ((times.serv : Int) - times.recv - correction drift now times)) = lower drift now times :=
    toInt64_toUint64 (by unfold FitsInt64; omega)
  have high : toInt64 (toUint64 ((times.serv : Int) - times.send + correction drift now times)) = upper drift now times :=
    toInt64_toUint64 (by unfold FitsInt64; omega)
  have bracket : (times.serv : Int) - times.recv ≤ times.serv - times.send := by omega
  have width := toUint64_natCast (by omega : times.recv - times.send < 2 ^ 64)
  simp only [mergeSample, guard, ordered, past, thisUb, thisLb, bracket, if_true, Option.bind_eq_bind, Option.pure_def,
    Option.bind_some, roundTrip, corrected, low, high, width, narrow]

/-- What the loop has merged. -/
structure Merged (drift now : Nat) (samples : List SlidingWindowSample) (bounds : Bounds) : Prop where
  above : ∀ sample ∈ samples, lower drift now sample.timingTriplet ≤ bounds.offsetUsLb
  below : ∀ sample ∈ samples, bounds.offsetUsUb ≤ upper drift now sample.timingTriplet
  lowest : bounds.offsetUsLb = -2 ^ 63 ∨ ∃ sample ∈ samples, bounds.offsetUsLb = lower drift now sample.timingTriplet
  highest : bounds.offsetUsUb = 2 ^ 63 - 1 ∨ ∃ sample ∈ samples, bounds.offsetUsUb = upper drift now sample.timingTriplet
  observed : bounds.observedRoundTripTimeUs < 2 ^ 64

theorem Merged.snoc {drift now : Nat} {samples : List SlidingWindowSample} {bounds : Bounds}
    (merged : Merged drift now samples bounds) (last : SlidingWindowSample) :
    Merged drift now (samples ++ [last]) (narrow drift now bounds last.timingTriplet) := by
  refine ⟨?_, ?_, ?_, ?_, lt_of_le_of_lt (min_le_left _ _) merged.observed⟩
  · intro sample member
    rcases List.mem_append.mp member with older | newest
    · exact le_trans (merged.above sample older) (le_max_left _ _)
    · obtain rfl := List.mem_singleton.mp newest
      exact le_max_right _ _
  · intro sample member
    rcases List.mem_append.mp member with older | newest
    · exact le_trans (min_le_left _ _) (merged.below sample older)
    · obtain rfl := List.mem_singleton.mp newest
      exact min_le_right _ _
  · rcases max_choice bounds.offsetUsLb (lower drift now last.timingTriplet) with same | same
    · refine merged.lowest.imp same.trans ?_
      rintro ⟨sample, member, attained⟩
      exact ⟨sample, List.mem_append_left _ member, same.trans attained⟩
    · exact Or.inr ⟨last, by simp, same⟩
  · rcases min_choice bounds.offsetUsUb (upper drift now last.timingTriplet) with same | same
    · refine merged.highest.imp same.trans ?_
      rintro ⟨sample, member, attained⟩
      exact ⟨sample, List.mem_append_left _ member, same.trans attained⟩
    · exact Or.inr ⟨last, by simp, same⟩

theorem mergeSamples_merged {drift now : Nat} {samples : List SlidingWindowSample}
    (valid : ∀ sample ∈ samples, InRange drift now sample.timingTriplet) :
    ∃ bounds, mergeSamples exactQuotient drift now samples = some bounds ∧ Merged drift now samples bounds := by
  induction samples using List.reverseRecOn with
  | nil => exact ⟨Bounds.initial, rfl, by simp, by simp, Or.inl rfl, Or.inl rfl, by decide⟩
  | append_singleton samples last ih =>
    obtain ⟨bounds, found, merged⟩ := ih fun sample member => valid sample (by simp [member])
    have step := mergeSample_eq (valid last (by simp)) bounds
    refine ⟨_, ?_, merged.snoc last⟩
    unfold mergeSamples at found ⊢
    rw [List.foldlM_append, found]
    simp [step]

/-- The merged bounds leave int64_t neither on their own nor in the sum and the
difference that the estimate takes of them. -/
theorem Merged.fits {drift now : Nat} {samples : List SlidingWindowSample} {bounds : Bounds}
    (merged : Merged drift now samples bounds) (valid : ∀ sample ∈ samples, InRange drift now sample.timingTriplet)
    (set : ¬ bounds.Unset) :
    FitsInt64 (bounds.offsetUsUb - bounds.offsetUsLb) ∧ FitsInt64 (bounds.offsetUsUb + bounds.offsetUsLb) := by
  unfold Bounds.Unset at set
  obtain ⟨low, lowMember, lowest⟩ := merged.lowest.resolve_left fun same => set (Or.inr same)
  obtain ⟨high, highMember, highest⟩ := merged.highest.resolve_left fun same => set (Or.inl same)
  have lowSmall := correction_small (valid low lowMember)
  have highSmall := correction_small (valid high highMember)
  -- the round trip that attains one bound limits the other bound as well
  have lowOther := merged.below low lowMember
  have highOther := merged.above high highMember
  obtain ⟨lowOrdered, lowPast, clock, lowServ, _⟩ := valid low lowMember
  obtain ⟨highOrdered, highPast, _, highServ, _⟩ := valid high highMember
  unfold lower upper at *
  unfold FitsInt64
  omega

end AxbyCore.TimeSync.Proofs
