import AxbyCore.TimeSync.Ingest

/-! The drift controller. Each call keeps the correction, doubles it or takes nine
tenths of it, so it stays positive as long as it is not decreased from one and
grows on doubling as long as it is below 2^63. -/

namespace AxbyCore.TimeSync.Proofs
open Transitions MachineInt

def width (bounds : Bounds) : Int := bounds.offsetUsUb - bounds.offsetUsLb

/-- The branch "not correcting enough for clock drift". -/
def TooSmall (bounds : Bounds) : Prop :=
  ¬ bounds.Unset ∧ width bounds ≤ toInt64 (bounds.observedRoundTripTimeUs / 2)

/-- The branch "correcting too much for clock drift". -/
def TooLarge (bounds : Bounds) : Prop :=
  ¬ bounds.Unset ∧ ¬ TooSmall bounds ∧ toInt64 bounds.observedRoundTripTimeUs ≤ width bounds

/-- The bounds that the next call merges. -/
def merged (quotient : Nat → Nat) (thread : PublishThread) (reading : Reading) : Option Bounds :=
  mergeSamples quotient thread.ctx.clockDriftUsPerSec reading.currentTimeUs
    (nextWindow thread.ctx.window reading).samples

def Doubles (quotient : Nat → Nat) (thread : PublishThread) (reading : Reading) : Prop :=
  ∃ bounds, merged quotient thread reading = some bounds ∧ TooSmall bounds

def Shrinks (quotient : Nat → Nat) (thread : PublishThread) (reading : Reading) : Prop :=
  ∃ bounds, merged quotient thread reading = some bounds ∧ TooLarge bounds

def drift (thread : PublishThread) : Nat := thread.ctx.clockDriftUsPerSec

theorem adapt_cases {ctx after : IngestContext} {bounds : Bounds} {message : Option TimeSyncState}
    (adapted : adapt ctx bounds = some (after, message)) :
    (TooSmall bounds ∧ after.clockDriftUsPerSec = toUint64 (ctx.clockDriftUsPerSec * 2)) ∨
    (TooLarge bounds ∧ after.clockDriftUsPerSec = timesNineTenths ctx.clockDriftUsPerSec) ∨
    (¬ TooSmall bounds ∧ ¬ TooLarge bounds ∧ after.clockDriftUsPerSec = ctx.clockDriftUsPerSec) := by
  unfold adapt at adapted
  split at adapted
  next unset =>
    obtain ⟨rfl, _⟩ := Prod.mk.inj (Option.some.inj adapted)
    exact Or.inr (Or.inr ⟨fun small => small.1 unset, fun large => large.1 unset, rfl⟩)
  next set =>
    obtain ⟨width, fits, adapted⟩ := Option.bind_eq_some_iff.mp adapted
    obtain ⟨_, rfl⟩ := signed_eq_some.mp fits
    split at adapted
    next small =>
      obtain ⟨rfl, _⟩ := Prod.mk.inj (Option.some.inj adapted)
      exact Or.inl ⟨⟨set, small⟩, rfl⟩
    next notSmall =>
      obtain ⟨sum, _, adapted⟩ := Option.bind_eq_some_iff.mp adapted
      obtain ⟨rfl, _⟩ := Prod.mk.inj (Option.some.inj adapted)
      by_cases large : toInt64 bounds.observedRoundTripTimeUs ≤ bounds.offsetUsUb - bounds.offsetUsLb
      · refine Or.inr (Or.inl ⟨⟨set, fun small => notSmall small.2, large⟩, ?_⟩)
        rw [if_pos large]
      · refine Or.inr (Or.inr ⟨fun small => notSmall small.2, fun tooLarge => large tooLarge.2.2, ?_⟩)
        rw [if_neg large]

/-- What one call does to the correction. -/
theorem step_drift {quotient : Nat → Nat} {before after : PublishThread} {reading : Reading}
    (moved : Step quotient before reading after) :
    (Doubles quotient before reading ∧ drift after = toUint64 (drift before * 2)) ∨
    (Shrinks quotient before reading ∧ drift after = timesNineTenths (drift before)) ∨
    (¬ Doubles quotient before reading ∧ ¬ Shrinks quotient before reading ∧ drift after = drift before) := by
  obtain ⟨⟨ctx, message⟩, processed, same⟩ := Option.bind_eq_some_iff.mp moved
  obtain rfl := Option.some.inj same
  obtain ⟨bounds, found, adapted⟩ := Option.bind_eq_some_iff.mp processed
  rcases adapt_cases adapted with ⟨small, doubled⟩ | ⟨large, shrunk⟩ | ⟨notSmall, notLarge, kept⟩
  · exact Or.inl ⟨⟨bounds, found, small⟩, doubled⟩
  · exact Or.inr (Or.inl ⟨⟨bounds, found, large⟩, shrunk⟩)
  · refine Or.inr (Or.inr ⟨?_, ?_, kept⟩)
    · rintro ⟨other, foundOther, small⟩
      obtain rfl := Option.some.inj (found.symm.trans foundOther)
      exact notSmall small
    · rintro ⟨other, foundOther, large⟩
      obtain rfl := Option.some.inj (found.symm.trans foundOther)
      exact notLarge large

theorem doubles_or_shrinks {quotient : Nat → Nat} {thread : PublishThread} {reading : Reading}
    (doubles : Doubles quotient thread reading) : ¬ Shrinks quotient thread reading := by
  obtain ⟨bounds, found, small⟩ := doubles
  rintro ⟨other, foundOther, large⟩
  obtain rfl := Option.some.inj (found.symm.trans foundOther)
  exact large.2.1 small

/-! Nine tenths in double arithmetic. -/

theorem timesNineTenths_pos {value : Nat} (two : 2 ≤ value) : 1 ≤ timesNineTenths value := by
  have rounded : 2 ^ 1 ≤ Binary64.round value := Binary64.two_pow_le_round two
  have product : 2 ^ 53 ≤ Binary64.round value * 8106479329266893 := by omega
  exact (Nat.one_le_div_iff (by decide)).mpr (Binary64.two_pow_le_round product)

theorem timesNineTenths_one : timesNineTenths 1 = 0 := by decide

theorem timesNineTenths_lt {value : Nat} (small : value < 2 ^ 64) : timesNineTenths value < 2 ^ 64 := by
  have rounded : Binary64.round value ≤ 2 ^ 64 := Binary64.round_le_two_pow (Nat.le_of_lt small)
  have product := Binary64.round_mono (Nat.mul_le_mul_right 8106479329266893 rounded)
  have exact : Binary64.round (2 ^ 64 * 8106479329266893) = 2 ^ 64 * 8106479329266893 := by decide
  rw [exact] at product
  apply (Nat.div_lt_iff_lt_mul (by decide)).mpr
  omega

/-- Where the controller is right: it does not decrease from one and does not
double from 2^63 on. -/
def Within (quotient : Nat → Nat) (thread : PublishThread) (reading : Reading) : Prop :=
  (Shrinks quotient thread reading → 2 ≤ drift thread) ∧ (Doubles quotient thread reading → drift thread < 2 ^ 63)

def CarefulStep (quotient : Nat → Nat) (before : PublishThread) (reading : Reading) (after : PublishThread) : Prop :=
  Step quotient before reading after ∧ Within quotient before reading

def Positive (thread : PublishThread) : Prop := 1 ≤ drift thread ∧ drift thread < 2 ^ 64

theorem toUint64_double {value : Nat} : toUint64 ((value : Int) * 2) = value * 2 % 2 ^ 64 := by
  unfold toUint64
  omega

/-- From a positive correction, a call leaves a positive one, larger when it
doubles, exactly when it stays within the limits. -/
theorem within_iff {quotient : Nat → Nat} {before after : PublishThread} {reading : Reading}
    (positive : Positive before) (moved : Step quotient before reading after) :
    Within quotient before reading ↔
      1 ≤ drift after ∧ (Doubles quotient before reading → drift before * 2 < 2 ^ 64 ∧ drift before < drift after) := by
  have start := positive.1
  have small := positive.2
  rcases step_drift moved with ⟨doubles, doubled⟩ | ⟨shrinks, shrunk⟩ | ⟨notDoubles, notShrinks, kept⟩
  · rw [toUint64_double] at doubled
    constructor
    · intro within
      have below := within.2 doubles
      exact ⟨by omega, fun _ => by omega⟩
    · intro kept
      have grows := kept.2 doubles
      exact ⟨fun shrinks => absurd shrinks (doubles_or_shrinks doubles), fun _ => by omega⟩
  · constructor
    · intro within
      rw [shrunk]
      exact ⟨timesNineTenths_pos (within.1 shrinks), fun doubles => absurd shrinks (doubles_or_shrinks doubles)⟩
    · intro kept
      refine ⟨fun _ => ?_, fun doubles => absurd shrinks (doubles_or_shrinks doubles)⟩
      by_contra low
      have one : drift before = 1 := by omega
      rw [shrunk, one, timesNineTenths_one] at kept
      exact absurd kept.1 (by decide)
  · constructor
    · intro _
      exact ⟨by omega, fun doubles => absurd doubles notDoubles⟩
    · intro _
      exact ⟨fun shrinks => absurd shrinks notShrinks, fun doubles => absurd doubles notDoubles⟩

theorem step_small {quotient : Nat → Nat} {before after : PublishThread} {reading : Reading}
    (small : drift before < 2 ^ 64) (moved : Step quotient before reading after) : drift after < 2 ^ 64 := by
  rcases step_drift moved with ⟨_, doubled⟩ | ⟨_, shrunk⟩ | ⟨_, _, kept⟩
  · rw [doubled, toUint64_double]
    exact Nat.mod_lt _ (by decide)
  · rw [shrunk]
    exact timesNineTenths_lt small
  · omega

theorem careful_positive {quotient : Nat → Nat} : Preserved (CarefulStep quotient) Positive := by
  intro before reading after ⟨moved, within⟩ positive
  exact ⟨((within_iff positive moved).mp within).1, step_small positive.2 moved⟩

/-- As long as every call stays within the limits the correction is positive, and
the next call keeps it so, and grows it on doubling, exactly within them. -/
theorem drift_controller {quotient : Nat → Nat} {durationMs : Nat} {readings : List Reading} {thread : PublishThread}
    (run : Transitions.Run (CarefulStep quotient) (PublishThread.initial durationMs) readings thread) :
    1 ≤ drift thread ∧ ∀ reading after, Step quotient thread reading after →
      (Within quotient thread reading ↔
        1 ≤ drift after ∧
          (Doubles quotient thread reading → drift thread * 2 < 2 ^ 64 ∧ drift thread < drift after)) := by
  have initially : Positive (PublishThread.initial durationMs) :=
    ⟨show 1 ≤ 40 by decide, show 40 < 2 ^ 64 by decide⟩
  have positive := Transitions.Run.keeps run careful_positive initially
  exact ⟨positive.1, fun reading after moved => within_iff positive moved⟩

/-- Every fifty milliseconds a round trip of ten microseconds, with a server whose clock agrees. -/
def regularTrip (count : Nat) : Reading :=
  let currentTimeUs := 50000 * (count + 1)
  ⟨[⟨currentTimeUs - 10, currentTimeUs - 5, currentTimeUs⟩], currentTimeUs / 1000, currentTimeUs⟩

def regularTrips (count : Nat) : List Reading := (List.range count).map regularTrip

/-- What the first two calls leave. -/
def firstTrip : PublishThread := ⟨⟨36, ⟨1250, [⟨50, ⟨49990, 49995, 50000⟩⟩]⟩⟩, [⟨0, 10, 10⟩]⟩

def secondTrip : PublishThread :=
  ⟨⟨32, ⟨1250, [⟨50, ⟨49990, 49995, 50000⟩⟩, ⟨100, ⟨99990, 99995, 100000⟩⟩]⟩⟩, [⟨0, 10, 10⟩, ⟨0, 10, 10⟩]⟩

theorem drift_controller_first :
    Transitions.Run (CarefulStep exactQuotient) (PublishThread.initial 1250) (regularTrips 2) secondTrip ∧
      drift secondTrip = 32 ∧ 1 ≤ drift secondTrip := by
  have first : next exactQuotient (PublishThread.initial 1250) (regularTrip 0) = some firstTrip := by decide
  have second : next exactQuotient firstTrip (regularTrip 1) = some secondTrip := by decide
  have run : Transitions.Run (CarefulStep exactQuotient) (PublishThread.initial 1250) (regularTrips 2) secondTrip :=
    (Transitions.Run.single ⟨first, fun _ => show 2 ≤ 40 by decide, fun _ => show 40 < 2 ^ 63 by decide⟩).trans
      (Transitions.Run.single ⟨second, fun _ => show 2 ≤ 36 by decide, fun _ => show 36 < 2 ^ 63 by decide⟩)
  exact ⟨run, rfl, (drift_controller run).1⟩

/-- Every call finds the correction too large, until nothing is left of it. -/
theorem drift_reaches_zero : ∃ thread,
    Transitions.Run (Step exactQuotient) (PublishThread.initial 1250) (regularTrips 20) thread ∧ drift thread = 0 := by
  have executed : (execute (next exactQuotient) (PublishThread.initial 1250) (regularTrips 20)).map drift = some 0 := by
    decide +kernel
  obtain ⟨thread, reached, zero⟩ := Option.map_eq_some_iff.mp executed
  exact ⟨thread, Run.of_execute reached, zero⟩

end AxbyCore.TimeSync.Proofs
