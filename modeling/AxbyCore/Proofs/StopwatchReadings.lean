import AxbyCore.App.Timing
import Mathlib.Data.List.Induction
import Mathlib.Tactic.NormNum
import Mathlib.Tactic.Ring

/-! What a stopwatch has returned adds up to the time since its construction, as long as
an int can hold the times at which it is read without a press. -/

namespace AxbyCore.Proofs.StopwatchReadings
open App App.Stopwatch MachineInt

/-- The process times at construction and at the calls are below 2^63 and do not decrease. -/
structure Timeline (constructedUs : Nat) (calls : List Call) : Prop where
  ordered : (constructedUs :: calls.map Call.processTimeUs).Pairwise (· ≤ ·)
  bounded : ∀ time ∈ constructedUs :: calls.map Call.processTimeUs, time < 2 ^ 63

theorem Timeline.earlier {constructedUs : Nat} {calls earlier : List Call} (timeline : Timeline constructedUs calls)
    (shorter : earlier <+: calls) : Timeline constructedUs earlier := by
  have times : (constructedUs :: earlier.map Call.processTimeUs) <+: constructedUs :: calls.map Call.processTimeUs :=
    (List.prefix_cons_inj _).mpr (shorter.map _)
  constructor
  · exact timeline.ordered.sublist times.sublist
  · exact fun time member => timeline.bounded time (times.subset member)

theorem Timeline.before_last {constructedUs : Nat} {calls : List Call} {last : Call}
    (timeline : Timeline constructedUs (calls ++ [last])) {time : Nat}
    (member : time ∈ constructedUs :: calls.map Call.processTimeUs) : time ≤ last.processTimeUs := by
  have ordered := timeline.ordered
  rw [List.map_append, ← List.cons_append, List.pairwise_append] at ordered
  exact ordered.2.2 time member _ (List.mem_singleton_self _)

theorem Timeline.last_lt {constructedUs : Nat} {calls : List Call} {last : Call}
    (timeline : Timeline constructedUs (calls ++ [last])) : last.processTimeUs < 2 ^ 63 :=
  timeline.bounded _ (by simp)

theorem press_returns {watch : Stopwatch} {now : Nat} (past : watch.lastPressUs ≤ now) (small : now < 2 ^ 63) :
    (watch.press now).1 = (now - watch.lastPressUs) / 1000000 := by
  have elapsed : toUint64 (now - watch.lastPressUs) = now - watch.lastPressUs := by
    unfold toUint64
    omega
  simp only [press, elapsed, Nat.cast_sub past]

/-- The two readers agree exactly as long as an int holds the time. -/
theorem getSecSincePress_eq_iff {watch : Stopwatch} {now : Nat} (past : watch.lastPressUs ≤ now) (small : now < 2 ^ 63) :
    watch.getSecSincePress now = (watch.press now).1 ↔ now < 2 ^ 31 := by
  have million : (1000000 : Rat) ≠ 0 := by norm_num
  simp only [getSecSincePress, press, div_left_inj' million, Nat.cast_inj]
  constructor
  · intro same
    by_contra large
    have lost := toUint64_toInt32_ne (Nat.le_of_not_lt large) small
    have unsigned : toUint64 (toInt32 now) < 2 ^ 64 := by
      unfold toUint64
      omega
    unfold toUint64 at same lost unsigned
    omega
  · intro held
    rw [toInt32_natCast held, toUint64_natCast (by omega)]

/-- The presses account for the time from the construction to the last press. -/
theorem pressed_eq {constructedUs : Nat} {calls : List Call} (timeline : Timeline constructedUs calls) :
    (use constructedUs calls).watch.lastPressUs ∈ constructedUs :: calls.map Call.processTimeUs ∧
      (use constructedUs calls).pressed = ((use constructedUs calls).watch.lastPressUs - constructedUs) / 1000000 := by
  induction calls using List.reverseRecOn with
  | nil => simp [use, construct, press]
  | append_singleton calls call ih =>
    obtain ⟨inside, account⟩ := ih (timeline.earlier (List.prefix_append ..))
    have next : use constructedUs (calls ++ [call]) = (use constructedUs calls).call call := by simp [use]
    rw [next]
    cases call with
    | getSecSincePress now =>
      refine ⟨?_, account⟩
      rw [List.map_append, ← List.cons_append]
      exact List.mem_append_left _ inside
    | press now =>
      have past : (use constructedUs calls).watch.lastPressUs ≤ now := timeline.before_last inside
      have returned := press_returns past timeline.last_lt
      refine ⟨by simp [Use.call, press, Call.processTimeUs], ?_⟩
      calc (use constructedUs calls).pressed + ((use constructedUs calls).watch.press now).1
          = ((use constructedUs calls).watch.lastPressUs - constructedUs) / 1000000 +
            (now - (use constructedUs calls).watch.lastPressUs) / 1000000 := by rw [account, returned]
        _ = (now - constructedUs) / 1000000 := by ring

/-- Every reading without a press is what a press would return, and completes the sum. -/
def AddsUp (constructedUs : Nat) (calls : List Call) : Prop :=
  ∀ earlier now, earlier ++ [.getSecSincePress now] <+: calls →
    (use constructedUs earlier).watch.getSecSincePress now = ((use constructedUs earlier).watch.press now).1 ∧
    (use constructedUs earlier).pressed + (use constructedUs earlier).watch.getSecSincePress now =
      (now - constructedUs) / 1000000

theorem adds_up_iff {constructedUs : Nat} {calls : List Call} (timeline : Timeline constructedUs calls) :
    AddsUp constructedUs calls ↔ ∀ now, Call.getSecSincePress now ∈ calls → now < 2 ^ 31 := by
  constructor
  · intro adds now member
    obtain ⟨earlier, later, rfl⟩ := List.append_of_mem member
    have shorter : earlier ++ [.getSecSincePress now] <+: earlier ++ .getSecSincePress now :: later := by simp
    have upTo := timeline.earlier shorter
    have inside := (pressed_eq (upTo.earlier (List.prefix_append ..))).1
    exact (getSecSincePress_eq_iff (upTo.before_last inside) upTo.last_lt).mp (adds earlier now shorter).1
  · intro held earlier now shorter
    have upTo := timeline.earlier shorter
    obtain ⟨inside, account⟩ := pressed_eq (upTo.earlier (List.prefix_append ..))
    have past : (use constructedUs earlier).watch.lastPressUs ≤ now := upTo.before_last inside
    have small : now < 2 ^ 63 := upTo.last_lt
    have same := (getSecSincePress_eq_iff past small).mpr (held now (shorter.subset (by simp)))
    refine ⟨same, ?_⟩
    rw [same, account, press_returns past small]
    ring

theorem adds_up_early : AddsUp 5 [.press 7, .getSecSincePress 9] := by
  apply (adds_up_iff (by constructor <;> decide)).mpr
  intro now member
  have nine : now = 9 := by simpa using member
  omega

/-- 36 minutes into the process the reading is one of half a million years. -/
theorem adds_up_not_always : Timeline 0 [.getSecSincePress (2 ^ 31)] ∧ ¬ AddsUp 0 [.getSecSincePress (2 ^ 31)] := by
  refine ⟨by constructor <;> decide, fun adds => ?_⟩
  have same := (adds [] (2 ^ 31) (List.prefix_refl _)).1
  have early := (getSecSincePress_eq_iff (Nat.zero_le _) (by decide)).mp same
  exact Nat.lt_irrefl _ early

end AxbyCore.Proofs.StopwatchReadings
