import AxbyCore.App.Timing
import Mathlib.Data.List.Lemmas
import Mathlib.Data.Nat.Find

/-! An action period acts on the first poll of every window after that of time zero. It keeps
the last poll that it has acted on, whose window is the latest of all polls before. Where the
sum of a time and the phase wraps, it does not act any more. -/

namespace AxbyCore.Proofs.PollWindows
open App Ieee754 MachineInt

/-- A double of at least a thousandth. -/
def AtLeastMillisecond (seconds : BitVec 64) : Prop :=
  ∃ magnitude, binary64.value seconds.toNat = .finite false magnitude ∧ 2 ^ 1074 ≤ 1000 * magnitude

/-- The answers to polls at these times. -/
def polls (action : ActionPeriod) : List Nat → Outcome (List Bool)
  | [] => return []
  | now :: times => do
    let (acts, after) ← action.shouldAct now
    let later ← polls after times
    return acts :: later

def window (periodMs phaseMs time : Nat) : Nat := (time + phaseMs) / periodMs

variable {periodMs phaseMs : Nat}

/-- A poll is the first of its window, which is after that of time zero. -/
structure FirstPoll (periodMs phaseMs : Nat) (earlier : List Nat) (now : Nat) : Prop where
  fits : now + phaseMs < 2 ^ 64
  after : phaseMs / periodMs < window periodMs phaseMs now
  first : ∀ other ∈ earlier, window periodMs phaseMs other ≠ window periodMs phaseMs now

/-- What an action period knows of the polls that have passed. -/
structure Remembers (periodMs phaseMs : Nat) (passed : List Nat) (action : ActionPeriod) : Prop where
  period : toMs action.period = .done periodMs
  phase : toMs action.phase = .done phaseMs
  fits : action.lastTriggeredMs + phaseMs < 2 ^ 64
  source : action.lastTriggeredMs = 0 ∨ action.lastTriggeredMs ∈ passed
  latest : ∀ other ∈ passed, other + phaseMs < 2 ^ 64 →
    window periodMs phaseMs other ≤ window periodMs phaseMs action.lastTriggeredMs

theorem truncate_lt {value : Value} {whole : Nat} (converted : truncate value = .done whole) : whole < 2 ^ 64 := by
  cases value with
  | nan => cases converted
  | infinity negative => cases converted
  | finite negative magnitude =>
    obtain ⟨fits, equal⟩ := Outcome.require_bind_eq_done.mp converted
    cases equal
    cases negative with
    | true =>
      have zero : magnitude / 2 ^ 1074 = 0 := fits
      omega
    | false => exact fits

/-- Rounding the product does not take a millisecond below one. -/
theorem toMs_pos {period : BitVec 64} (long : AtLeastMillisecond period) (converted : toMs period = .done periodMs) : 0 < periodMs := by
  obtain ⟨magnitude, seconds, enough⟩ := long
  have rounds := binary64.round_le (1000 * magnitude)
  have below : binary64.round (1000 * magnitude) < binary64.signBit := rounds.trans_lt (by decide)
  rw [toMs, seconds, thousandTimes, Format.ofValue, Format.value_withSign below, Format.signedValue] at converted
  by_cases infinite : binary64.round (1000 * magnitude) = binary64.infinityBits
  · rw [if_neg (by omega), if_pos infinite] at converted
    cases converted
  · rw [if_pos (by omega)] at converted
    obtain ⟨-, equal⟩ := Outcome.require_bind_eq_done.mp converted
    cases equal
    have units : binary64.fraction + binary64.scale + 1022 = 1074 := rfl
    have bits : binary64.fraction + 1022 = 1074 := rfl
    rw [← units] at enough
    have leading := Format.two_pow_le_magnitude (Format.two_pow_le_round enough infinite)
    rw [bits] at leading
    apply Nat.div_pos (leading.trans (Nat.le_mul_of_pos_right _ (Nat.two_pow_pos _)))
    rw [← bits]
    exact Nat.two_pow_pos _

theorem window_mono {first second : Nat} (ordered : first ≤ second) :
    window periodMs phaseMs first ≤ window periodMs phaseMs second :=
  Nat.div_le_div_right (Nat.add_le_add_right ordered phaseMs)

theorem window_zero : window periodMs phaseMs 0 = phaseMs / periodMs := by rw [window, Nat.zero_add]

theorem Remembers.shouldAct_eq {passed : List Nat} {action : ActionPeriod} (remembers : Remembers periodMs phaseMs passed action)
    (positive : 0 < periodMs) (now : Nat) :
    action.shouldAct now =
      if window periodMs phaseMs action.lastTriggeredMs < toUint64 (now + phaseMs) / periodMs then
        .done (true, { action with lastTriggeredMs := now })
      else .done (false, action) := by
  have last : toUint64 (action.lastTriggeredMs + phaseMs : Nat) = action.lastTriggeredMs + phaseMs :=
    toUint64_natCast remembers.fits
  have nonzero : periodMs ≠ 0 := Nat.ne_of_gt positive
  push_cast at last
  simp only [ActionPeriod.shouldAct, remembers.phase, remembers.period, Outcome.done_bind, Outcome.require, if_pos nonzero, last,
    window]
  rfl

/-- A time that wraps comes to a window that is not later than that of time zero. -/
theorem wrapped_window {now : Nat} (small : now < 2 ^ 64) (phaseSmall : phaseMs < 2 ^ 64) (wraps : ¬ now + phaseMs < 2 ^ 64) :
    toUint64 (now + phaseMs : Int) / periodMs ≤ phaseMs / periodMs := by
  apply Nat.div_le_div_right
  unfold toUint64
  omega

theorem Remembers.passes {passed : List Nat} {action : ActionPeriod} (remembers : Remembers periodMs phaseMs passed action)
    {now : Nat} (old : now + phaseMs < 2 ^ 64 → window periodMs phaseMs now ≤ window periodMs phaseMs action.lastTriggeredMs) :
    Remembers periodMs phaseMs (passed ++ [now]) action := by
  refine ⟨remembers.period, remembers.phase, remembers.fits, remembers.source.imp_right (List.mem_append_left _), ?_⟩
  intro other member fits
  rcases List.mem_append.mp member with before | last
  · exact remembers.latest other before fits
  · obtain rfl := List.mem_singleton.mp last
    exact old fits

theorem Remembers.acts {passed : List Nat} {action : ActionPeriod} (remembers : Remembers periodMs phaseMs passed action)
    {now : Nat} (fits : now + phaseMs < 2 ^ 64)
    (later : window periodMs phaseMs action.lastTriggeredMs < window periodMs phaseMs now) :
    Remembers periodMs phaseMs (passed ++ [now]) { action with lastTriggeredMs := now } := by
  refine ⟨remembers.period, remembers.phase, fits, .inr (by simp), ?_⟩
  intro other member within
  rcases List.mem_append.mp member with before | last
  · exact (remembers.latest other before within).trans later.le
  · rw [List.mem_singleton.mp last]

theorem remembers_step {passed : List Nat} {action : ActionPeriod} (remembers : Remembers periodMs phaseMs passed action)
    (positive : 0 < periodMs) {now : Nat} (small : now < 2 ^ 64) (ordered : ∀ other ∈ passed, other ≤ now) :
    ∃ acts after, action.shouldAct now = .done (acts, after) ∧
      (acts = true ↔ FirstPoll periodMs phaseMs passed now) ∧ Remembers periodMs phaseMs (passed ++ [now]) after := by
  have called := remembers.shouldAct_eq positive now
  have start : phaseMs / periodMs ≤ window periodMs phaseMs action.lastTriggeredMs :=
    window_zero.symm.trans_le (window_mono (Nat.zero_le _))
  by_cases fits : now + phaseMs < 2 ^ 64
  · have current : toUint64 (now + phaseMs : Int) / periodMs = window periodMs phaseMs now :=
      congrArg (· / periodMs) (toUint64_natCast fits)
    rw [current] at called
    split at called
    next later =>
      refine ⟨true, _, called, iff_of_true rfl ⟨fits, start.trans_lt later, ?_⟩, remembers.acts fits later⟩
      intro other member
      have early : other + phaseMs < 2 ^ 64 := (Nat.add_le_add_right (ordered other member) phaseMs).trans_lt fits
      exact Nat.ne_of_lt ((remembers.latest other member early).trans_lt later)
    next old =>
      have notLater := Nat.le_of_not_lt old
      refine ⟨false, _, called, iff_of_false (by simp) fun poll => ?_, remembers.passes fun _ => notLater⟩
      rcases remembers.source with initial | acted
      · rw [initial, window_zero] at notLater
        exact absurd poll.after (Nat.not_lt.mpr notLater)
      · have same := Nat.le_antisymm (window_mono (ordered _ acted)) notLater
        exact poll.first _ acted same
  · have phaseSmall : phaseMs < 2 ^ 64 := (Nat.le_add_left ..).trans_lt remembers.fits
    have wrapped := (wrapped_window small phaseSmall fits).trans start
    rw [if_neg (Nat.not_lt.mpr wrapped)] at called
    exact ⟨false, _, called, iff_of_false (by simp) fun poll => fits poll.fits, remembers.passes fun within => absurd within fits⟩

theorem remembers_run {passed times : List Nat} {action : ActionPeriod} (remembers : Remembers periodMs phaseMs passed action)
    (positive : 0 < periodMs) (small : ∀ time ∈ times, time < 2 ^ 64) (ordered : (passed ++ times).Pairwise (· ≤ ·)) :
    ∃ answers, polls action times = .done answers ∧ answers.length = times.length ∧
      ∀ i time, times[i]? = some time →
        (answers[i]? = some true ↔ FirstPoll periodMs phaseMs (passed ++ times.take i) time) := by
  induction times generalizing passed action with
  | nil => exact ⟨[], rfl, rfl, by simp⟩
  | cons now times ih =>
    have before : ∀ other ∈ passed, other ≤ now := fun other member =>
      (List.pairwise_append.mp ordered).2.2 other member now (List.mem_cons_self ..)
    obtain ⟨acts, after, called, first, kept⟩ :=
      remembers_step remembers positive (small now (List.mem_cons_self ..)) before
    obtain ⟨answers, ran, same, rest⟩ :=
      ih kept (fun time member => small time (List.mem_cons_of_mem _ member)) (by simpa using ordered)
    refine ⟨acts :: answers, ?_, by simp [same], ?_⟩
    · rw [polls, called, Outcome.done_bind]
      simp only [ran, Outcome.done_bind]
      rfl
    · intro i time there
      cases i with
      | zero =>
        obtain rfl : now = time := by simpa using there
        simpa using first
      | succ i => simpa using rest i time (by simpa using there)

theorem remembers_construct {period phase : BitVec 64} (periodMs_eq : toMs period = .done periodMs)
    (phaseMs_eq : toMs phase = .done phaseMs) : Remembers periodMs phaseMs [] ((ActionPeriod.construct period).setPhase phase) := by
  refine ⟨periodMs_eq, phaseMs_eq, ?_, .inl rfl, by simp⟩
  exact (Nat.zero_add _).trans_lt (truncate_lt phaseMs_eq)

theorem getElem?_le {times : List Nat} (ordered : times.Pairwise (· ≤ ·)) {i j first second : Nat} (before : i ≤ j)
    (firstAt : times[i]? = some first) (secondAt : times[j]? = some second) : first ≤ second := by
  obtain ⟨inside, rfl⟩ := List.getElem?_eq_some_iff.mp firstAt
  obtain ⟨within, rfl⟩ := List.getElem?_eq_some_iff.mp secondAt
  rcases Nat.lt_or_eq_of_le before with lt | rfl
  · exact List.pairwise_iff_getElem.mp ordered i j inside within lt
  · exact Nat.le_refl _

/-- Of the polls of a window, the one with the least index is the first. -/
theorem exists_firstPoll {times : List Nat} (ordered : times.Pairwise (· ≤ ·)) {time : Nat} (member : time ∈ times)
    (fits : time + phaseMs < 2 ^ 64) (later : phaseMs / periodMs < window periodMs phaseMs time) :
    ∃ i first, times[i]? = some first ∧ window periodMs phaseMs first = window periodMs phaseMs time ∧
      FirstPoll periodMs phaseMs (times.take i) first := by
  obtain ⟨k, there⟩ := List.getElem?_of_mem member
  have polled : ∃ i, ∃ other, times[i]? = some other ∧ window periodMs phaseMs other = window periodMs phaseMs time :=
    ⟨k, time, there, rfl⟩
  classical
  obtain ⟨first, found, same⟩ := Nat.find_spec polled
  have early : first ≤ time := getElem?_le ordered (Nat.find_min' polled ⟨time, there, rfl⟩) found there
  refine ⟨Nat.find polled, first, found, same, (Nat.add_le_add_right early phaseMs).trans_lt fits, same ▸ later, ?_⟩
  intro other passed equal
  obtain ⟨j, at_j⟩ := List.getElem?_of_mem passed
  obtain ⟨less, listed⟩ : j < Nat.find polled ∧ times[j]? = some other := by
    rw [List.getElem?_take] at at_j
    split at at_j
    next less => exact ⟨less, at_j⟩
    next => cases at_j
  exact Nat.find_min polled less ⟨other, listed, equal.trans same⟩

theorem firstPoll_unique {times : List Nat} {i j first second : Nat} (firstAt : times[i]? = some first)
    (same : window periodMs phaseMs first = window periodMs phaseMs second)
    (poll : FirstPoll periodMs phaseMs (times.take j) second) : j ≤ i := by
  apply Nat.le_of_not_lt
  intro less
  have passed : first ∈ times.take j := List.mem_of_getElem? ((List.getElem?_take_of_lt less).trans firstAt)
  exact poll.first first passed same

/-- The answers are true exactly for the first polls of the later windows: once in each window that is polled. -/
theorem acts_on_first_polls {period phase : BitVec 64} {periodMs phaseMs : Nat} {times : List Nat} (long : AtLeastMillisecond period)
    (periodMs_eq : toMs period = .done periodMs) (phaseMs_eq : toMs phase = .done phaseMs)
    (ordered : times.Pairwise (· ≤ ·)) (small : ∀ time ∈ times, time < 2 ^ 64) :
    ∃ answers : List Bool, polls ((ActionPeriod.construct period).setPhase phase) times = .done answers ∧
      answers.length = times.length ∧
      (∀ i time, times[i]? = some time →
        (answers[i]? = some true ↔ FirstPoll periodMs phaseMs (times.take i) time)) ∧
      ∀ time ∈ times, time + phaseMs < 2 ^ 64 → phaseMs / periodMs < window periodMs phaseMs time →
        ∃! i : Nat, answers[i]? = some true ∧
          ∃ acted : Nat, times[i]? = some acted ∧ window periodMs phaseMs acted = window periodMs phaseMs time := by
  obtain ⟨answers, ran, same, exactly⟩ :=
    remembers_run (remembers_construct periodMs_eq phaseMs_eq) (toMs_pos long periodMs_eq) small (by simpa using ordered)
  refine ⟨answers, ran, same, exactly, ?_⟩
  intro time member fits later
  obtain ⟨i, first, found, equal, poll⟩ := exists_firstPoll ordered member fits later
  refine ⟨i, ⟨(exactly i first found).mpr poll, first, found, equal⟩, ?_⟩
  rintro j ⟨acts, acted, at_j, also⟩
  have other := (exactly j acted at_j).mp acts
  apply Nat.le_antisymm
  · exact firstPoll_unique found (equal.trans also.symm) other
  · exact firstPoll_unique at_j (also.trans equal.symm) poll

/-- Every two seconds, half a second early. The third of five polls is the first in its window, and the fourth is not. -/
theorem acts_on_first_polls_second : ∃ answers : List Bool,
    polls ((ActionPeriod.construct 4611686018427387904).setPhase 4602678819172646912) [0, 1499, 1500, 1501, 9000] =
        .done answers ∧
      answers[1]? ≠ some true ∧ answers[2]? = some true ∧ answers[3]? ≠ some true ∧ answers[4]? = some true := by
  have long : AtLeastMillisecond 4611686018427387904 := ⟨2 ^ 1075, by decide +kernel, by decide +kernel⟩
  have twoSeconds : toMs 4611686018427387904 = .done 2000 := by decide +kernel
  have halfSecond : toMs 4602678819172646912 = .done 500 := by decide +kernel
  have ordered : [0, 1499, 1500, 1501, 9000].Pairwise (· ≤ ·) := by decide
  have small : ∀ time ∈ [0, 1499, 1500, 1501, 9000], time < 2 ^ 64 := by decide
  obtain ⟨answers, ran, -, exactly, -⟩ := acts_on_first_polls long twoSeconds halfSecond ordered small
  refine ⟨answers, ran, ?_, (exactly 2 1500 rfl).mpr ⟨by decide, by decide, by decide⟩, ?_,
    (exactly 4 9000 rfl).mpr ⟨by decide, by decide, by decide⟩⟩
  · exact fun acts => absurd ((exactly 1 1499 rfl).mp acts).after (by decide)
  · exact fun acts => absurd ((exactly 3 1501 rfl).mp acts).first (by decide)

/-- With a phase of six hundred million years the sum wraps, and the first poll of a window does not act. -/
theorem poll_does_not_act : ∃ action : ActionPeriod,
    action = (ActionPeriod.construct 4607182418800017408).setPhase 4850484885069081083 ∧
      AtLeastMillisecond action.period ∧ toMs action.period = .done 1000 ∧ toMs action.phase = .done 18446744073709547520 ∧
      18446744073709547520 / 1000 < window 1000 18446744073709547520 5000 ∧ polls action [5000] = .done [false] := by
  have long : AtLeastMillisecond 4607182418800017408 := ⟨2 ^ 1074, by decide +kernel, by decide +kernel⟩
  have oneSecond : toMs 4607182418800017408 = .done 1000 := by decide +kernel
  have latePhase : toMs 4850484885069081083 = .done 18446744073709547520 := by decide +kernel
  exact ⟨_, rfl, long, oneSecond, latePhase, by decide, by decide +kernel⟩

end AxbyCore.Proofs.PollWindows
