import AxbyCore.Proofs.PlaybackSeek

/-! Playback without seeks. Each iteration publishes a half-open window of the log
that starts where the last one ended, so the windows of a run tile the time that it
covers, whatever the positions at which the loop samples it. -/

namespace AxbyCore.LogViewer.Proofs
open Pubsub

/-- The rows that the main loop publishes for the positions it samples. -/
def playedRows (db : Database) (start : Nat) (positions : List Nat) : List LogRow :=
  (positions.foldl (iterate db) ⟨start, []⟩).published

/-- A step of continuous playback is at most a second forward. -/
def Continuous (start : Nat) (positions : List Nat) : Prop :=
  List.IsChain (fun before after => before ≤ after ∧ after ≤ before + 1000) (start :: positions)

/-- The last position of a run. -/
def finish (start : Nat) (positions : List Nat) : Nat := positions.getLastD start

/-- A product beyond the exact numbers stays beyond them. -/
theorem toUs_far {timeMs : Nat} (large : 2 ^ 53 ≤ timeMs * 1000) : 2 ^ 53 ≤ toUs timeMs := by
  apply Binary64.two_pow_le_round
  rcases Nat.lt_or_ge timeMs (2 ^ 53) with small | larger
  · rw [Binary64.round_exact small]
    exact large
  · exact Nat.le_trans (Binary64.two_pow_le_round larger) (Nat.le_mul_of_pos_right _ (by decide))

/-- In double a position is after the same rows, as long as the time of a row is exact. -/
theorem toUs_lt_iff {timeMs timeUs : Nat} (exact : timeUs < 2 ^ 53) : toUs timeMs < timeUs ↔ 1000 * timeMs < timeUs := by
  rcases Nat.lt_or_ge (timeMs * 1000) (2 ^ 53) with small | large
  · have position : Binary64.round timeMs = timeMs := Binary64.round_exact (by omega)
    have product := Binary64.round_exact small
    have same : toUs timeMs = 1000 * timeMs := by rw [toUs, position, product, Nat.mul_comm]
    rw [same]
  · have far := toUs_far large
    omega

theorem le_toUs_iff {timeMs timeUs : Nat} (exact : timeUs < 2 ^ 53) : timeUs ≤ toUs timeMs ↔ timeUs ≤ 1000 * timeMs := by
  have after : toUs timeMs < timeUs ↔ 1000 * timeMs < timeUs := toUs_lt_iff exact
  omega

theorem toUs_mono {before after : Nat} (le : before ≤ after) : toUs before ≤ toUs after := by
  apply Binary64.round_mono
  exact Nat.mul_le_mul_right _ (Binary64.round_mono le)

/-- A position whose microseconds fit into 64 bits is far from wrapping. -/
theorem position_small {timeMs : Nat} (fits : toUs timeMs < 2 ^ 64) : timeMs < 2 ^ 55 := by
  by_contra large
  have position : 2 ^ 55 ≤ Binary64.round timeMs := Binary64.two_pow_le_round (by omega)
  have product : 2 ^ 64 ≤ toUs timeMs := Binary64.two_pow_le_round (by omega)
  omega

/-- A step of at most a second does not seek. -/
theorem iterate_step (db : Database) (thread : PlaybackThread) {position : Nat}
    (forward : thread.playbackTimestampMs ≤ position) (near : position ≤ thread.playbackTimestampMs + 1000)
    (fits : toUs position < 2 ^ 64) :
    iterate db thread position =
      ⟨position, thread.published ++ windowRows db thread.playbackTimestampMs position⟩ := by
  have small := position_small fits
  have stays : needInitialize thread.playbackTimestampMs position = false := by
    have unwrapped : (thread.playbackTimestampMs + 1000) % 2 ^ 64 = thread.playbackTimestampMs + 1000 :=
      Nat.mod_eq_of_lt (by omega)
    simp only [needInitialize, unwrapped, Bool.or_eq_false_iff, decide_eq_false_iff_not]
    omega
  simp only [iterate, stays, Bool.false_eq_true, if_false]

theorem Continuous.uncons {start position : Nat} {positions : List Nat}
    (continuous : Continuous start (position :: positions)) :
    (start ≤ position ∧ position ≤ start + 1000) ∧ Continuous position positions :=
  List.isChain_cons_cons.mp continuous

theorem finish_cons (start position : Nat) (positions : List Nat) :
    finish start (position :: positions) = finish position positions :=
  List.getLastD_cons ..

theorem Continuous.forward {start : Nat} {positions : List Nat} (continuous : Continuous start positions) :
    start ≤ finish start positions := by
  induction positions generalizing start with
  | nil => exact Nat.le_refl _
  | cons position positions ih =>
    obtain ⟨step, rest⟩ := continuous.uncons
    rw [finish_cons]
    exact Nat.le_trans step.1 (ih rest)

/-- The windows of a run, one for each position. -/
def windows (db : Database) : Nat → List Nat → List LogRow
  | _, [] => []
  | start, position :: positions => windowRows db start position ++ windows db position positions

theorem iterate_run (db : Database) {positions : List Nat} (thread : PlaybackThread)
    (continuous : Continuous thread.playbackTimestampMs positions)
    (fits : toUs (finish thread.playbackTimestampMs positions) < 2 ^ 64) :
    positions.foldl (iterate db) thread =
      ⟨finish thread.playbackTimestampMs positions,
        thread.published ++ windows db thread.playbackTimestampMs positions⟩ := by
  induction positions generalizing thread with
  | nil => simp [finish, windows]
  | cons position positions ih =>
    obtain ⟨step, rest⟩ := continuous.uncons
    rw [finish_cons] at fits ⊢
    have here : toUs position < 2 ^ 64 := Nat.lt_of_le_of_lt (toUs_mono rest.forward) fits
    have later := ih ⟨position, thread.published ++ windowRows db thread.playbackTimestampMs position⟩ rest fits
    rw [List.foldl_cons, iterate_step db thread step.1 step.2 here, later]
    simp only [windows, List.append_assoc]

/-- Two windows that meet make one. -/
theorem windows_meet {start middle stop time count : Nat} (first : start ≤ middle) (second : middle ≤ stop) :
    (if start < time ∧ time ≤ middle then count else 0) + (if middle < time ∧ time ≤ stop then count else 0) =
      if start < time ∧ time ≤ stop then count else 0 := by
  rcases Nat.lt_or_ge middle time with after | upTo
  · have no : ¬ (start < time ∧ time ≤ middle) := by omega
    have same : (middle < time ∧ time ≤ stop) ↔ (start < time ∧ time ≤ stop) := by omega
    simp only [no, same, if_false, Nat.zero_add]
  · have no : ¬ (middle < time ∧ time ≤ stop) := by omega
    have same : (start < time ∧ time ≤ middle) ↔ (start < time ∧ time ≤ stop) := by omega
    simp only [no, same, if_false, Nat.add_zero]

theorem count_windows (db : Database) {start : Nat} {positions : List Nat} (continuous : Continuous start positions)
    (row : LogRow) :
    (windows db start positions).count row =
      if toUs start < row.thisProcessTimeUs ∧ row.thisProcessTimeUs ≤ toUs (finish start positions)
      then db.log.count row else 0 := by
  induction positions generalizing start with
  | nil =>
    have empty : ¬ (toUs start < row.thisProcessTimeUs ∧ row.thisProcessTimeUs ≤ toUs start) := by omega
    simp only [windows, finish, List.getLastD_nil, List.count_nil, empty, if_false]
  | cons position positions ih =>
    obtain ⟨step, rest⟩ := continuous.uncons
    rw [windows, List.count_append, count_windowRows, ih rest, finish_cons]
    exact windows_meet (toUs_mono step.1) (toUs_mono rest.forward)

theorem windows_after (db : Database) {start : Nat} {positions : List Nat} (continuous : Continuous start positions)
    {row : LogRow} (member : row ∈ windows db start positions) : toUs start < row.thisProcessTimeUs := by
  have counted := count_windows db continuous row
  have present := List.count_pos_iff.mpr member
  by_contra outside
  rw [if_neg fun inside => outside inside.1] at counted
  omega

theorem windows_ascending (db : Database) {start : Nat} {positions : List Nat}
    (continuous : Continuous start positions) :
    (windows db start positions).Pairwise fun first second => first.thisProcessTimeUs ≤ second.thisProcessTimeUs := by
  induction positions generalizing start with
  | nil => exact .nil
  | cons position positions ih =>
    obtain ⟨step, rest⟩ := continuous.uncons
    apply List.pairwise_append.mpr
    refine ⟨(db.ordered _).2, ih rest, ?_⟩
    intro first early second late
    have first := (db.ordered _).1.mem_iff.mp early
    simp only [List.mem_filter, Bool.and_eq_true, decide_eq_true_eq] at first
    have second := windows_after db rest late
    omega

/-- Playback in steps of at most a second publishes each row of the log after the
first position and up to the last one once, and in the order of time. A position is
one whose time in microseconds the conversion to 64 bits is defined for. -/
theorem playback_tiles (db : Database) (exact : ∀ row ∈ db.log, row.thisProcessTimeUs < 2 ^ 53) {start : Nat}
    {positions : List Nat} (continuous : Continuous start positions)
    (fits : toUs (finish start positions) < 2 ^ 64) :
    (playedRows db start positions).Perm (db.log.filter fun row =>
        decide (1000 * start < row.thisProcessTimeUs) &&
          decide (row.thisProcessTimeUs ≤ 1000 * finish start positions)) ∧
      (playedRows db start positions).Pairwise fun first second =>
        first.thisProcessTimeUs ≤ second.thisProcessTimeUs := by
  have played : playedRows db start positions = windows db start positions := by
    have run := iterate_run db ⟨start, []⟩ continuous fits
    simp only [playedRows, run, List.nil_append]
  rw [played]
  refine ⟨?_, windows_ascending db continuous⟩
  apply List.perm_iff_count.mpr
  intro row
  rw [count_windows db continuous, count_filter_eq]
  by_cases logged : row ∈ db.log
  · have time := exact row logged
    simp only [toUs_lt_iff time, le_toUs_iff time, Bool.and_eq_true, decide_eq_true_eq]
  · simp [List.count_eq_zero.mpr logged]

/-- A row on each side of a position that is sampled twice. -/
theorem playback_tiles_paused :
    (playedRows (sortedDatabase [keyframeAt 4000, keyframeAt 2500, keyframeAt 2000]) 1 [2, 2, 3]).Perm
      [keyframeAt 2500, keyframeAt 2000] := by
  have exact : ∀ row ∈ (sortedDatabase [keyframeAt 4000, keyframeAt 2500, keyframeAt 2000]).log,
      row.thisProcessTimeUs < 2 ^ 53 := by decide
  have continuous : Continuous 1 [2, 2, 3] := by
    unfold Continuous
    decide
  exact (playback_tiles _ exact continuous (by decide)).1

end AxbyCore.LogViewer.Proofs
