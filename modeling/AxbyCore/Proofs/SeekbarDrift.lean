import AxbyCore.LogViewer.Seekbar
import AxbyCore.Proofs.DepthCoordinates
import Mathlib.Data.List.Chain

/-! Playback falls behind by the fractions of a millisecond that every call drops. -/

namespace AxbyCore.Proofs.SeekbarDrift
open LogViewer MachineInt

/-- What the claimed position is about: playing, to no set stop, with time not running backwards. -/
structure Playback (seekbar : Seekbar) (first : Nat) (times : List Nat) : Prop where
  playing : seekbar.playing = true
  noAutoStop : seekbar.autoPlaybackStopMs = none
  forward : 0 < seekbar.playbackSpeed
  ordered : (first :: times).IsChain (· ≤ ·)

/-- Playing was resumed at the first call, at a position of the log, and an int holds the
process times and the positions before they are cut at the end of the log. -/
structure InRange (seekbar : Seekbar) (first : Nat) (times : List Nat) : Prop where
  resumed : seekbar.lastPlayTimeMs = none ∨ seekbar.lastPlayTimeMs = some (first : Int)
  position : 0 ≤ seekbar.currentTimestampMs ∧ seekbar.currentTimestampMs < 2 ^ 31
  early : ∀ time ∈ first :: times, time < 2 ^ 31
  room : (first :: times).IsChain fun (earlier now : Nat) =>
    min (seekbar.maxTimestampMs : Rat) (seekbar.currentTimestampMs + (earlier - first) * seekbar.playbackSpeed) +
      (now - earlier) * seekbar.playbackSpeed < 2 ^ 31

def calls (seekbar : Seekbar) (times : List Nat) : Outcome Seekbar := times.foldlM Seekbar.updatePlaying seekbar

/-- The whole milliseconds that the calls advance by. -/
def advanced (speed : Rat) : Nat → List Nat → Int
  | _, [] => 0
  | earlier, now :: times => ⌊(now - earlier) * speed⌋ + advanced speed now times

/-- The fractions of a millisecond that the calls drop. -/
def dropped (speed : Rat) : Nat → List Nat → Rat
  | _, [] => 0
  | earlier, now :: times => Int.fract ((now - earlier) * speed) + dropped speed now times

theorem dropped_nonneg (speed : Rat) (first : Nat) (times : List Nat) : 0 ≤ dropped speed first times := by
  induction times generalizing first with
  | nil => exact le_refl _
  | cons now times ih => exact add_nonneg (Int.fract_nonneg _) (ih now)

theorem advanced_add_dropped (speed : Rat) (first : Nat) (times : List Nat) :
    advanced speed first times + dropped speed first times = (times.getLastD first - first) * speed := by
  induction times generalizing first with
  | nil => simp [advanced, dropped]
  | cons now times ih =>
    have rest := ih now
    have whole := Int.floor_add_fract (((now : Rat) - first) * speed)
    simp only [advanced, dropped, List.getLastD_cons, Int.cast_add]
    linear_combination rest + whole

/-- Still playing, or stopped at the end of the log. -/
inductive At (seekbar : Seekbar) (last : Nat) (reached : Int) : Seekbar → Prop where
  | playing (nonneg : 0 ≤ reached) (inside : reached ≤ seekbar.maxTimestampMs) :
      At seekbar last reached { seekbar with currentTimestampMs := reached, lastPlayTimeMs := some (last : Int) }
  | stopped (beyond : seekbar.maxTimestampMs < reached) :
      At seekbar last reached
        { seekbar with currentTimestampMs := seekbar.maxTimestampMs, playing := false, lastPlayTimeMs := none }

theorem At.current {seekbar state : Seekbar} {last : Nat} {reached : Int} (at_ : At seekbar last reached state) :
    state.currentTimestampMs = min (seekbar.maxTimestampMs : Int) reached := by
  cases at_ with
  | playing nonneg inside => exact (min_eq_right inside).symm
  | stopped beyond => exact (min_eq_left beyond.le).symm

theorem autoStop_none {ctx : Seekbar} (noAutoStop : ctx.autoPlaybackStopMs = none) : ctx.autoStop = ctx := by
  rw [Seekbar.autoStop, noAutoStop]

/-- What a call makes of the position it has advanced to. -/
theorem at_stopAtEnd {seekbar : Seekbar} (noAutoStop : seekbar.autoPlaybackStopMs = none) {reached : Int} {now : Nat}
    (nonneg : 0 ≤ reached) (small : reached < 2 ^ 31) (early : now < 2 ^ 31) :
    At seekbar now reached
      { seekbar with currentTimestampMs := reached, lastPlayTimeMs := some (toInt32 now) }.stopAtEnd.autoStop := by
  have unsigned : (toUint64 reached : Int) = reached := toUint64_of_nonneg nonneg (by omega)
  rw [toInt32_natCast early]
  unfold Seekbar.stopAtEnd
  split
  next beyond =>
    have above : (seekbar.maxTimestampMs : Int) < reached := by simp only at beyond; omega
    have kept : toInt32 seekbar.maxTimestampMs = seekbar.maxTimestampMs := toInt32_natCast (by omega)
    rw [kept, autoStop_none (by exact noAutoStop)]
    exact .stopped above
  next within =>
    have below : reached ≤ (seekbar.maxTimestampMs : Int) := by simp only at within; omega
    rw [autoStop_none (by exact noAutoStop)]
    exact .playing nonneg below

theorem toInt_floor {value : Rat} (nonneg : 0 ≤ value) (small : value < 2 ^ 31) : Rgbd.toInt value = .done ⌊value⌋ := by
  have whole : Rgbd.truncate value = ⌊value⌋ := if_pos nonneg
  have least : 0 ≤ ⌊value⌋ := Int.floor_nonneg.mpr nonneg
  have most : ⌊value⌋ < 2 ^ 31 := Int.floor_lt.mpr (by push_cast; exact small)
  exact DepthCoordinates.toInt_eq_done.mpr ⟨by rw [whole]; unfold FitsInt32; omega, whole⟩

/-- A call advances by whole milliseconds. -/
theorem advance_floor {ctx : Seekbar} {last now : Nat} (played : ctx.lastPlayTimeMs = some (last : Int))
    (ordered : last ≤ now) (early : now < 2 ^ 31) (nonneg : 0 ≤ ctx.currentTimestampMs) (forward : 0 ≤ ctx.playbackSpeed)
    (room : (ctx.currentTimestampMs : Rat) + (now - last) * ctx.playbackSpeed < 2 ^ 31) :
    ctx.advance now = .done (ctx.currentTimestampMs + ⌊((now : Rat) - last) * ctx.playbackSpeed⌋) := by
  have stored : toUint64 (last : Int) = last := toUint64_natCast (by omega)
  have elapsed : toUint64 ((now : Int) - last) = now - last := by
    unfold toUint64
    omega
  have span : (0 : Rat) ≤ (now - last) * ctx.playbackSpeed :=
    mul_nonneg (sub_nonneg.mpr (Nat.cast_le.mpr ordered)) forward
  have start : (0 : Rat) ≤ ctx.currentTimestampMs := Int.cast_nonneg nonneg
  rw [Seekbar.advance, played]
  simp only [stored, elapsed, Nat.cast_sub ordered]
  rw [toInt_floor (add_nonneg start span) room, Int.floor_intCast_add]

theorem updatePlaying_eq {ctx : Seekbar} (playing : ctx.playing = true) {now : Nat} {reached : Int}
    (advance : ctx.advance now = .done reached) :
    ctx.updatePlaying now = .done { ctx with
      currentTimestampMs := reached
      lastPlayTimeMs := some (toInt32 now) }.stopAtEnd.autoStop := by
  rw [Seekbar.updatePlaying, if_pos playing, advance]
  rfl

theorem at_next {seekbar state : Seekbar} (playing : seekbar.playing = true) (noAutoStop : seekbar.autoPlaybackStopMs = none)
    (forward : 0 < seekbar.playbackSpeed) {last now : Nat} {reached : Int} (held : At seekbar last reached state)
    (ordered : last ≤ now) (early : now < 2 ^ 31)
    (room : min (seekbar.maxTimestampMs : Rat) reached + (now - last) * seekbar.playbackSpeed < 2 ^ 31) :
    ∃ after, state.updatePlaying now = .done after ∧
      At seekbar now (reached + ⌊((now : Rat) - last) * seekbar.playbackSpeed⌋) after := by
  have span : (0 : Rat) ≤ (now - last) * seekbar.playbackSpeed :=
    mul_nonneg (sub_nonneg.mpr (Nat.cast_le.mpr ordered)) forward.le
  have more : 0 ≤ ⌊((now : Rat) - last) * seekbar.playbackSpeed⌋ := Int.floor_nonneg.mpr span
  cases held with
  | stopped beyond =>
    refine ⟨_, rfl, .stopped ?_⟩
    omega
  | playing nonneg inside =>
    have within : (reached : Rat) ≤ seekbar.maxTimestampMs := by exact_mod_cast inside
    rw [min_eq_right within] at room
    have advance : Seekbar.advance
        { seekbar with currentTimestampMs := reached, lastPlayTimeMs := some (last : Int) } now =
          .done (reached + ⌊((now : Rat) - last) * seekbar.playbackSpeed⌋) :=
      advance_floor rfl ordered early nonneg forward.le room
    refine ⟨_, updatePlaying_eq (by exact playing) advance, ?_⟩
    apply at_stopAtEnd noAutoStop (add_nonneg nonneg more) _ early
    have below : (⌊(reached : Rat) + (now - last) * seekbar.playbackSpeed⌋ : Int) < 2 ^ 31 :=
      Int.floor_lt.mpr (by push_cast; exact room)
    rwa [Int.floor_intCast_add] at below

/-- The first call only notes the time. -/
theorem at_first {seekbar : Seekbar} {first : Nat} {times : List Nat} (playback : Playback seekbar first times)
    (range : InRange seekbar first times) :
    ∃ after, seekbar.updatePlaying first = .done after ∧ At seekbar first seekbar.currentTimestampMs after := by
  have early : first < 2 ^ 31 := range.early first (List.mem_cons_self ..)
  have advance : seekbar.advance first = .done seekbar.currentTimestampMs := by
    rcases range.resumed with fresh | played
    · rw [Seekbar.advance, fresh]
      rfl
    · have small : (seekbar.currentTimestampMs : Rat) < 2 ^ 31 := by exact_mod_cast range.position.2
      have still := advance_floor played le_rfl early range.position.1 playback.forward.le (by simpa using small)
      simpa using still
  exact ⟨_, updatePlaying_eq playback.playing advance,
    at_stopAtEnd playback.noAutoStop range.position.1 range.position.2 early⟩

/-- Calls from a position that the ideal one is not behind. -/
theorem at_calls {seekbar : Seekbar} (playing : seekbar.playing = true) (noAutoStop : seekbar.autoPlaybackStopMs = none)
    (forward : 0 < seekbar.playbackSpeed) {first last : Nat} {times : List Nat} {reached : Int} {state : Seekbar}
    (held : At seekbar last reached state) (ordered : (last :: times).IsChain (· ≤ ·)) (early : ∀ time ∈ times, time < 2 ^ 31)
    (behind : (reached : Rat) ≤ seekbar.currentTimestampMs + (last - first) * seekbar.playbackSpeed)
    (room : (last :: times).IsChain fun (earlier now : Nat) =>
      min (seekbar.maxTimestampMs : Rat) (seekbar.currentTimestampMs + (earlier - first) * seekbar.playbackSpeed) +
        (now - earlier) * seekbar.playbackSpeed < 2 ^ 31) :
    ∃ final, calls state times = .done final ∧
      At seekbar (times.getLastD last) (reached + advanced seekbar.playbackSpeed last times) final := by
  induction times generalizing last reached state with
  | nil => exact ⟨state, rfl, by simpa [advanced] using held⟩
  | cons now times ih =>
    obtain ⟨next, ordered⟩ := List.isChain_cons_cons.mp ordered
    obtain ⟨fits, room⟩ := List.isChain_cons_cons.mp room
    have small := lt_of_le_of_lt (add_le_add_left (min_le_min_left (seekbar.maxTimestampMs : Rat) behind) _) fits
    obtain ⟨after, called, moved⟩ :=
      at_next playing noAutoStop forward held next (early now (List.mem_cons_self ..)) small
    have later : ((reached + ⌊((now : Rat) - last) * seekbar.playbackSpeed⌋ : Int) : Rat) ≤
        seekbar.currentTimestampMs + (now - first) * seekbar.playbackSpeed := by
      have whole := Int.floor_le (((now : Rat) - last) * seekbar.playbackSpeed)
      push_cast
      linarith
    obtain ⟨final, ran, reaches⟩ :=
      ih moved ordered (fun time member => early time (List.mem_cons_of_mem _ member)) later room
    refine ⟨final, ?_, ?_⟩
    · rw [calls, List.foldlM_cons, called]
      exact ran
    · simpa only [List.getLastD_cons, advanced, add_assoc] using reaches

/-- Where the calls end. -/
theorem final_position {seekbar : Seekbar} {first : Nat} {times : List Nat} (playback : Playback seekbar first times)
    (range : InRange seekbar first times) : ∃ final, calls seekbar (first :: times) = .done final ∧
      final.currentTimestampMs = min (seekbar.maxTimestampMs : Int)
        (seekbar.currentTimestampMs + advanced seekbar.playbackSpeed first times) := by
  obtain ⟨after, called, started⟩ := at_first playback range
  obtain ⟨final, ran, reaches⟩ := at_calls playback.playing playback.noAutoStop playback.forward started playback.ordered
    (fun time member => range.early time (List.mem_cons_of_mem _ member)) (by simp) range.room
  refine ⟨final, ?_, reaches.current⟩
  rw [calls, List.foldlM_cons, called]
  exact ran

/-- The position that playback should have reached at a time. -/
def ideal (seekbar : Seekbar) (first last : Nat) : Rat :=
  min (seekbar.maxTimestampMs : Rat) (seekbar.currentTimestampMs + seekbar.playbackSpeed * (last - first))

def OnTime (seekbar : Seekbar) (first : Nat) (times : List Nat) : Prop :=
  ∃ final, calls seekbar (first :: times) = .done final ∧
    |(final.currentTimestampMs : Rat) - ideal seekbar first (times.getLastD first)| ≤ 1

/-- The calls drop no more than a millisecond, or come within one of the end of the log all the same. -/
def Careful (seekbar : Seekbar) (first : Nat) (times : List Nat) : Prop :=
  dropped seekbar.playbackSpeed first times ≤ 1 ∨
    (seekbar.maxTimestampMs : Int) ≤ seekbar.currentTimestampMs + advanced seekbar.playbackSpeed first times + 1

theorem ideal_eq (seekbar : Seekbar) (first : Nat) (times : List Nat) :
    ideal seekbar first (times.getLastD first) = min (seekbar.maxTimestampMs : Rat)
      ((seekbar.currentTimestampMs + advanced seekbar.playbackSpeed first times : Int) +
        dropped seekbar.playbackSpeed first times) := by
  have sum := advanced_add_dropped seekbar.playbackSpeed first times
  rw [ideal, Int.cast_add, add_assoc, sum, mul_comm]

/-- How far a position is from one that the same end limits. -/
theorem near_iff {top reached lost : Rat} (nonneg : 0 ≤ lost) :
    |min top reached - min top (reached + lost)| ≤ 1 ↔ lost ≤ 1 ∨ top ≤ reached + 1 := by
  rcases le_total top reached with ended | playing
  · have later : top ≤ reached + lost := le_add_of_le_of_nonneg ended nonneg
    have close : top ≤ reached + 1 := le_add_of_le_of_nonneg ended zero_le_one
    simp [min_eq_left ended, min_eq_left later, close]
  · rw [min_eq_right playing]
    rcases le_total top (reached + lost) with ends | plays
    · rw [min_eq_left ends, abs_sub_comm, abs_of_nonneg (sub_nonneg.mpr playing), sub_le_iff_le_add']
      constructor
      · exact .inr
      · rintro (little | close)
        · exact ends.trans (by linarith)
        · exact close
    · rw [min_eq_right plays, sub_add_cancel_left, abs_neg, abs_of_nonneg nonneg]
      constructor
      · exact .inl
      · rintro (little | close)
        · exact little
        · linarith

theorem on_time_iff {seekbar : Seekbar} {first : Nat} {times : List Nat} (playback : Playback seekbar first times)
    (range : InRange seekbar first times) : OnTime seekbar first times ↔ Careful seekbar first times := by
  obtain ⟨final, ran, position⟩ := final_position playback range
  have only (other : Seekbar) : calls seekbar (first :: times) = .done other ↔ final = other := by simp [ran]
  simp only [OnTime, only, exists_eq_left', position, ideal_eq]
  push_cast
  rw [near_iff (dropped_nonneg ..)]
  exact or_congr_right (by norm_cast)

/-- Exactly the careful sequences of calls are on time, and two of them end near each other. -/
theorem playback_position {seekbar : Seekbar} {first : Nat} {times others : List Nat}
    (playback : Playback seekbar first times) (range : InRange seekbar first times)
    (again : Playback seekbar first others) (within : InRange seekbar first others)
    (together : times.getLastD first = others.getLastD first) :
    (OnTime seekbar first times ↔ Careful seekbar first times) ∧
    (Careful seekbar first times → Careful seekbar first others →
      ∃ final other, calls seekbar (first :: times) = .done final ∧ calls seekbar (first :: others) = .done other ∧
        |(final.currentTimestampMs : Rat) - other.currentTimestampMs| ≤ 2) := by
  refine ⟨on_time_iff playback range, fun careful cautious => ?_⟩
  obtain ⟨final, ran, near⟩ := (on_time_iff playback range).mpr careful
  obtain ⟨other, reran, close⟩ := (on_time_iff again within).mpr cautious
  refine ⟨final, other, ran, reran, ?_⟩
  rw [← together, abs_sub_comm] at close
  calc |(final.currentTimestampMs : Rat) - other.currentTimestampMs|
      ≤ |(final.currentTimestampMs : Rat) - ideal seekbar first (times.getLastD first)| +
        |ideal seekbar first (times.getLastD first) - other.currentTimestampMs| := abs_sub_le _ _ _
    _ ≤ 1 + 1 := add_le_add near close
    _ = 2 := one_add_one_eq_two

/-- A log of a second, played at half the speed. -/
def half : Seekbar := { maxTimestampMs := 1000, playbackSpeed := 1 / 2, playing := true }

theorem half_range {times : List Nat} (ordered : (0 :: times).IsChain (· ≤ ·)) (early : ∀ time ∈ times, time < 2 ^ 20) :
    Playback half 0 times ∧ InRange half 0 times := by
  have positions {earlier now : Nat} (small : now < 2 ^ 20) :
      min ((half.maxTimestampMs : Nat) : Rat) (half.currentTimestampMs + (earlier - (0 : Nat)) * half.playbackSpeed) +
        (now - earlier) * half.playbackSpeed < 2 ^ 31 := by
    have top : min (1000 : Rat) (earlier * (1 / 2)) ≤ 1000 := min_le_left _ _
    have limit : (now : Rat) < 2 ^ 20 := by exact_mod_cast small
    have past : (0 : Rat) ≤ earlier := Nat.cast_nonneg _
    norm_num [half]
    linarith
  refine ⟨⟨rfl, rfl, by norm_num [half], ordered⟩, .inl rfl, by decide, ?_, ?_⟩
  · intro time member
    rcases List.mem_cons.mp member with zero | later
    · omega
    · exact (early time later).trans (by decide)
  · apply List.IsChain.imp_of_mem_imp _ ordered
    intro earlier now _ member _
    rcases List.mem_cons.mp member with zero | later
    · exact positions (by omega)
    · exact positions (early now later)

theorem playback_position_half : ∃ final other, calls half [0, 1, 2] = .done final ∧ calls half [0, 2] = .done other ∧
    |(final.currentTimestampMs : Rat) - other.currentTimestampMs| ≤ 2 := by
  have frames : Playback half 0 [1, 2] ∧ InRange half 0 [1, 2] := half_range (by decide) (by decide)
  have frame : Playback half 0 [2] ∧ InRange half 0 [2] := half_range (by decide) (by decide)
  have careful : Careful half 0 [1, 2] := by norm_num [Careful, dropped, half, Int.fract]
  have cautious : Careful half 0 [2] := by norm_num [Careful, dropped, half, Int.fract]
  exact (playback_position frames.1 frames.2 frame.1 frame.2 rfl).2 careful cautious

/-- Four calls a millisecond apart advance by nothing. -/
theorem not_on_time : (Playback half 0 [1, 2, 3, 4] ∧ InRange half 0 [1, 2, 3, 4]) ∧ ¬ OnTime half 0 [1, 2, 3, 4] := by
  have range : Playback half 0 [1, 2, 3, 4] ∧ InRange half 0 [1, 2, 3, 4] := half_range (by decide) (by decide)
  refine ⟨range, fun onTime => ?_⟩
  have careful := (on_time_iff range.1 range.2).mp onTime
  norm_num [Careful, dropped, advanced, half, Int.fract] at careful

end AxbyCore.Proofs.SeekbarDrift
