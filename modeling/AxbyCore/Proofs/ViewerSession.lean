import AxbyCore.LogViewer.Session
import AxbyCore.Proofs.PlaybackTiling
import AxbyCore.Proofs.SeekbarDrift

/-! Sessions of the log viewer. Whatever is pressed, the position stays in the log, and what is
published is of the log up to its last whole millisecond. Without seeks it is published once. -/

namespace AxbyCore.Proofs.ViewerSession
open LogViewer LogViewer.Proofs MachineInt Pubsub SeekbarDrift

/-- The position is in the log, and playback was last advanced in the past. -/
structure Good (maxMs clock : Nat) (seekbar : Seekbar) : Prop where
  top : seekbar.maxTimestampMs = maxMs
  speed : seekbar.playbackSpeed = 1
  noAutoStop : seekbar.autoPlaybackStopMs = none
  position : 0 ≤ seekbar.currentTimestampMs ∧ seekbar.currentTimestampMs ≤ maxMs
  played : ∀ last, seekbar.lastPlayTimeMs = some last → ∃ time : Nat, last = time ∧ time ≤ clock

section
variable {maxMs clock now : Nat} {seekbar : Seekbar} {input : FrameInput}

theorem Good.jump (good : Good maxMs clock seekbar) {timeMs : Int} (inside : 0 ≤ timeMs ∧ timeMs ≤ maxMs) :
    Good maxMs clock (seekbar.jumpPlayingTime timeMs) where
  top := good.top
  speed := good.speed
  noAutoStop := good.noAutoStop
  position := inside
  played _ absent := by cases absent

theorem Good.toggle (good : Good maxMs clock seekbar) : Good maxMs clock seekbar.toggle := by
  unfold Seekbar.toggle
  split
  · exact ⟨good.top, good.speed, good.noAutoStop, good.position, fun _ absent => by cases absent⟩
  · exact ⟨good.top, good.speed, good.noAutoStop, good.position, fun _ absent => by cases absent⟩

theorem toggle_current (seekbar : Seekbar) : seekbar.toggle.currentTimestampMs = seekbar.currentTimestampMs := by
  unfold Seekbar.toggle
  split <;> rfl

theorem Good.toUint64_current (good : Good maxMs clock seekbar) (small : maxMs < 2 ^ 31) :
    (toUint64 seekbar.currentTimestampMs : Int) = seekbar.currentTimestampMs := by
  have inside := good.position
  apply toUint64_of_nonneg inside.1
  omega

theorem Good.jumpForward (good : Good maxMs clock seekbar) (small : maxMs < 2 ^ 31) : Good maxMs clock seekbar.jumpForward := by
  have kept : toInt32 (min seekbar.maxTimestampMs ((toUint64 seekbar.currentTimestampMs + Seekbar.seekJumpMs) % 2 ^ 64)) =
      (min seekbar.maxTimestampMs ((toUint64 seekbar.currentTimestampMs + Seekbar.seekJumpMs) % 2 ^ 64) : Nat) := by
    apply toInt32_natCast
    rw [good.top]
    omega
  apply good.jump
  rw [kept, good.top]
  omega

theorem Good.jumpBack (good : Good maxMs clock seekbar) (small : maxMs < 2 ^ 31) : Good maxMs clock seekbar.jumpBack := by
  have inside := good.position
  have same := good.toUint64_current small
  have within : (if toUint64 seekbar.currentTimestampMs < toUint64 (toUint64 seekbar.currentTimestampMs - Seekbar.seekJumpMs)
      then 0 else toUint64 (toUint64 seekbar.currentTimestampMs - Seekbar.seekJumpMs)) ≤ maxMs := by
    split <;> omega
  apply good.jump
  rw [toInt32_natCast (by omega)]
  omega

theorem Good.control (good : Good maxMs clock seekbar) (small : maxMs < 2 ^ 31) (input : FrameInput) :
    Good maxMs clock (seekbar.handlePlaybackControl input) := by
  unfold Seekbar.handlePlaybackControl
  split
  · exact good
  · have toggled : Good maxMs clock (if input.spacePressed then seekbar.toggle else seekbar) := by
      split
      · exact good.toggle
      · exact good
    have forward : Good maxMs clock (if input.rightArrowPressed
        then (if input.spacePressed then seekbar.toggle else seekbar).jumpForward
        else if input.spacePressed then seekbar.toggle else seekbar) := by
      split
      · exact toggled.jumpForward small
      · exact toggled
    dsimp only
    split
    · exact forward.jumpBack small
    · exact forward

/-- What a call advances to, before it is cut at the end of the log. -/
theorem Good.advance (good : Good maxMs clock seekbar) (ordered : clock ≤ now) (room : maxMs + now < 2 ^ 31) :
    ∃ reached, seekbar.advance now = .done reached ∧ seekbar.currentTimestampMs ≤ reached ∧ reached < 2 ^ 31 := by
  have inside := good.position
  cases played : seekbar.lastPlayTimeMs with
  | none =>
    refine ⟨seekbar.currentTimestampMs, ?_, le_rfl, by omega⟩
    rw [Seekbar.advance, played]
    rfl
  | some last =>
    obtain ⟨time, rfl, past⟩ := good.played last played
    have whole : (maxMs : Rat) + now < 2 ^ 31 := by exact_mod_cast room
    have limit : (seekbar.currentTimestampMs : Rat) ≤ maxMs := by exact_mod_cast inside.2
    have begun : (0 : Rat) ≤ time := Nat.cast_nonneg time
    have advance := advance_floor played (past.trans ordered) (by omega) inside.1 (by rw [good.speed]; exact zero_le_one)
      (by rw [good.speed]; linarith)
    have elapsed : ⌊((now : Rat) - time) * seekbar.playbackSpeed⌋ = (now : Int) - time := by
      rw [good.speed, mul_one]
      exact_mod_cast Int.floor_intCast ((now : Int) - time)
    rw [elapsed] at advance
    exact ⟨_, advance, by omega, by omega⟩

/-- A call advances within the log and never backwards. -/
theorem Good.update (good : Good maxMs clock seekbar) (ordered : clock ≤ now) (room : maxMs + now < 2 ^ 31) :
    ∃ after, seekbar.updatePlaying now = .done after ∧ Good maxMs now after ∧
      seekbar.currentTimestampMs ≤ after.currentTimestampMs := by
  have inside := good.position
  by_cases playing : seekbar.playing = true
  · obtain ⟨reached, advance, forward, small⟩ := good.advance ordered room
    obtain ⟨after, called, reaches⟩ : ∃ after, seekbar.updatePlaying now = .done after ∧ At seekbar now reached after :=
      ⟨_, updatePlaying_eq playing advance, at_stopAtEnd good.noAutoStop (inside.1.trans forward) small (by omega)⟩
    refine ⟨after, called, ?_⟩
    cases reaches with
    | playing nonneg within =>
      rw [good.top] at within
      refine ⟨⟨good.top, good.speed, good.noAutoStop, ⟨nonneg, within⟩, fun last same => ?_⟩, forward⟩
      exact ⟨now, (Option.some.inj same).symm, le_rfl⟩
    | stopped beyond =>
      refine ⟨⟨good.top, good.speed, good.noAutoStop, ⟨Int.natCast_nonneg _, ?_⟩, fun _ absent => by cases absent⟩, ?_⟩
      · exact Int.ofNat_le.mpr good.top.le
      · show seekbar.currentTimestampMs ≤ seekbar.maxTimestampMs
        rw [good.top]
        exact inside.2
  · refine ⟨seekbar, if_neg playing, ⟨good.top, good.speed, good.noAutoStop, inside, fun last same => ?_⟩, le_rfl⟩
    obtain ⟨time, past, before⟩ := good.played last same
    exact ⟨time, past, before.trans ordered⟩

theorem Good.make (good : Good maxMs clock seekbar) (small : maxMs < 2 ^ 31) {minMs : Nat} (bounds : minMs ≤ maxMs)
    (dragged : ∀ timeMs, input.userSeeked = some timeMs → (minMs : Int) ≤ timeMs ∧ timeMs ≤ maxMs) :
    Good maxMs clock (seekbar.makeSeekbar minMs input) ∧ minMs ≤ (seekbar.makeSeekbar minMs input).currentTimestampMs := by
  have inside := good.position
  have same := good.toUint64_current small
  unfold Seekbar.makeSeekbar
  dsimp only
  have shown : Good maxMs clock (if toUint64 seekbar.currentTimestampMs < minMs
      then { seekbar with currentTimestampMs := toInt32 minMs } else seekbar) ∧
      minMs ≤ (if toUint64 seekbar.currentTimestampMs < minMs
        then { seekbar with currentTimestampMs := toInt32 minMs } else seekbar).currentTimestampMs := by
    split
    next =>
      have kept : toInt32 minMs = minMs := toInt32_natCast (by omega)
      rw [kept]
      have within := Int.ofNat_le.mpr bounds
      exact ⟨⟨good.top, good.speed, good.noAutoStop, ⟨Int.natCast_nonneg _, within⟩, good.played⟩, le_rfl⟩
    next after => exact ⟨good, by omega⟩
  generalize (if toUint64 seekbar.currentTimestampMs < minMs
    then { seekbar with currentTimestampMs := toInt32 minMs } else seekbar) = clamped at shown ⊢
  have pressed : Good maxMs clock (if input.buttonPressed then clamped.toggle else clamped) ∧
      minMs ≤ (if input.buttonPressed then clamped.toggle else clamped).currentTimestampMs := by
    split
    · exact ⟨shown.1.toggle, (toggle_current clamped).symm ▸ shown.2⟩
    · exact shown
  split
  next => exact pressed
  next timeMs seeked =>
    obtain ⟨above, below⟩ := dragged timeMs seeked
    exact ⟨pressed.1.jump ⟨(Int.natCast_nonneg minMs).trans above, below⟩, above⟩

end

/-! Whole sessions. -/

def frames (events : List SessionEvent) : List FrameInput :=
  events.filterMap fun
    | .frame input => some input
    | .iterate => none

/-- The slider is dragged between its ends, and an int holds the position and the process time together. -/
structure Allowed (minMs maxMs : Nat) (input : FrameInput) : Prop where
  dragged : ∀ timeMs, input.userSeeked = some timeMs → (minMs : Int) ≤ timeMs ∧ timeMs ≤ maxMs
  room : maxMs + input.processTimeMs < 2 ^ 31

/-- Positions are in the log, those shown too, and rows are published of the log up to its end. -/
structure Safe (db : Database) (minMs maxMs : Nat) (latest : Option FrameInput) (session : Session) : Prop where
  seekbar : Good maxMs ((latest.map (·.processTimeMs)).getD 0) session.seekbar
  start : session.minTimestampMs = minMs
  shown : latest.isSome → session.haveSerials → minMs ≤ session.seekbar.currentTimestampMs
  handed : session.playbackTimestampMs ≤ maxMs
  thread : session.thread.playbackTimestampMs ≤ maxMs
  published : ∀ row ∈ session.thread.published, row ∈ db.log ∧ row.thisProcessTimeUs ≤ toUs maxMs

section
variable {db : Database} {minMs maxMs : Nat} {latest : Option FrameInput} {session : Session}

theorem mem_windowRows {before position : Nat} {row : LogRow} (member : row ∈ windowRows db before position) :
    row ∈ db.log ∧ row.thisProcessTimeUs ≤ toUs position := by
  have selected := ((db.ordered _).1.mem_iff).mp member
  simp only [List.mem_filter, Bool.and_eq_true, decide_eq_true_eq] at selected
  exact ⟨selected.1, selected.2.2⟩

theorem mem_catchUpRows {position : Nat} {keyframe : Bytes × Nat} {row : LogRow}
    (member : row ∈ catchUpRows db position keyframe) : row ∈ db.log ∧ row.thisProcessTimeUs ≤ toUs position := by
  have selected := ((db.ordered _).1.mem_iff).mp member
  simp only [List.mem_filter, Bool.and_eq_true, decide_eq_true_eq, beq_iff_eq] at selected
  exact ⟨selected.1, selected.2.1.2.le⟩

/-- An iteration publishes nothing beyond the position that it reads. -/
theorem mem_iterate {thread : PlaybackThread} {position : Nat} {row : LogRow}
    (member : row ∈ (iterate db thread position).published) :
    row ∈ thread.published ∨ row ∈ db.log ∧ row.thisProcessTimeUs ≤ toUs position := by
  unfold iterate at member
  split at member
  · rw [List.mem_append, List.mem_append] at member
    cases member with
    | inr window => exact .inr (mem_windowRows window)
    | inl earlier =>
      cases earlier with
      | inl old => exact .inl old
      | inr caught =>
        obtain ⟨keyframe, -, inside⟩ := List.mem_flatMap.mp caught
        exact .inr (mem_catchUpRows inside)
  · rw [List.mem_append] at member
    exact member.imp id mem_windowRows

theorem iterate_position (db : Database) (thread : PlaybackThread) (position : Nat) :
    (iterate db thread position).playbackTimestampMs = position := by
  unfold iterate
  split <;> rfl

theorem Safe.iterate (safe : Safe db minMs maxMs latest session) :
    Safe db minMs maxMs latest { session with thread := iterate db session.thread session.playbackTimestampMs } where
  seekbar := safe.seekbar
  start := safe.start
  shown := safe.shown
  handed := safe.handed
  thread := by rw [iterate_position]; exact safe.handed
  published row member := by
    cases mem_iterate member with
    | inl old => exact safe.published row old
    | inr inside => exact ⟨inside.1, inside.2.trans (toUs_mono safe.handed)⟩

theorem frame_eq {input : FrameInput} {seekbar : Seekbar}
    (updated : (session.seekbar.handlePlaybackControl input).updatePlaying input.processTimeMs = .done seekbar) :
    session.frame input = .done { session with
      playbackTimestampMs := toUint64 seekbar.currentTimestampMs
      seekbar := if session.haveSerials then seekbar.makeSeekbar session.minTimestampMs input else seekbar } := by
  rw [Session.frame, updated, Outcome.done_bind]
  rfl

theorem Safe.frame (safe : Safe db minMs maxMs latest session) (bounds : minMs ≤ maxMs) (small : maxMs < 2 ^ 31)
    {input : FrameInput} (allowed : Allowed minMs maxMs input)
    (ordered : (latest.map (·.processTimeMs)).getD 0 ≤ input.processTimeMs) :
    ∃ after, session.frame input = .done after ∧ Safe db minMs maxMs (some input) after := by
  obtain ⟨seekbar, updated, good, -⟩ := (safe.seekbar.control small input).update ordered allowed.room
  have made := good.make small bounds allowed.dragged
  have handed := good.toUint64_current small
  have inside := good.position
  refine ⟨_, frame_eq updated, ?_, safe.start, ?_, ?_, safe.thread, safe.published⟩
  · rw [safe.start]
    split
    · exact made.1
    · exact good
  · intro _ have_serials
    have shows : session.haveSerials = true := have_serials
    simp only [shows, if_true]
    rw [safe.start]
    exact made.2
  · show toUint64 seekbar.currentTimestampMs ≤ maxMs
    omega

theorem run_snoc (db : Database) (session : Session) (events : List SessionEvent) (event : SessionEvent) :
    session.run db (events ++ [event]) = session.run db events >>= fun middle => middle.act db event := by
  rw [Session.run, List.foldlM_append]
  simp only [List.foldlM_cons, List.foldlM_nil, bind_pure]
  rfl

/-- The first frame that is made shows the start of the log. -/
theorem safe_initial (db : Database) (minMs maxMs : Nat) (haveSerials : Bool) :
    Safe db minMs maxMs none (Session.initial minMs maxMs haveSerials) where
  seekbar := ⟨rfl, rfl, rfl, ⟨le_rfl, Int.natCast_nonneg _⟩, fun _ absent => by cases absent⟩
  start := rfl
  shown framed := by cases framed
  handed := Nat.zero_le _
  thread := Nat.zero_le _
  published _ member := by cases member

/-- The time of the last frame, if the frames have gone forward in time. -/
theorem clock_le {seen : List FrameInput} {input : FrameInput}
    (forward : ((seen ++ [input]).map (·.processTimeMs)).Pairwise (· ≤ ·)) :
    ((seen.getLast?).map (·.processTimeMs)).getD 0 ≤ input.processTimeMs := by
  rw [List.map_append, List.pairwise_append] at forward
  cases last : seen.getLast? with
  | none => exact Nat.zero_le _
  | some earlier =>
    have member := List.mem_of_getLast? last
    exact forward.2.2 _ (List.mem_map_of_mem member) _ (by simp)

/-- An event after frames that have gone forward in time. -/
theorem Safe.act {seen : List FrameInput} (safe : Safe db minMs maxMs seen.getLast? session) (bounds : minMs ≤ maxMs)
    (small : maxMs < 2 ^ 31) {event : SessionEvent}
    (forward : ((seen ++ frames [event]).map (·.processTimeMs)).Pairwise (· ≤ ·))
    (allowed : ∀ input ∈ frames [event], Allowed minMs maxMs input) :
    ∃ after, session.act db event = .done after ∧ Safe db minMs maxMs (seen ++ frames [event]).getLast? after := by
  cases event with
  | iterate =>
    refine ⟨_, rfl, ?_⟩
    rw [show frames [SessionEvent.iterate] = [] from rfl, List.append_nil]
    exact safe.iterate
  | frame input =>
    rw [show frames [SessionEvent.frame input] = [input] from rfl] at forward allowed ⊢
    rw [List.getLast?_concat]
    exact safe.frame bounds small (allowed input (by simp)) (clock_le forward)

theorem frames_snoc (events : List SessionEvent) (event : SessionEvent) :
    frames (events ++ [event]) = frames events ++ frames [event] := List.filterMap_append

theorem session_safe (db : Database) (bounds : minMs ≤ maxMs) (small : maxMs < 2 ^ 31) (haveSerials : Bool)
    {events : List SessionEvent} (forward : ((frames events).map (·.processTimeMs)).Pairwise (· ≤ ·))
    (allowed : ∀ input ∈ frames events, Allowed minMs maxMs input) :
    ∃ session, (Session.initial minMs maxMs haveSerials).run db events = .done session ∧
      Safe db minMs maxMs (frames events).getLast? session := by
  induction events using List.reverseRecOn with
  | nil => exact ⟨_, rfl, safe_initial db minMs maxMs haveSerials⟩
  | append_singleton events event ih =>
    rw [frames_snoc] at forward allowed
    have before := forward.sublist ((List.sublist_append_left _ _).map _)
    obtain ⟨session, ran, safe⟩ := ih before fun input member => allowed input (List.mem_append_left _ member)
    rw [run_snoc, ran, frames_snoc, Outcome.done_bind]
    exact safe.act bounds small forward fun input member => allowed input (List.mem_append_right _ member)

/-- Playing from the button on, a seek and a jump back, in a log of two milliseconds. -/
def attended : List SessionEvent :=
  [.frame { processTimeMs := 10, buttonPressed := true }, .iterate, .frame { processTimeMs := 11, userSeeked := some 3 }, .iterate,
    .frame { processTimeMs := 12 }, .iterate, .frame { processTimeMs := 13, leftArrowPressed := true }, .iterate]

theorem attended_run : ∃ session,
    (Session.initial 2 4 true).run (sortedDatabase [keyframeAt 2500, keyframeAt 4500]) attended = .done session ∧
      session.thread = ⟨0, [keyframeAt 2500]⟩ ∧ session.seekbar.currentTimestampMs = 2 :=
  ⟨_, rfl, rfl, rfl⟩

/-- The thread has published the first row and gone back, and the seekbar shows its start. -/
theorem session_safe_attended : ∃ session,
    (Session.initial 2 4 true).run (sortedDatabase [keyframeAt 2500, keyframeAt 4500]) attended = .done session ∧
      session.thread = ⟨0, [keyframeAt 2500]⟩ ∧ session.seekbar.currentTimestampMs = 2 ∧
      Safe (sortedDatabase [keyframeAt 2500, keyframeAt 4500]) 2 4 (frames attended).getLast? session := by
  have allowed : ∀ input ∈ frames attended, Allowed 2 4 input := by
    intro input member
    simp only [frames, attended, List.filterMap_cons, List.filterMap_nil, List.mem_cons, List.not_mem_nil, or_false] at member
    rcases member with pressed | seeked | played | back
    · subst pressed
      exact ⟨fun _ absent => (by cases absent), by decide⟩
    · subst seeked
      exact ⟨fun timeMs same => by cases same; decide, by decide⟩
    · subst played
      exact ⟨fun _ absent => (by cases absent), by decide⟩
    · subst back
      exact ⟨fun _ absent => (by cases absent), by decide⟩
  obtain ⟨session, ran, safe⟩ := session_safe (sortedDatabase [keyframeAt 2500, keyframeAt 4500]) (show 2 ≤ 4 by decide)
    (by decide) true (by simp [frames, attended]) allowed
  obtain ⟨same, run, thread, shown⟩ := attended_run
  obtain rfl := Outcome.done.inj (run.symm.trans ran)
  exact ⟨same, ran, thread, shown, safe⟩

end

/-! Sessions without seeks. -/

/-- Nothing that moves the position but playing. -/
structure Unmoved (input : FrameInput) : Prop where
  keys : input.wantCaptureKeyboard = true ∨ input.rightArrowPressed = false ∧ input.leftArrowPressed = false
  slider : input.userSeeked = none

section
variable {db : Database} {minMs maxMs start : Nat} {latest : Option FrameInput} {session : Session} {seekbar : Seekbar}
  {input : FrameInput} {old : List LogRow} {positions : List Nat}

theorem control_current (unmoved : Unmoved input) (seekbar : Seekbar) :
    (seekbar.handlePlaybackControl input).currentTimestampMs = seekbar.currentTimestampMs := by
  unfold Seekbar.handlePlaybackControl
  split
  · rfl
  next uncaptured =>
    obtain ⟨right, left⟩ := unmoved.keys.resolve_left uncaptured
    rw [right, left]
    show (if input.spacePressed then seekbar.toggle else seekbar).currentTimestampMs = _
    split
    · exact toggle_current seekbar
    · rfl

theorem le_makeSeekbar (unmoved : Unmoved input) {clock : Nat} (good : Good maxMs clock seekbar) (small : maxMs < 2 ^ 31)
    (bounds : minMs ≤ maxMs) : seekbar.currentTimestampMs ≤ (seekbar.makeSeekbar minMs input).currentTimestampMs := by
  have same := good.toUint64_current small
  have kept : toInt32 minMs = minMs := toInt32_natCast (by omega)
  have shown : seekbar.currentTimestampMs ≤ (if toUint64 seekbar.currentTimestampMs < minMs
      then { seekbar with currentTimestampMs := toInt32 minMs } else seekbar).currentTimestampMs := by
    split
    · show _ ≤ toInt32 minMs
      omega
    · exact le_rfl
  unfold Seekbar.makeSeekbar
  rw [unmoved.slider]
  dsimp only
  split
  · rw [toggle_current]
    exact shown
  · exact shown

theorem Continuous.snoc (continuous : Continuous start positions) {position : Nat} (forward : finish start positions ≤ position)
    (near : position ≤ finish start positions + 1000) : Continuous start (positions ++ [position]) := by
  induction positions generalizing start with
  | nil => exact List.isChain_cons_cons.mpr ⟨⟨forward, near⟩, List.isChain_singleton _⟩
  | cons first positions ih =>
    obtain ⟨step, rest⟩ := continuous.uncons
    rw [finish_cons] at forward near
    exact List.isChain_cons_cons.mpr ⟨step, ih rest forward near⟩

theorem finish_snoc (start position : Nat) (positions : List Nat) : finish start (positions ++ [position]) = position := by
  rw [finish, List.getLastD_concat]

theorem windows_snoc (db : Database) (start position : Nat) (positions : List Nat) :
    windows db start (positions ++ [position]) = windows db start positions ++ windowRows db (finish start positions) position := by
  induction positions generalizing start with
  | nil => simp [windows, finish]
  | cons first positions ih => simp only [List.cons_append, windows, ih, finish_cons, List.append_assoc]

/-- The thread has published the windows up to its position, which nothing has overtaken. -/
structure Played (db : Database) (start : Nat) (old : List LogRow) (session : Session) : Prop where
  behind : session.thread.playbackTimestampMs ≤ session.playbackTimestampMs
  ahead : (session.playbackTimestampMs : Int) ≤ session.seekbar.currentTimestampMs
  tiled : ∃ positions, Continuous start positions ∧ finish start positions = session.thread.playbackTimestampMs ∧
    session.thread.published = old ++ windows db start positions

theorem toUs_fits {position : Nat} (small : position < 2 ^ 31) : toUs position < 2 ^ 64 := by
  have exact_position : Binary64.round position = position := Binary64.round_exact (by omega)
  have product : Binary64.round (position * 1000) = position * 1000 := Binary64.round_exact (by omega)
  rw [toUs, exact_position, product]
  omega

theorem Played.iterate (played : Played db start old session) (safe : Safe db minMs maxMs latest session) (small : maxMs < 2 ^ 31)
    (near : session.playbackTimestampMs ≤ session.thread.playbackTimestampMs + 1000) :
    Played db start old { session with thread := iterate db session.thread session.playbackTimestampMs } := by
  obtain ⟨positions, continuous, last, published⟩ := played.tiled
  have step := iterate_step db session.thread played.behind near (toUs_fits (by have handed := safe.handed; omega))
  refine ⟨by rw [step], played.ahead, positions ++ [session.playbackTimestampMs], ?_, ?_, ?_⟩
  · apply Continuous.snoc continuous
    · rw [last]
      exact played.behind
    · rw [last]
      exact near
  · rw [step, finish_snoc]
  · rw [step, windows_snoc, last, published, List.append_assoc]

theorem Played.frame (played : Played db start old session) (safe : Safe db minMs maxMs latest session) (bounds : minMs ≤ maxMs)
    (small : maxMs < 2 ^ 31) (unmoved : Unmoved input) {after : Session} (framed : session.frame input = .done after)
    {clock : Nat} (kept : Good maxMs clock session.seekbar) (ordered : clock ≤ input.processTimeMs)
    (room : maxMs + input.processTimeMs < 2 ^ 31) : Played db start old after := by
  obtain ⟨seekbar, updated, good, advanced⟩ := (kept.control small input).update ordered room
  obtain rfl := Outcome.done.inj ((frame_eq updated).symm.trans framed)
  have ahead := played.ahead
  have behind := played.behind
  have handed := good.toUint64_current small
  rw [control_current unmoved] at advanced
  refine ⟨?_, ?_, played.tiled⟩
  · show session.thread.playbackTimestampMs ≤ toUint64 seekbar.currentTimestampMs
    omega
  · show (toUint64 seekbar.currentTimestampMs : Int) ≤ (if session.haveSerials
      then seekbar.makeSeekbar session.minTimestampMs input else seekbar).currentTimestampMs
    rw [handed, safe.start]
    split
    · exact le_makeSeekbar unmoved good small bounds
    · exact le_rfl

theorem Played.act {seen : List FrameInput} (played : Played db start old session)
    (safe : Safe db minMs maxMs seen.getLast? session) (bounds : minMs ≤ maxMs) (small : maxMs < 2 ^ 31) {event : SessionEvent}
    (forward : ((seen ++ frames [event]).map (·.processTimeMs)).Pairwise (· ≤ ·))
    (allowed : ∀ input ∈ frames [event], Allowed minMs maxMs input) (unmoved : ∀ input ∈ frames [event], Unmoved input)
    (near : event = .iterate → session.playbackTimestampMs ≤ session.thread.playbackTimestampMs + 1000) {after : Session}
    (acted : session.act db event = .done after) : Played db start old after := by
  cases event with
  | iterate =>
    obtain rfl := Outcome.done.inj acted
    exact played.iterate safe small (near rfl)
  | frame input =>
    have member : input ∈ frames [.frame input] := List.mem_singleton_self input
    exact played.frame safe bounds small (unmoved input member) acted safe.seekbar (clock_le forward) (allowed input member).room

/-- A session that has caught up after these frames. -/
structure CaughtUp (db : Database) (minMs maxMs : Nat) (seen : List FrameInput) (session : Session) : Prop where
  safe : Safe db minMs maxMs seen.getLast? session
  thread : session.thread.playbackTimestampMs = session.playbackTimestampMs
  ahead : (session.playbackTimestampMs : Int) ≤ session.seekbar.currentTimestampMs

/-- The playback thread comes around before more than a second of the log has been played. -/
def Prompt (db : Database) (session : Session) (events : List SessionEvent) : Prop :=
  ∀ earlier later, events = earlier ++ .iterate :: later → ∀ before, session.run db earlier = .done before →
    before.playbackTimestampMs ≤ before.thread.playbackTimestampMs + 1000

/-- Frames that go forward in time, without seeks. -/
structure Unattended (minMs maxMs : Nat) (seen : List FrameInput) (events : List SessionEvent) : Prop where
  forward : ((seen ++ frames events).map (·.processTimeMs)).Pairwise (· ≤ ·)
  allowed : ∀ input ∈ frames events, Allowed minMs maxMs input
  unmoved : ∀ input ∈ frames events, Unmoved input

theorem Unattended.init {seen : List FrameInput} {events : List SessionEvent} {event : SessionEvent}
    (unattended : Unattended minMs maxMs seen (events ++ [event])) : Unattended minMs maxMs seen events := by
  obtain ⟨forward, allowed, unmoved⟩ := unattended
  rw [frames_snoc] at forward allowed unmoved
  rw [← List.append_assoc] at forward
  exact ⟨forward.sublist ((List.sublist_append_left _ _).map _),
    fun input member => allowed input (List.mem_append_left _ member),
    fun input member => unmoved input (List.mem_append_left _ member)⟩

theorem played_run (bounds : minMs ≤ maxMs) (small : maxMs < 2 ^ 31) {seen : List FrameInput}
    (caughtUp : CaughtUp db minMs maxMs seen session) {events : List SessionEvent}
    (unattended : Unattended minMs maxMs seen events) (prompt : Prompt db session events) :
    ∃ final, session.run db events = .done final ∧ Safe db minMs maxMs (seen ++ frames events).getLast? final ∧
      Played db session.thread.playbackTimestampMs session.thread.published final := by
  induction events using List.reverseRecOn with
  | nil =>
    refine ⟨session, rfl, ?_, ⟨caughtUp.thread.le, caughtUp.ahead, [], List.isChain_singleton _, rfl, ?_⟩⟩
    · simpa [frames] using caughtUp.safe
    · simp [windows]
  | append_singleton events event ih =>
    obtain ⟨middle, ran, safe, played⟩ := ih unattended.init fun earlier later same before =>
      prompt earlier (later ++ [event]) (by rw [same]; simp) before
    obtain ⟨forward, allowed, unmoved⟩ := unattended
    rw [frames_snoc] at forward allowed unmoved
    rw [← List.append_assoc] at forward
    have allowedHere : ∀ input ∈ frames [event], Allowed minMs maxMs input :=
      fun input member => allowed input (List.mem_append_right _ member)
    obtain ⟨after, acted, kept⟩ := safe.act bounds small forward allowedHere
    refine ⟨after, ?_, ?_, ?_⟩
    · rw [run_snoc, ran, Outcome.done_bind, acted]
    · rw [frames_snoc, ← List.append_assoc]
      exact kept
    · have still : ∀ input ∈ _, _ := fun input member => unmoved input (List.mem_append_right _ member)
      apply played.act safe bounds small forward allowedHere still _ acted
      intro iterates
      exact prompt events [] (by rw [iterates]) middle ran

/-- What is published is the part of the log between two positions of the thread, each row once and in the order of time. -/
theorem played_once (exact : ∀ row ∈ db.log, row.thisProcessTimeUs < 2 ^ 53) (bounds : minMs ≤ maxMs) (small : maxMs < 2 ^ 31)
    {seen : List FrameInput} (caughtUp : CaughtUp db minMs maxMs seen session) {events : List SessionEvent}
    (unattended : Unattended minMs maxMs seen events) (prompt : Prompt db session events) :
    ∃ final rows, session.run db events = .done final ∧ final.thread.published = session.thread.published ++ rows ∧
      (∀ row, rows.count row = if 1000 * session.thread.playbackTimestampMs < row.thisProcessTimeUs ∧
        row.thisProcessTimeUs ≤ 1000 * final.thread.playbackTimestampMs then db.log.count row else 0) ∧
      (rows.Pairwise fun first second => first.thisProcessTimeUs ≤ second.thisProcessTimeUs) ∧
      (final.thread.playbackTimestampMs : Int) ≤ final.seekbar.currentTimestampMs := by
  obtain ⟨final, ran, -, played⟩ := played_run bounds small caughtUp unattended prompt
  obtain ⟨positions, continuous, last, published⟩ := played.tiled
  have behind := played.behind
  have ahead := played.ahead
  refine ⟨final, windows db session.thread.playbackTimestampMs positions, ran, published, fun row => ?_,
    windows_ascending db continuous, by omega⟩
  rw [count_windows db continuous, last]
  by_cases logged : row ∈ db.log
  · have time := exact row logged
    simp only [toUs_lt_iff time, le_toUs_iff time]
  · simp [List.count_eq_zero.mpr logged]

/-- Playing, with the thread at the position that is shown. -/
def playing : Session where
  seekbar := { maxTimestampMs := 4, currentTimestampMs := 2, playing := true, lastPlayTimeMs := some 10 }
  minTimestampMs := 2
  haveSerials := true
  playbackTimestampMs := 2
  thread := ⟨2, []⟩

theorem playing_caughtUp : CaughtUp (sortedDatabase [keyframeAt 2500, keyframeAt 4500]) 2 4 [{ processTimeMs := 10 }] playing where
  safe :=
    { seekbar := ⟨rfl, rfl, rfl, by decide, fun last same => ⟨10, (Option.some.inj same).symm, le_rfl⟩⟩
      start := rfl
      shown := by decide
      handed := by decide
      thread := by decide
      published := fun row member => by cases member }
  thread := rfl
  ahead := le_rfl

/-- The frame takes the position on by a millisecond. -/
theorem playing_frame : playing.frame { processTimeMs := 11 } = .done { playing with
    seekbar := { playing.seekbar with currentTimestampMs := 3, lastPlayTimeMs := some 11 }
    playbackTimestampMs := 3 } := by
  have updated : (playing.seekbar.handlePlaybackControl { processTimeMs := 11 }).updatePlaying 11 =
      .done { playing.seekbar with currentTimestampMs := 3, lastPlayTimeMs := some 11 } := by decide +kernel
  exact frame_eq updated

theorem playing_run : ∃ final,
    playing.run (sortedDatabase [keyframeAt 2500, keyframeAt 4500]) [.frame { processTimeMs := 11 }, .iterate] = .done final ∧
      final.thread = ⟨3, [keyframeAt 2500]⟩ := by
  refine ⟨{ playing with
    seekbar := { playing.seekbar with currentTimestampMs := 3, lastPlayTimeMs := some 11 }
    playbackTimestampMs := 3
    thread := ⟨3, [keyframeAt 2500]⟩ }, ?_, rfl⟩
  rw [Session.run, List.foldlM_cons]
  show (playing.frame { processTimeMs := 11 } >>= _) = _
  rw [playing_frame, Outcome.done_bind]
  rfl

theorem playing_prompt : Prompt (sortedDatabase [keyframeAt 2500, keyframeAt 4500]) playing
    [.frame { processTimeMs := 11 }, .iterate] := by
  intro earlier later same before ran
  cases earlier with
  | nil => cases same
  | cons first earlier =>
    cases earlier with
    | nil =>
      cases same
      have reached : playing.frame { processTimeMs := 11 } = .done before := by simpa [Session.run, Session.act] using ran
      obtain rfl := Outcome.done.inj (playing_frame.symm.trans reached)
      decide
    | cons second earlier => simp at same

theorem playing_unattended : Unattended 2 4 [{ processTimeMs := 10 }] [.frame { processTimeMs := 11 }, .iterate] := by
  constructor
  · simp [frames]
  · intro input member
    obtain rfl := List.mem_singleton.mp member
    exact ⟨fun _ absent => (by cases absent), by decide⟩
  · intro input member
    obtain rfl := List.mem_singleton.mp member
    exact ⟨.inr ⟨rfl, rfl⟩, rfl⟩

/-- The thread ends at the third millisecond and has published the row before it. -/
theorem played_once_playing : ∃ final rows,
    playing.run (sortedDatabase [keyframeAt 2500, keyframeAt 4500]) [.frame { processTimeMs := 11 }, .iterate] = .done final ∧
      final.thread.published = [] ++ rows ∧ final.thread.playbackTimestampMs = 3 ∧ rows = [keyframeAt 2500] ∧
      (∀ row, rows.count row = if 1000 * 2 < row.thisProcessTimeUs ∧ row.thisProcessTimeUs ≤ 1000 * 3
        then (sortedDatabase [keyframeAt 2500, keyframeAt 4500]).log.count row else 0) ∧
      (rows.Pairwise fun first second => first.thisProcessTimeUs ≤ second.thisProcessTimeUs) ∧
      3 ≤ final.seekbar.currentTimestampMs := by
  obtain ⟨final, rows, ran, published, counted, ascending, behind⟩ :=
    played_once (by decide) (show 2 ≤ 4 by decide) (by decide) playing_caughtUp playing_unattended playing_prompt
  obtain ⟨same, run, thread⟩ := playing_run
  obtain rfl := Outcome.done.inj (run.symm.trans ran)
  have found : rows = [keyframeAt 2500] := by
    rw [thread] at published
    exact published.symm
  rw [thread] at counted behind
  exact ⟨same, rows, ran, published, by rw [thread], found, counted, ascending, behind⟩

end

end AxbyCore.Proofs.ViewerSession
