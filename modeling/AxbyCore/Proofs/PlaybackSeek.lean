import AxbyCore.LogViewer.Playback
import Mathlib.Data.List.Dedup
import Mathlib.Data.List.Perm.Subperm
import Mathlib.Data.List.Sort
import Mathlib.Tactic.Common

/-! A seek of the playback thread. The catch-up query ends before the position and
the window query starts a millisecond before it, so they overlap exactly in the
rows strictly inside that millisecond. -/

namespace AxbyCore.LogViewer.Proofs
open Pubsub

/-- Positions come from the seekbar, which keeps them in an int. -/
theorem toUs_eq {timeMs : Nat} (small : timeMs < 2 ^ 43) : toUs timeMs = 1000 * timeMs := by
  have exact := Binary64.round_exact (n := timeMs) (by omega)
  have product := Binary64.round_exact (n := timeMs * 1000) (by omega)
  rw [toUs, exact, product, Nat.mul_comm]

/-- What an iteration adds to the published rows. -/
def seekRows (db : Database) (position : Nat) : List LogRow :=
  (findKeyframeMessageIds db position).flatMap (catchUpRows db position) ++ windowRows db (position - 1) position

theorem iterate_seek (db : Database) (thread : PlaybackThread) {position : Nat} (positive : 1 ≤ position)
    (small : position < 2 ^ 64) (jumps : needInitialize thread.playbackTimestampMs position = true) :
    (iterate db thread position).published = thread.published ++ seekRows db position := by
  have before : (position + 2 ^ 64 - 1) % 2 ^ 64 = position - 1 := by omega
  simp only [iterate, jumps, if_true, before, seekRows, List.append_assoc]

/-- The rows of a topic from its keyframe up to a time. -/
def topicRun (log : List LogRow) (topic : Bytes) (keyframe stop : Nat) : List LogRow :=
  log.filter fun row => row.topic == topic && decide (keyframe ≤ row.messageId) && decide (row.thisProcessTimeUs ≤ stop)

/-- The rows published for a topic are its rows from the keyframe on, each once
and in the order of time. -/
structure Gapless (log published : List LogRow) (topic : Bytes) (keyframe stop : Nat) : Prop where
  complete : (published.filter (·.topic == topic)).Perm (topicRun log topic keyframe stop)
  ascending : (published.filter (·.topic == topic)).Pairwise fun first second =>
    first.thisProcessTimeUs ≤ second.thisProcessTimeUs

theorem count_filter_eq (rows : List LogRow) (keep : LogRow → Bool) (row : LogRow) :
    (rows.filter keep).count row = if keep row then rows.count row else 0 := by
  by_cases kept : keep row = true
  · rw [List.count_filter kept, if_pos kept]
  · rw [if_neg kept, List.count_eq_zero]
    intro member
    exact kept (List.mem_filter.mp member).2

theorem count_ordered (db : Database) (rows : List LogRow) (row : LogRow) :
    (db.orderByTime rows).count row = rows.count row :=
  (db.ordered rows).1.count_eq row

theorem count_catchUpRows (db : Database) (position : Nat) (keyframe : Bytes × Nat) (row : LogRow) :
    (catchUpRows db position keyframe).count row =
      if keyframe.2 ≤ row.messageId ∧ row.thisProcessTimeUs < toUs position ∧ row.topic = keyframe.1
      then db.log.count row else 0 := by
  rw [catchUpRows, count_ordered, count_filter_eq]
  simp [and_assoc]

theorem count_windowRows (db : Database) (earlier position : Nat) (row : LogRow) :
    (windowRows db earlier position).count row =
      if toUs earlier < row.thisProcessTimeUs ∧ row.thisProcessTimeUs ≤ toUs position then db.log.count row else 0 := by
  rw [windowRows, count_ordered, count_filter_eq]
  simp

theorem catchUpRows_topic {db : Database} {position : Nat} {keyframe : Bytes × Nat} {row : LogRow}
    (member : row ∈ catchUpRows db position keyframe) : row.topic = keyframe.1 := by
  have selected := ((db.ordered _).1.mem_iff).mp member
  simp only [List.mem_filter, Bool.and_eq_true, beq_iff_eq] at selected
  exact selected.2.2

theorem keyframes_nodup (db : Database) (position : Nat) : ((findKeyframeMessageIds db position).map Prod.fst).Nodup := by
  unfold findKeyframeMessageIds
  rw [List.map_map]
  have same : (Prod.fst ∘ fun topic : Bytes =>
      (topic, maxMessageId ((keyframeRows db.log (toUs position)).filter (·.topic == topic)))) = id := rfl
  rw [same, List.map_id]
  exact (db.grouped _).1

theorem filter_segments {db : Database} {position : Nat} {keyframes : List (Bytes × Nat)}
    (distinct : (keyframes.map Prod.fst).Nodup) {topic : Bytes} {keyframe : Nat} (member : (topic, keyframe) ∈ keyframes) :
    (keyframes.flatMap (catchUpRows db position)).filter (·.topic == topic) =
      catchUpRows db position (topic, keyframe) := by
  have whole : ∀ first : Bytes × Nat, first.1 = topic →
      (catchUpRows db position first).filter (·.topic == topic) = catchUpRows db position first := by
    intro first same
    apply List.filter_eq_self.mpr
    exact fun row held => by simp [catchUpRows_topic held, same]
  have none : ∀ first : Bytes × Nat, first.1 ≠ topic → (catchUpRows db position first).filter (·.topic == topic) = [] := by
    intro first other
    apply List.filter_eq_nil_iff.mpr
    exact fun row held => by simp [catchUpRows_topic held, other]
  have absent : ∀ rest : List (Bytes × Nat), topic ∉ rest.map Prod.fst →
      (rest.flatMap (catchUpRows db position)).filter (·.topic == topic) = [] := by
    intro rest missing
    rw [List.filter_flatMap, List.flatMap_eq_nil_iff]
    exact fun other held => none other fun same => missing (List.mem_map.mpr ⟨other, held, same⟩)
  induction keyframes with
  | nil => simp at member
  | cons first keyframes ih =>
    obtain ⟨fresh, distinct⟩ := List.nodup_cons.mp distinct
    rw [List.flatMap_cons, List.filter_append]
    rcases List.mem_cons.mp member with rfl | later
    · rw [whole _ rfl, absent keyframes fresh, List.append_nil]
    · rw [ih distinct later, none first, List.nil_append]
      rintro rfl
      exact fresh (List.mem_map.mpr ⟨_, later, rfl⟩)

/-- A row of a topic without a segment is in none. -/
theorem count_segments_none (db : Database) (position : Nat) (row : LogRow) {keyframes : List (Bytes × Nat)}
    (none : ∀ keyframe ∈ keyframes, keyframe.1 ≠ row.topic) :
    (keyframes.flatMap (catchUpRows db position)).count row = 0 := by
  apply List.count_eq_zero.mpr
  intro member
  obtain ⟨keyframe, held, inside⟩ := List.mem_flatMap.mp member
  exact none keyframe held (catchUpRows_topic inside).symm

/-- No row of the topic is strictly between the two times, and none at the second
is older than the keyframe. -/
def Aligned (log : List LogRow) (topic : Bytes) (keyframe start stop : Nat) : Prop :=
  ∀ row ∈ log, row.topic = topic → start < row.thisProcessTimeUs → row.thisProcessTimeUs ≤ stop →
    row.thisProcessTimeUs = stop ∧ keyframe ≤ row.messageId

section
variable {db : Database} {position : Nat} {topic : Bytes} {keyframe : Nat}

theorem count_seekRows (member : (topic, keyframe) ∈ findKeyframeMessageIds db position) {row : LogRow}
    (same : row.topic = topic) :
    (seekRows db position).count row =
      (if keyframe ≤ row.messageId ∧ row.thisProcessTimeUs < toUs position then db.log.count row else 0) +
      if toUs (position - 1) < row.thisProcessTimeUs ∧ row.thisProcessTimeUs ≤ toUs position
      then db.log.count row else 0 := by
  have segment : ((findKeyframeMessageIds db position).flatMap (catchUpRows db position)).count row =
      (catchUpRows db position (topic, keyframe)).count row := by
    rw [← filter_segments (keyframes_nodup db position) member, List.count_filter (by simp [same])]
  rw [seekRows, List.count_append, segment, count_catchUpRows, count_windowRows]
  simp [same]

/-- The two time ranges tile the third exactly when nothing falls into their overlap
and nothing of the second range is older than the keyframe. -/
theorem ranges_tile {keyframe id start time stop count : Nat} (forward : start < stop) (positive : 0 < count) :
    ((if keyframe ≤ id ∧ time < stop then count else 0) + (if start < time ∧ time ≤ stop then count else 0) =
      if keyframe ≤ id ∧ time ≤ stop then count else 0) ↔
    (start < time → time ≤ stop → time = stop ∧ keyframe ≤ id) := by
  by_cases inside : start < time ∧ time ≤ stop
  · rw [if_pos inside]
    by_cases newer : keyframe ≤ id
    · by_cases before : time < stop
      · rw [if_pos ⟨newer, before⟩, if_pos ⟨newer, inside.2⟩]
        constructor
        · intro twice
          omega
        · intro aligned
          have := aligned inside.1 inside.2
          omega
      · rw [if_neg fun both => before both.2, if_pos ⟨newer, inside.2⟩]
        constructor
        · intro _ _ _
          exact ⟨by omega, newer⟩
        · intro _
          omega
    · rw [if_neg fun both => newer both.1, if_neg fun both => newer both.1]
      constructor
      · intro once
        omega
      · intro aligned
        exact absurd (aligned inside.1 inside.2).2 newer
  · rw [if_neg inside, Nat.add_zero]
    constructor
    · intro _ later upTo
      exact absurd ⟨later, upTo⟩ inside
    · intro _
      -- outside the window a row is before the position or after it
      have same : (keyframe ≤ id ∧ time < stop) ↔ (keyframe ≤ id ∧ time ≤ stop) := by omega
      simp only [same]

/-- Both queries together select each row of the run once exactly when the topic is aligned. -/
theorem complete_iff (member : (topic, keyframe) ∈ findKeyframeMessageIds db position)
    (forward : toUs (position - 1) < toUs position) :
    ((seekRows db position).filter (·.topic == topic)).Perm (topicRun db.log topic keyframe (toUs position)) ↔
      Aligned db.log topic keyframe (toUs (position - 1)) (toUs position) := by
  have counts : ∀ row, row.topic = topic → ((seekRows db position).filter (·.topic == topic)).count row =
      (seekRows db position).count row := by
    intro row same
    rw [count_filter_eq, if_pos (beq_iff_eq.mpr same)]
  have runs : ∀ row, row.topic = topic → (topicRun db.log topic keyframe (toUs position)).count row =
      if keyframe ≤ row.messageId ∧ row.thisProcessTimeUs ≤ toUs position then db.log.count row else 0 := by
    intro row same
    rw [topicRun, count_filter_eq]
    simp [same]
  rw [List.perm_iff_count]
  constructor
  · intro once row logged same
    have equal := once row
    rw [counts row same, count_seekRows member same, runs row same] at equal
    exact (ranges_tile forward (List.count_pos_iff.mpr logged)).mp equal
  · intro aligned row
    by_cases same : row.topic = topic
    · rw [counts row same, count_seekRows member same, runs row same]
      by_cases logged : row ∈ db.log
      · exact (ranges_tile forward (List.count_pos_iff.mpr logged)).mpr (aligned row logged same)
      · simp [List.count_eq_zero.mpr logged]
    · rw [count_filter_eq, topicRun, count_filter_eq]
      simp [same]

/-- Aligned rows come in the order of time: the segment ends before the position
and the window adds rows at the position. -/
theorem ascending (member : (topic, keyframe) ∈ findKeyframeMessageIds db position)
    (aligned : Aligned db.log topic keyframe (toUs (position - 1)) (toUs position)) :
    ((seekRows db position).filter (·.topic == topic)).Pairwise fun first second =>
      first.thisProcessTimeUs ≤ second.thisProcessTimeUs := by
  have segment : (((findKeyframeMessageIds db position).flatMap (catchUpRows db position)).filter (·.topic == topic)) =
      catchUpRows db position (topic, keyframe) := filter_segments (keyframes_nodup db position) member
  rw [seekRows, List.filter_append, segment, List.pairwise_append]
  refine ⟨(db.ordered _).2, (db.ordered _).2.filter _, ?_⟩
  intro first early second late
  have first := (db.ordered _).1.mem_iff.mp early
  have second := (db.ordered _).1.mem_iff.mp (List.mem_filter.mp late).1
  have topics := (List.mem_filter.mp late).2
  simp only [List.mem_filter, Bool.and_eq_true, decide_eq_true_eq, beq_iff_eq] at first second topics
  have at_ := (aligned _ second.1 topics second.2.1 second.2.2).1
  omega

theorem subperm_log (aligned : ∀ keyframe ∈ findKeyframeMessageIds db position,
    Aligned db.log keyframe.1 keyframe.2 (toUs (position - 1)) (toUs position))
    (forward : toUs (position - 1) < toUs position) : (seekRows db position).Subperm db.log := by
  apply List.subperm_ext_iff.mpr
  intro row _
  by_cases video : ∃ keyframe ∈ findKeyframeMessageIds db position, keyframe.1 = row.topic
  · obtain ⟨⟨topic, keyframe⟩, member, same⟩ := video
    have once := ((complete_iff member forward).mpr (aligned _ member)).count_eq row
    rw [count_filter_eq, if_pos (by simpa using same.symm), topicRun, count_filter_eq] at once
    rw [once]
    split
    · exact Nat.le_refl _
    · exact Nat.zero_le _
  · have none := count_segments_none db position row fun keyframe member same => video ⟨keyframe, member, same⟩
    rw [seekRows, List.count_append, none, count_windowRows, Nat.zero_add]
    split
    · exact Nat.le_refl _
    · exact Nat.zero_le _

end

/-- A seek publishes every row at most once and every video topic without a gap
exactly when no row of such a topic falls into the overlap of its two queries. -/
theorem seek_publishes_once (db : Database) (thread : PlaybackThread) {position : Nat} (positive : 1 ≤ position)
    (small : position < 2 ^ 43) (jumps : needInitialize thread.playbackTimestampMs position = true) :
    ∃ rows, (iterate db thread position).published = thread.published ++ rows ∧
      ((rows.Subperm db.log ∧ ∀ keyframe ∈ findKeyframeMessageIds db position,
          Gapless db.log rows keyframe.1 keyframe.2 (1000 * position)) ↔
        ∀ keyframe ∈ findKeyframeMessageIds db position,
          Aligned db.log keyframe.1 keyframe.2 (1000 * (position - 1)) (1000 * position)) := by
  refine ⟨seekRows db position, iterate_seek db thread positive (by omega) jumps, ?_⟩
  have start : toUs (position - 1) = 1000 * (position - 1) := toUs_eq (by omega)
  have stop := toUs_eq small
  have forward : toUs (position - 1) < toUs position := by omega
  rw [← start, ← stop]
  constructor
  · intro published keyframe member
    exact (complete_iff member forward).mp (published.2 keyframe member).complete
  · intro aligned
    refine ⟨subperm_log aligned forward, fun keyframe member => ⟨?_, ?_⟩⟩
    · exact (complete_iff member forward).mpr (aligned keyframe member)
    · exact ascending member (aligned keyframe member)

/-! Logs as the recorder writes them. -/

/-- The recorder numbers its rows in the order of time. -/
def Recorded (log : List LogRow) : Prop :=
  log.Pairwise fun first second => first.messageId < second.messageId ∧ first.thisProcessTimeUs ≤ second.thisProcessTimeUs

theorem maxMessageId_mem {rows : List LogRow} (nonempty : rows ≠ []) :
    ∃ row ∈ rows, row.messageId = maxMessageId rows := by
  induction rows with
  | nil => exact absurd rfl nonempty
  | cons first rows ih =>
    by_cases last : rows = []
    · subst rows
      exact ⟨first, by simp, by simp [maxMessageId]⟩
    · obtain ⟨row, member, same⟩ := ih last
      rcases Nat.le_total first.messageId (maxMessageId rows) with le | ge
      · exact ⟨row, by simp [member], same.trans (Nat.max_eq_right le).symm⟩
      · exact ⟨first, by simp, (Nat.max_eq_left ge).symm⟩

/-- The keyframe of a topic is a row of the topic before the position. -/
theorem keyframe_row {db : Database} {position : Nat} {topic : Bytes} {keyframe : Nat}
    (member : (topic, keyframe) ∈ findKeyframeMessageIds db position) :
    ∃ row ∈ db.log, row.topic = topic ∧ row.messageId = keyframe ∧ row.thisProcessTimeUs < toUs position := by
  obtain ⟨found, held, same⟩ := List.mem_map.mp member
  obtain ⟨rfl, rfl⟩ := Prod.mk.inj same
  obtain ⟨first, inside, topics⟩ := List.mem_map.mp (((db.grouped _).2 _).mp held)
  have nonempty : (keyframeRows db.log (toUs position)).filter (·.topic == found) ≠ [] :=
    List.ne_nil_of_mem (List.mem_filter.mpr ⟨inside, by simpa using topics⟩)
  obtain ⟨row, selected, greatest⟩ := maxMessageId_mem nonempty
  simp only [keyframeRows, List.mem_filter, Bool.and_eq_true, decide_eq_true_eq, beq_iff_eq] at selected
  exact ⟨row, selected.1.1, selected.2, greatest, selected.1.2.2⟩

/-- In a recorded log only the rows strictly inside the last millisecond matter. -/
theorem aligned_recorded {db : Database} {position : Nat} {topic : Bytes} {keyframe start : Nat}
    (recorded : Recorded db.log) (member : (topic, keyframe) ∈ findKeyframeMessageIds db position) :
    Aligned db.log topic keyframe start (toUs position) ↔
      ∀ row ∈ db.log, row.topic = topic → ¬ (start < row.thisProcessTimeUs ∧ row.thisProcessTimeUs < toUs position) := by
  constructor
  · intro aligned row logged same inside
    have := (aligned row logged same inside.1 (Nat.le_of_lt inside.2)).1
    omega
  · intro none row logged same later upTo
    have outside := none row logged same
    refine ⟨by omega, ?_⟩
    obtain ⟨first, firstLogged, topics, rfl, before⟩ := keyframe_row member
    by_contra older
    obtain ⟨i, inside, rfl⟩ := List.mem_iff_getElem.mp logged
    obtain ⟨j, firstInside, rfl⟩ := List.mem_iff_getElem.mp firstLogged
    -- an older row comes first, and is then not later than the keyframe
    have order := List.pairwise_iff_getElem.mp recorded
    rcases Nat.lt_trichotomy i j with earlier | rfl | later
    · have := (order i j inside firstInside earlier).2
      omega
    · exact older (Nat.le_refl _)
    · have := (order j i firstInside inside later).1
      omega

/-! A log with one keyframe, which lies inside the millisecond before the position. -/

def sortedDatabase (log : List LogRow) : Database where
  log := log
  orderByTime := List.insertionSort fun first second => first.thisProcessTimeUs ≤ second.thisProcessTimeUs
  groupBy := List.dedup
  ordered := fun rows => ⟨List.perm_insertionSort _ rows, by
    have : IsTrans LogRow fun first second => first.thisProcessTimeUs ≤ second.thisProcessTimeUs :=
      ⟨fun _ _ _ => Nat.le_trans⟩
    have : Std.Total fun first second : LogRow => first.thisProcessTimeUs ≤ second.thisProcessTimeUs :=
      ⟨fun _ _ => Nat.le_total _ _⟩
    exact List.pairwise_insertionSort _ rows⟩
  grouped := fun topics => ⟨List.nodup_dedup topics, fun _ => List.mem_dedup⟩

def keyframeAt (timeUs : Nat) : LogRow where
  topic := ascii "realsense/depth/7"
  header := { flags := 1 }
  thisProcessTimeUs := timeUs
  messageId := 0
  frames := []

theorem seek_publishes_once_aligned : ∃ rows,
    (iterate (sortedDatabase [keyframeAt 900]) ⟨5000, []⟩ 2).published = [] ++ rows ∧
      rows.Subperm [keyframeAt 900] := by
  have aligned : ∀ keyframe ∈ findKeyframeMessageIds (sortedDatabase [keyframeAt 900]) 2,
      Aligned [keyframeAt 900] keyframe.1 keyframe.2 1000 2000 := by
    intro keyframe _ row logged _ later _
    obtain rfl := List.mem_singleton.mp logged
    exact absurd later (by decide)
  obtain ⟨rows, published, exactly⟩ :=
    seek_publishes_once (sortedDatabase [keyframeAt 900]) ⟨5000, []⟩ (by decide : 1 ≤ 2) (by decide) (by decide)
  exact ⟨rows, published, (exactly.mpr aligned).1⟩

/-- A keyframe half a millisecond before the position is published twice. -/
theorem seek_publishes_twice :
    (iterate (sortedDatabase [keyframeAt 1500]) ⟨5000, []⟩ 2).published = [keyframeAt 1500, keyframeAt 1500] ∧
      ¬ [keyframeAt 1500, keyframeAt 1500].Subperm (sortedDatabase [keyframeAt 1500]).log := by
  refine ⟨by decide, ?_⟩
  intro once
  exact absurd once.length_le (by decide)

end AxbyCore.LogViewer.Proofs
