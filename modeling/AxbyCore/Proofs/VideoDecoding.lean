import AxbyCore.Realsense.VideoClient
import Mathlib.Data.List.Chain
import Mathlib.Tactic.Common

/-! A decoder gets no packet without the ones it builds on. Both threads keep one
invariant for each sensor, and a sensor that waits is passed nothing but a keyframe. -/

namespace AxbyCore.Realsense.Proofs
open Pubsub

variable {pixel frames : Type}

/-- The packets of a decoder begin with a keyframe and follow each other. -/
structure Unbroken (packets : List VideoMessage) : Prop where
  keyframe : ∀ first ∈ packets.head?, first.isKeyframe = true
  consecutive : packets.IsChain fun before after => after.sequenceId.toNat = before.sequenceId.toNat + 1

/-- What a context remembers is what its decoder was passed. -/
inductive Tracks (context : VideoContext pixel) : Prop where
  | waiting (fresh : context.decoder = []) (unset : context.lastSequenceId = invalidSequenceId)
      (needs : context.needKeyframe = true)
  | following (earlier : List VideoMessage) (last : VideoMessage) (packets : context.decoder = earlier ++ [last])
      (remembers : context.lastSequenceId = last.sequenceId) (valid : last.sequenceId ≠ invalidSequenceId)
      (needs : context.needKeyframe = false) (unbroken : Unbroken context.decoder)

theorem Unbroken.nil : Unbroken [] := ⟨by simp, .nil⟩

theorem Unbroken.single {video : VideoMessage} (keyframe : video.isKeyframe = true) : Unbroken [video] :=
  ⟨by simpa using keyframe, .singleton _⟩

theorem Unbroken.snoc {earlier : List VideoMessage} {last video : VideoMessage} (unbroken : Unbroken (earlier ++ [last]))
    (next : video.sequenceId.toNat = last.sequenceId.toNat + 1) : Unbroken (earlier ++ [last] ++ [video]) := by
  constructor
  · intro first member
    apply unbroken.keyframe
    cases earlier <;> simpa using member
  · apply List.isChain_append.mpr
    refine ⟨unbroken.consecutive, .singleton _, ?_⟩
    intro before inside after same
    obtain rfl : last = before := by simpa using inside
    obtain rfl : video = after := by simpa using same
    exact next

theorem Tracks.unbroken {context : VideoContext pixel} (tracks : Tracks context) : Unbroken context.decoder := by
  cases tracks with
  | waiting fresh _ _ =>
    rw [fresh]
    exact .nil
  | following _ _ _ _ _ _ unbroken => exact unbroken

theorem Tracks.reinit (context : VideoContext pixel) : Tracks context.reinit := .waiting rfl rfl rfl

theorem Tracks.fresh : Tracks ({} : VideoContext pixel) := .waiting rfl rfl rfl

theorem Tracks.resync {context : VideoContext pixel} (tracks : Tracks context) (video : VideoMessage) :
    Tracks (context.resync video) := by
  unfold VideoContext.resync
  split
  · exact .reinit context
  · exact tracks

theorem succ_eq {before after : UInt64} (valid : before ≠ invalidSequenceId) (next : before + 1 = after) :
    after.toNat = before.toNat + 1 := by
  have small := before.toNat_lt
  have bound : before.toNat ≠ 2 ^ 64 - 1 := fun same => valid (UInt64.toNat_inj.mp (same.trans (by decide)))
  have sum := UInt64.toNat_add before 1
  rw [next] at sum
  have one : (1 : UInt64).toNat = 1 := rfl
  omega

/-- After the comparison of the sequence ids a packet may be passed if it is a keyframe
or none is needed. -/
theorem Tracks.pass {context : VideoContext pixel} {video : VideoMessage} (tracks : Tracks context)
    (valid : video.sequenceId ≠ invalidSequenceId)
    (allowed : (context.resync video).needKeyframe = true → video.isKeyframe = true) :
    Tracks ((context.resync video).pass video) := by
  cases tracks.resync video with
  | waiting fresh _ needs =>
    have packets : ((context.resync video).pass video).decoder = [] ++ [video] := by
      simp only [VideoContext.pass, fresh]
    exact .following [] video packets rfl valid rfl (packets ▸ .single (allowed needs))
  | following earlier last packets remembers before needs unbroken =>
    have next : last.sequenceId + 1 = video.sequenceId := by
      -- a dropped packet would have made a new decoder
      have kept : context.dropped video = false := by
        by_contra dropped
        have new : context.resync video = context.reinit := if_pos (by simpa using dropped)
        rw [new] at needs
        exact absurd needs (by simp [VideoContext.reinit])
      have same : context.resync video = context := if_neg (by simp [kept])
      rw [same] at remembers
      by_contra other
      have dropped : context.dropped video = true := by
        simp only [VideoContext.dropped, remembers, Bool.and_eq_true, bne_iff_ne]
        exact ⟨before, other⟩
      rw [dropped] at kept
      exact absurd kept (by decide)
    have passed : ((context.resync video).pass video).decoder = (earlier ++ [last]) ++ [video] := by
      simp only [VideoContext.pass, packets]
    refine .following (earlier ++ [last]) video passed rfl valid rfl ?_
    rw [passed]
    exact Unbroken.snoc (packets ▸ unbroken) (succ_eq before next)

/-- After a decoding the context is as the packet left it, apart from its output, or
has a new decoder. -/
def Settles (kind : VideoKind pixel (Option frames)) : Prop :=
  ∀ context video result final, kind.finish context video result = some final →
    (final.decoder = context.decoder ∧ final.lastSequenceId = context.lastSequenceId ∧
      final.needKeyframe = context.needKeyframe) ∨ ∃ before : VideoContext pixel, final = before.reinit

/-- A failed decoding leaves no decoder that could go on. -/
def Stops (kind : VideoKind pixel (Option frames)) : Prop :=
  ∀ context video final, kind.finish context video none = some final → final.needKeyframe = true

theorem depth_settles : Settles depthKind := by
  intro context video result final finished
  cases result with
  | none =>
    obtain rfl := Option.some.inj finished
    exact .inr ⟨context, rfl⟩
  | some depthOut =>
    obtain rfl := Option.some.inj finished
    exact .inl ⟨rfl, rfl, rfl⟩

theorem depth_stops : Stops depthKind := by
  intro context video final finished
  obtain rfl := Option.some.inj finished
  rfl

theorem color_settles : Settles colorKind := by
  intro context video result final finished
  cases result with
  | none => exact absurd finished (by simp [colorKind])
  | some images =>
    simp only [colorKind] at finished
    induction images generalizing context with
    | nil =>
      obtain rfl := Option.some.inj finished
      exact .inl ⟨rfl, rfl, rfl⟩
    | cons image images ih =>
      unfold writeImages at finished
      split at finished
      · exact ih (context.write video image.rgb) finished
      · exact absurd finished (by simp)

theorem color_stops : Stops colorKind := by
  intro context video final finished
  exact absurd finished (by simp [colorKind])

theorem Tracks.finish {kind : VideoKind pixel (Option frames)} (settles : Settles kind) {context final : VideoContext pixel}
    {video : VideoMessage} {result : Option frames} (tracks : Tracks context)
    (finished : kind.finish context video result = some final) : Tracks final := by
  rcases settles context video result final finished with ⟨packets, sequence, need⟩ | ⟨before, rfl⟩
  · cases tracks with
    | waiting fresh unset needs => exact .waiting (packets.trans fresh) (sequence.trans unset) (need.trans needs)
    | following earlier last decoder remembers valid needs unbroken =>
      refine .following earlier last (packets.trans decoder) (sequence.trans remembers) valid (need.trans needs) ?_
      rw [packets]
      exact unbroken
  · exact .reinit before

/-- The packets passed to the decoders of a sensor. -/
def passedTo (thread : VideoThread pixel) (serial : Bytes) : List VideoMessage :=
  (thread.calls.map (·.packet)).filter (·.serial == serial)

/-- A call passes a keyframe to a new decoder, or the packet after the last one. -/
def Continues (call : DecoderCall) : Prop := Unbroken (call.earlier ++ [call.packet])

/-- Every context tracks its decoder, which has the last packets passed for the sensor. -/
structure Valid (thread : VideoThread pixel) : Prop where
  calls : ∀ call ∈ thread.calls, Continues call
  tracks : ∀ serial context, thread.contexts serial = some context → Tracks context
  recent : ∀ serial context, thread.contexts serial = some context → context.decoder <:+ passedTo thread serial

theorem Valid.initial : Valid ({} : VideoThread pixel) := ⟨by simp, by simp, by simp⟩

theorem Valid.abort {thread : VideoThread pixel} (valid : Valid thread) : Valid thread.abort :=
  ⟨valid.calls, valid.tracks, valid.recent⟩

@[simp] theorem store_self (thread : VideoThread pixel) (serial : Bytes) (context : VideoContext pixel) :
    (thread.store serial context).contexts serial = some context :=
  Function.update_self ..

@[simp] theorem store_other (thread : VideoThread pixel) {serial other : Bytes} (context : VideoContext pixel)
    (elsewhere : other ≠ serial) : (thread.store serial context).contexts other = thread.contexts other :=
  Function.update_of_ne elsewhere ..

/-- A step stores one context and passes packets to no other sensor. -/
theorem Valid.put {before after : VideoThread pixel} (valid : Valid before) (same : after.contexts = before.contexts)
    (calls : ∀ call ∈ after.calls, Continues call) {serial : Bytes} {context : VideoContext pixel}
    (others : ∀ other, other ≠ serial → passedTo after other = passedTo before other) (tracks : Tracks context)
    (recent : context.decoder <:+ passedTo after serial) : Valid (after.store serial context) := by
  have split : ∀ other found, (after.store serial context).contexts other = some found →
      (other = serial ∧ found = context) ∨ (other ≠ serial ∧ before.contexts other = some found) := by
    intro other found held
    by_cases here : other = serial
    · subst here
      rw [store_self] at held
      exact .inl ⟨rfl, (Option.some.inj held).symm⟩
    · rw [store_other after context here, same] at held
      exact .inr ⟨here, held⟩
  refine ⟨calls, ?_, ?_⟩
  · intro other found held
    rcases split other found held with ⟨_, rfl⟩ | ⟨_, earlier⟩
    · exact tracks
    · exact valid.tracks other found earlier
  · intro other found held
    rcases split other found held with ⟨rfl, rfl⟩ | ⟨elsewhere, earlier⟩
    · exact recent
    · have kept := others other elsewhere
      have before := valid.recent other found earlier
      rw [← kept] at before
      exact before

theorem called_contexts (thread : VideoThread pixel) (context : VideoContext pixel) (video : VideoMessage) :
    (thread.called context video).contexts = thread.contexts := rfl

theorem called_self (thread : VideoThread pixel) (context : VideoContext pixel) (video : VideoMessage) :
    passedTo (thread.called context video) video.serial = passedTo thread video.serial ++ [video] := by
  simp [passedTo, VideoThread.called, List.filter_append]

theorem called_other (thread : VideoThread pixel) (context : VideoContext pixel) {video : VideoMessage} {serial : Bytes}
    (other : serial ≠ video.serial) : passedTo (thread.called context video) serial = passedTo thread serial := by
  simp [passedTo, VideoThread.called, List.filter_append, other.symm]

section
variable {kind : VideoKind pixel (Option frames)} {thread : VideoThread pixel} {context : VideoContext pixel}
  {video : VideoMessage} {result : Option frames}

/-- What the rest of an iteration can do: wait, fail a CHECK before the decoding, or
pass the packet, with the two outcomes of the code after it. -/
inductive Received (kind : VideoKind pixel (Option frames)) (thread : VideoThread pixel) (context : VideoContext pixel)
    (video : VideoMessage) (result : Option frames) : VideoThread pixel → Prop where
  | waits (needs : (context.resync video).needKeyframe = true) (delta : video.isKeyframe = false) :
    Received kind thread context video result (thread.store video.serial (context.resync video))
  | fails (needs : (context.resync video).needKeyframe = true) :
    Received kind thread context video result (thread.store video.serial (context.resync video)).abort
  | passes (allowed : (context.resync video).needKeyframe = true → video.isKeyframe = true)
      (final : VideoContext pixel) (finished : kind.finish ((context.resync video).pass video) video result = some final) :
    Received kind thread context video result
      ((thread.called (context.resync video) video).store video.serial final)
  | stops (allowed : (context.resync video).needKeyframe = true → video.isKeyframe = true)
      (failed : kind.finish ((context.resync video).pass video) video result = none) :
    Received kind thread context video result
      ((thread.called (context.resync video) video).store video.serial ((context.resync video).pass video)).abort

theorem receive_cases : Received kind thread context video result (thread.receive kind context video result) := by
  unfold VideoThread.receive
  by_cases waits : ((context.resync video).needKeyframe && !video.isKeyframe) = true
  · rw [if_pos waits]
    simp only [Bool.and_eq_true, Bool.not_eq_true'] at waits
    exact .waits waits.1 waits.2
  · rw [if_neg waits]
    by_cases fails : ((context.resync video).needKeyframe && !kind.checkKeyframe video) = true
    · rw [if_pos fails]
      simp only [Bool.and_eq_true] at fails
      exact .fails fails.1
    · rw [if_neg fails]
      have allowed : (context.resync video).needKeyframe = true → video.isKeyframe = true := by
        intro needs
        simpa [needs] using waits
      cases finished : kind.finish ((context.resync video).pass video) video result with
      | none =>
        simp only [finished]
        exact .stops allowed finished
      | some final =>
        simp only [finished]
        exact .passes allowed final finished

/-- What an iteration can do: nothing after a failed CHECK, fail one itself, or go on
with the context of the sensor, which is a new one if there was none. -/
inductive Iterated (kind : VideoKind pixel (Option frames)) (thread : VideoThread pixel)
    (arrival : Message × Option frames) : VideoThread pixel → Prop where
  | ended (aborted : thread.aborted = true) : Iterated kind thread arrival thread
  | fails : Iterated kind thread arrival thread.abort
  | receives (alive : thread.aborted = false) (video : VideoMessage) (unpacked : unpack arrival.1 = some video)
      (items : List Bytes) (context : VideoContext pixel)
      (found : thread.contexts video.serial = some context ∨ context = {}) :
    Iterated kind thread arrival ({ thread with items }.receive kind context video arrival.2)

theorem iterate_cases (kind : VideoKind pixel (Option frames)) (thread : VideoThread pixel)
    (arrival : Message × Option frames) : Iterated kind thread arrival (thread.iterate kind arrival) := by
  unfold VideoThread.iterate
  by_cases aborted : thread.aborted = true
  · rw [if_pos aborted]
    exact .ended aborted
  · rw [if_neg aborted]
    have alive : thread.aborted = false := by simpa using aborted
    cases unpacked : unpack arrival.1 with
    | none => exact .fails
    | some video =>
      simp only
      cases known : thread.contexts video.serial with
      | some context => exact .receives alive video unpacked thread.items context (.inl known)
      | none =>
        by_cases twice : (kind.checkNewItem && thread.items.contains video.serial) = true
        · simp only [twice, if_true]
          exact .fails
        · simp only [twice]
          exact .receives alive video unpacked (thread.items ++ [video.serial]) {} (.inr rfl)

theorem Valid.receive (settles : Settles kind) (valid : Valid thread) (ids : video.sequenceId ≠ invalidSequenceId)
    (tracks : Tracks context) (recent : context.decoder <:+ passedTo thread video.serial) :
    Valid (thread.receive kind context video result) := by
  have resynced : (context.resync video).decoder <:+ passedTo thread video.serial := by
    unfold VideoContext.resync
    split
    · exact List.nil_suffix
    · exact recent
  have stored : Valid (thread.store video.serial (context.resync video)) :=
    valid.put rfl valid.calls (fun _ _ => rfl) (tracks.resync video) resynced
  have others : ∀ other, other ≠ video.serial →
      passedTo (thread.called (context.resync video) video) other = passedTo thread other :=
    fun other elsewhere => called_other thread _ elsewhere
  have calls (allowed : (context.resync video).needKeyframe = true → video.isKeyframe = true) :
      ∀ call ∈ (thread.called (context.resync video) video).calls, Continues call := by
    intro call member
    rcases List.mem_append.mp member with earlier | here
    · exact valid.calls call earlier
    · obtain rfl := List.mem_singleton.mp here
      exact (tracks.pass ids allowed).unbroken
  have longer : ((context.resync video).pass video).decoder <:+
      passedTo (thread.called (context.resync video) video) video.serial := by
    obtain ⟨front, whole⟩ := resynced
    refine ⟨front, ?_⟩
    rw [called_self, ← whole, List.append_assoc]
    rfl
  have step : Received kind thread context video result _ := receive_cases
  generalize thread.receive kind context video result = after at step ⊢
  cases step with
  | waits => exact stored
  | fails => exact stored.abort
  | passes allowed final finished =>
    have passed := tracks.pass ids allowed
    apply valid.put (called_contexts thread _ video) (calls allowed) others (passed.finish settles finished)
    rcases settles _ _ _ _ finished with ⟨packets, _, _⟩ | ⟨before, rfl⟩
    · rw [packets]
      exact longer
    · exact List.nil_suffix
  | stops allowed failed =>
    apply Valid.abort
    exact valid.put (called_contexts thread _ video) (calls allowed) others (tracks.pass ids allowed) longer

/-- The sensor's ids that the sentinel leaves. -/
def Sequenced (arrivals : List (Message × Option frames)) : Prop :=
  ∀ arrival ∈ arrivals, ∀ video, unpack arrival.1 = some video → video.sequenceId.toNat < 2 ^ 64 - 1

theorem Valid.iterate (settles : Settles kind) (valid : Valid thread) {arrival : Message × Option frames}
    (ids : ∀ video, unpack arrival.1 = some video → video.sequenceId.toNat < 2 ^ 64 - 1) :
    Valid (thread.iterate kind arrival) := by
  have step := iterate_cases kind thread arrival
  generalize thread.iterate kind arrival = after at step ⊢
  cases step with
  | ended => exact valid
  | fails => exact valid.abort
  | receives alive video unpacked items context found =>
    have registered : Valid { thread with items } := ⟨valid.calls, valid.tracks, valid.recent⟩
    have sentinel : video.sequenceId ≠ invalidSequenceId := by
      intro same
      have small := ids video unpacked
      rw [same] at small
      exact absurd small (by decide)
    rcases found with known | rfl
    · exact registered.receive settles sentinel (valid.tracks _ _ known) (valid.recent _ _ known)
    · exact registered.receive settles sentinel .fresh List.nil_suffix

theorem Valid.run (settles : Settles kind) {arrivals : List (Message × Option frames)} (ids : Sequenced arrivals)
    (valid : Valid thread) : Valid (arrivals.foldl (VideoThread.iterate kind) thread) := by
  induction arrivals generalizing thread with
  | nil => exact valid
  | cons arrival arrivals ih =>
    have next := valid.iterate settles (ids arrival List.mem_cons_self)
    exact ih (fun later member => ids later (List.mem_cons_of_mem _ member)) next

/-- The sensor is passed nothing before its next keyframe. -/
def Waiting (thread : VideoThread pixel) (serial : Bytes) : Prop :=
  thread.aborted = true ∨ ∀ context, thread.contexts serial = some context → context.needKeyframe = true

theorem needs_resync (video : VideoMessage) (needs : context.needKeyframe = true) : (context.resync video).needKeyframe = true := by
  unfold VideoContext.resync
  split
  · rfl
  · exact needs

theorem store_waits {serial : Bytes} (needs : context.needKeyframe = true) : Waiting (thread.store serial context) serial := by
  apply Or.inr
  intro found held
  obtain rfl : context = found := by simpa using held
  exact needs

/-- A packet that is not a keyframe leaves a waiting sensor as it is. -/
theorem receive_delta (kind : VideoKind pixel (Option frames)) (thread : VideoThread pixel) (result : Option frames)
    (needs : (context.resync video).needKeyframe = true) (delta : video.isKeyframe = false) :
    (thread.receive kind context video result).calls = thread.calls ∧
      Waiting (thread.receive kind context video result) video.serial := by
  have waits : ((context.resync video).needKeyframe && !video.isKeyframe) = true := by simp [needs, delta]
  have step : thread.receive kind context video result = thread.store video.serial (context.resync video) := if_pos waits
  rw [step]
  exact ⟨rfl, store_waits needs⟩

/-- The packets of a sensor do not touch the others. -/
theorem receive_other {serial : Bytes} (other : serial ≠ video.serial) (waits : Waiting thread serial) :
    passedTo (thread.receive kind context video result) serial = passedTo thread serial ∧
      Waiting (thread.receive kind context video result) serial := by
  have step : Received kind thread context video result _ := receive_cases
  generalize thread.receive kind context video result = after at step ⊢
  have elsewhere : ∀ (before : VideoThread pixel) context, before.contexts = thread.contexts → before.aborted = thread.aborted →
      Waiting (before.store video.serial context) serial := by
    intro before context same alive
    rcases waits with aborted | needs
    · exact .inl (alive.trans aborted)
    · apply Or.inr
      intro found held
      apply needs
      rwa [store_other before context other, same] at held
  cases step with
  | waits => exact ⟨rfl, elsewhere _ _ rfl rfl⟩
  | fails => exact ⟨rfl, .inl rfl⟩
  | passes allowed final finished => exact ⟨called_other thread _ other, elsewhere _ _ rfl rfl⟩
  | stops => exact ⟨called_other thread _ other, .inl rfl⟩

/-- The message is no keyframe of the sensor. -/
def NoKeyframe (serial : Bytes) (message : Message) : Prop :=
  ∀ video, unpack message = some video → video.serial = serial → video.isKeyframe = false

/-- A waiting sensor waits on until a keyframe comes for it. -/
theorem iterate_waits (kind : VideoKind pixel (Option frames)) {serial : Bytes} (waits : Waiting thread serial)
    {arrival : Message × Option frames} (none : NoKeyframe serial arrival.1) :
    passedTo (thread.iterate kind arrival) serial = passedTo thread serial ∧
      Waiting (thread.iterate kind arrival) serial := by
  have step := iterate_cases kind thread arrival
  generalize thread.iterate kind arrival = after at step ⊢
  cases step with
  | ended => exact ⟨rfl, waits⟩
  | fails => exact ⟨rfl, .inl rfl⟩
  | receives alive video unpacked items context found =>
    by_cases other : serial = video.serial
    · subst other
      have needs : context.needKeyframe = true := by
        rcases found with known | rfl
        · rcases waits with aborted | needs
          · exact absurd aborted (by simp [alive])
          · exact needs context known
        · rfl
      obtain ⟨calls, still⟩ := receive_delta kind { thread with items } arrival.2
        (needs_resync video needs) (none video unpacked rfl)
      exact ⟨by simp only [passedTo, calls], still⟩
    · have registered : Waiting { thread with items } serial := waits
      exact receive_other other registered

theorem run_waits {serial : Bytes} {arrivals : List (Message × Option frames)} (waits : Waiting thread serial)
    (none : ∀ arrival ∈ arrivals, NoKeyframe serial arrival.1) :
    passedTo (arrivals.foldl (VideoThread.iterate kind) thread) serial = passedTo thread serial := by
  induction arrivals generalizing thread with
  | nil => rfl
  | cons arrival arrivals ih =>
    obtain ⟨same, still⟩ := iterate_waits kind waits (none arrival List.mem_cons_self)
    exact (ih still fun later member => none later (List.mem_cons_of_mem _ member)).trans same

/-- The message does not follow the packet that the sensor's decoder was passed last. -/
def Gap (thread : VideoThread pixel) (video : VideoMessage) : Prop :=
  ∃ context last, thread.contexts video.serial = some context ∧ context.decoder.getLast? = some last ∧
    video.sequenceId.toNat ≠ last.sequenceId.toNat + 1

theorem gap_needs {thread : VideoThread pixel} (valid : Valid thread) (gap : Gap thread video)
    (known : thread.contexts video.serial = some context) : (context.resync video).needKeyframe = true := by
  obtain ⟨found, last, held, latest, apart⟩ := gap
  obtain rfl : context = found := Option.some.inj (known.symm.trans held)
  cases valid.tracks _ _ known with
  | waiting fresh _ _ => exact absurd latest (by simp [fresh])
  | following earlier previous packets remembers before _ _ =>
    obtain rfl : previous = last := by simpa [packets] using latest
    have dropped : context.dropped video = true := by
      simp only [VideoContext.dropped, remembers, Bool.and_eq_true, bne_iff_ne]
      exact ⟨before, fun next => apart (succ_eq before next)⟩
    have new : context.resync video = context.reinit := if_pos dropped
    rw [new]
    rfl

/-- After a gap nothing is passed before a keyframe, and the message itself only if it is one. -/
theorem iterate_gap (kind : VideoKind pixel (Option frames)) (arrival : Message × Option frames) (valid : Valid thread)
    (unpacked : unpack arrival.1 = some video)
    (gap : Gap thread video) (delta : video.isKeyframe = false) :
    passedTo (thread.iterate kind arrival) video.serial = passedTo thread video.serial ∧
      Waiting (thread.iterate kind arrival) video.serial := by
  have step := iterate_cases kind thread arrival
  generalize thread.iterate kind arrival = after at step ⊢
  cases step with
  | ended aborted => exact ⟨rfl, .inl aborted⟩
  | fails => exact ⟨rfl, .inl rfl⟩
  | receives alive found same items context known =>
    obtain rfl : video = found := Option.some.inj (unpacked.symm.trans same)
    have needs : (context.resync video).needKeyframe = true := by
      rcases known with known | rfl
      · exact gap_needs valid gap known
      · exact needs_resync video rfl
    obtain ⟨calls, still⟩ := receive_delta kind { thread with items } arrival.2 needs delta
    exact ⟨by simp only [passedTo, calls], still⟩

/-- After a failed decoding the sensor waits. -/
theorem iterate_failed (thread : VideoThread pixel) {message : Message} (stops : Stops kind) (unpacked : unpack message = some video) :
    Waiting (thread.iterate kind (message, none)) video.serial := by
  have step := iterate_cases kind thread (message, none)
  generalize thread.iterate kind (message, none) = after at step ⊢
  cases step with
  | ended aborted => exact .inl aborted
  | fails => exact .inl rfl
  | receives alive found same items context known =>
    obtain rfl : video = found := Option.some.inj (unpacked.symm.trans same)
    have step : Received kind { thread with items } context video none _ := receive_cases
    generalize VideoThread.receive kind { thread with items } context video none = after at step ⊢
    cases step with
    | waits needs => exact store_waits needs
    | fails => exact .inl rfl
    | passes allowed final finished => exact store_waits (stops _ _ _ finished)
    | stops => exact .inl rfl

end

/-- Every packet passed to a decoder continues what the decoder has, and after a gap or
a failed decoding the sensor is passed nothing up to its next keyframe. -/
structure WellFed (kind : VideoKind pixel (Option frames)) (arrivals : List (Message × Option frames)) : Prop where
  unbroken : ∀ call ∈ (VideoThread.run kind arrivals).calls, Unbroken (call.earlier ++ [call.packet])
  decoders : ∀ serial context, (VideoThread.run kind arrivals).contexts serial = some context →
    Unbroken context.decoder ∧ context.decoder <:+ passedTo (VideoThread.run kind arrivals) serial
  gap : ∀ before message result after video, arrivals = before ++ (message, result) :: after →
    unpack message = some video → Gap (VideoThread.run kind before) video → video.isKeyframe = false →
    (∀ arrival ∈ after, NoKeyframe video.serial arrival.1) →
    passedTo (VideoThread.run kind arrivals) video.serial = passedTo (VideoThread.run kind before) video.serial
  failure : ∀ before message after video, arrivals = before ++ (message, none) :: after →
    unpack message = some video → (∀ arrival ∈ after, NoKeyframe video.serial arrival.1) →
    passedTo (VideoThread.run kind arrivals) video.serial =
      passedTo (VideoThread.run kind (before ++ [(message, none)])) video.serial

theorem well_fed {kind : VideoKind pixel (Option frames)} (settles : Settles kind) (stops : Stops kind)
    {arrivals : List (Message × Option frames)} (ids : Sequenced arrivals) : WellFed kind arrivals := by
  have valid : Valid (VideoThread.run kind arrivals) := Valid.initial.run settles ids
  constructor
  · exact valid.calls
  · intro serial context known
    exact ⟨(valid.tracks serial context known).unbroken, valid.recent serial context known⟩
  · intro before message result after video split unpacked gap delta none
    have earlier : Sequenced before := fun arrival member => ids arrival (by simp [split, member])
    obtain ⟨same, waits⟩ := iterate_gap kind (message, result)
      (Valid.initial.run settles earlier) unpacked gap delta
    rw [split, VideoThread.run, List.foldl_append, List.foldl_cons]
    exact (run_waits waits none).trans same
  · intro before message after video split unpacked none
    have waits := iterate_failed (VideoThread.run kind before) stops unpacked
    rw [split, VideoThread.run, VideoThread.run, List.foldl_append, List.foldl_append, List.foldl_cons]
    exact run_waits waits none

/-- The depth and the colour thread never pass a delta packet to a decoder that lacks
the packet before it. -/
theorem decoders_well_fed (depth : List (Message × DepthOutcome)) (color : List (Message × ColorOutcome))
    (depthIds : Sequenced depth) (colorIds : Sequenced color) : WellFed depthKind depth ∧ WellFed colorKind color :=
  ⟨well_fed depth_settles depth_stops depthIds, well_fed color_settles color_stops colorIds⟩

/-! A sensor that loses a packet after its first keyframe. -/

def sensorMessage (flags : UInt16) (sequenceId : UInt64) : Message where
  topic := ascii "realsense/depth/7/0"
  header := { flags }
  frames := [simpleUInt64 0, simpleUInt64 sequenceId, List.replicate 168 0, 202 :: flags.toUInt8 :: List.replicate 38 0]

theorem unpack_sequenceId {message : Message} {video : VideoMessage} (unpacked : unpack message = some video) :
    message.getSimple UInt64 1 = some video.sequenceId := by
  unfold unpack at unpacked
  split at unpacked
  · exact absurd unpacked (by simp)
  · simp only [Option.bind_eq_bind, Option.bind_eq_some_iff, Option.pure_def, Option.some.injEq] at unpacked
    obtain ⟨_, _, sequenceId, held, _, _, _, _, _, _, rfl⟩ := unpacked
    exact held

theorem sensor_sequenced (result : Option frames) :
    Sequenced [(sensorMessage 1 5, result), (sensorMessage 0 7, result), (sensorMessage 1 8, result)] := by
  intro arrival member video unpacked
  have held := unpack_sequenceId unpacked
  simp only [List.mem_cons, List.not_mem_nil, or_false] at member
  rcases member with rfl | rfl | rfl
  all_goals
    rw [← Option.some.inj held]
    decide

theorem decoders_well_fed_gap :
    WellFed depthKind [(sensorMessage 1 5, some []), (sensorMessage 0 7, some []), (sensorMessage 1 8, some [])] ∧
      WellFed colorKind [(sensorMessage 1 5, some []), (sensorMessage 0 7, some []), (sensorMessage 1 8, some [])] :=
  decoders_well_fed _ _ (sensor_sequenced (some [])) (sensor_sequenced (some []))

end AxbyCore.Realsense.Proofs
