import AxbyCore.Proofs.PubsubLossless
import AxbyCore.Pubsub.Recording

/-! Which messages are handed to the recorder twice. Every published message is recorded
where it is published, so a second time needs it back with the id of another process. -/

namespace AxbyCore.Pubsub.Proofs
open Transitions

variable {processId : UInt64}

def origins (state : Recording) : List Origin := state.recorderBuffer.map Prod.fst

/-- No message has been handed to the recorder twice. -/
def RecordedOnce (state : Recording) : Prop := (origins state).Nodup

instance (state : Recording) : Decidable (RecordedOnce state) := inferInstanceAs (Decidable (List.Nodup _))

/-- Recording is enabled at every turn of the two threads. -/
def RecordingOn (events : List RecordingEvent) : Prop :=
  ∀ event ∈ events, match event with
    | .publish _ env => env.isRecording = true
    | .request _ => True
    | .deliver _ isRecording _ => isRecording = true
    | .remote _ isRecording _ => isRecording = true

/-- A published message that comes back and meets a subscription has the id of this process. -/
def OwnReturns (processId : UInt64) (state : Recording) : RecordingEvent → Prop
  | .deliver passes _ _ => ∀ index part rest message, passes = true → state.network = (index, part) :: rest →
      (messages state.publisher)[index]? = some message → state.subscriber.outputs.any (matching message) = true →
      message.header.senderProcessId = processId
  | _ => True

def OwnReturnsStep (processId : UInt64) (before : Recording) (event : RecordingEvent) (after : Recording) : Prop :=
  RecordingStep processId before event after ∧ OwnReturns processId before event

def OwnReturnsRun (processId : UInt64) (events : List RecordingEvent) (state : Recording) : Prop :=
  Run (OwnReturnsStep processId) {} events state

/-! The network. -/

def tagged (index : Nat) (parts : List Part) : List (Nat × Part) := parts.map fun part => (index, part)

theorem tagged_parts (index : Nat) (parts : List Part) : (tagged index parts).map Prod.snd = parts := by
  simp [tagged, Function.comp_def]

/-- The network has the parts of the published messages from `start` on. -/
inductive Carried (sent : List Message) : Nat → List (Nat × Part) → Prop where
  | nil : Carried sent sent.length []
  | cons {start message network} (padding : UInt8 × UInt8) (found : sent[start]? = some message)
      (rest : Carried sent (start + 1) network) :
    Carried sent start (tagged start (messageParts padding message) ++ network)

theorem Carried.send {sent : List Message} {start : Nat} {network : List (Nat × Part)}
    (carried : Carried sent start network) (message : Message) (padding : UInt8 × UInt8) :
    Carried (sent ++ [message]) start (network ++ tagged sent.length (messageParts padding message)) := by
  induction carried with
  | nil =>
    have last : Carried (sent ++ [message]) (sent.length + 1) [] := by
      have ended : Carried (sent ++ [message]) (sent ++ [message]).length [] := .nil
      simpa using ended
    have found : (sent ++ [message])[sent.length]? = some message := by simp
    simpa using Carried.cons padding found last
  | cons padding found _ ih =>
    rw [List.append_assoc]
    apply Carried.cons padding _ ih
    rw [List.getElem?_append_left (List.getElem?_eq_some_iff.mp found).1]
    exact found

theorem Carried.head {sent : List Message} {start : Nat} {network : List (Nat × Part)}
    (carried : Carried sent start network) (nonempty : network ≠ []) : ∃ part behind, network = (start, part) :: behind := by
  cases carried with
  | nil => exact absurd rfl nonempty
  | cons padding found rest => exact ⟨_, _, rfl⟩

/-- What comes out of the network starts with the topic and the header of the first message in it.
A message without frames takes the next one with it. -/
theorem Carried.next {sent : List Message} {start : Nat} {network : List (Nat × Part)}
    (carried : Carried sent start network) {parts behind : List Part}
    (taken : nextMessage (network.map Prod.snd) = some (parts, behind)) :
    ∃ message padding more later, sent[start]? = some message ∧
      parts = ⟨message.topic, true⟩ :: ⟨headerBytes padding message.header, true⟩ :: more ∧
      Carried sent later (network.drop parts.length) := by
  induction carried generalizing parts behind with
  | nil => cases taken
  | @cons start message network padding found rest ih =>
    rw [List.map_append, tagged_parts] at taken
    cases frames : message.frames with
    | nil =>
      have bare : messageParts padding message = [⟨message.topic, true⟩, ⟨headerBytes padding message.header, true⟩] := by
        simp [messageParts, frames, frameParts]
      rw [bare] at taken ⊢
      obtain ⟨more, same, rfl⟩ : ∃ more, nextMessage (network.map Prod.snd) = some (more, behind) ∧
          ⟨message.topic, true⟩ :: ⟨headerBytes padding message.header, true⟩ :: more = parts := by
        simpa [nextMessage, Option.map_eq_some_iff] using taken
      obtain ⟨_, _, _, later, _, _, left⟩ := ih same
      exact ⟨message, padding, more, later, found, rfl, by simpa [tagged] using left⟩
    | cons frame others =>
      have whole : message.frames ≠ [] := by simp [frames]
      obtain ⟨rfl, rfl⟩ : messageParts padding message = parts ∧ network.map Prod.snd = behind := by
        simpa [nextMessage_messageParts whole] using taken
      have length : (messageParts padding message).length = (tagged start (messageParts padding message)).length := by
        simp [tagged]
      refine ⟨message, padding, frameParts message.frames, start + 1, found, rfl, ?_⟩
      rw [length, List.drop_left]
      exact rest

/-- A received message has the topic and the header of its first two parts. -/
theorem receive_head {message : Message} {padding : UInt8 × UInt8} {topic : Bytes} {header : MessageHeader}
    {more rest : List Part}
    (parsed : receive (⟨topic, true⟩ :: ⟨headerBytes padding header, true⟩ :: more) = some (message, rest)) :
    message.topic = topic ∧ message.header = header := by
  simp only [receive, guard, headerBytes_length, if_true, readHeader_headerBytes, Option.pure_def, Option.bind_eq_bind,
    Option.bind_some, Option.bind_eq_some_iff, Option.some.injEq, Prod.mk.injEq] at parsed
  obtain ⟨-, -, rfl, -⟩ := parsed
  exact ⟨rfl, rfl⟩

/-! One turn of a thread. -/

@[simp] theorem handed_same (origin : Origin) (before : List Message) : handed origin before before = [] := by
  simp [handed]

@[simp] theorem handed_more (origin : Origin) (before more : List Message) :
    handed origin before (before ++ more) = more.map fun message => (origin, message) := by
  simp [handed]

/-- The subscriber hands over a message that it lets through and that has the id of another process. -/
theorem receive_cases {state after : Recording} {isRecording : Bool} {room : Nat → Bool} {origin : Origin}
    {parts : List Part} (moved : state.receive processId isRecording room origin parts = some after) :
    ∃ subscriber entries, after =
        { state with subscriber, delivered := state.delivered + 1, recorderBuffer := state.recorderBuffer ++ entries } ∧
      ((entries = [] ∧ (subscribed state.subscriber parts = false ∨ ∃ message rest, receive parts = some (message, rest) ∧
          (isRecording = false ∨ message.header.senderProcessId = processId))) ∨
        ∃ message rest, entries = [(origin, message)] ∧ subscribed state.subscriber parts = true ∧
          receive parts = some (message, rest) ∧ message.header.senderProcessId ≠ processId) := by
  unfold Recording.receive at moved
  dsimp only at moved
  split at moved
  next passed =>
    obtain ⟨⟨message, rest⟩, parsed, rest_moved⟩ := Option.bind_eq_some_iff.mp moved
    obtain rfl := Option.some.inj rest_moved
    by_cases taken : (isRecording && message.header.senderProcessId != processId) = true
    · refine ⟨_, _, rfl, .inr ⟨message, rest, ?_, passed, parsed, ?_⟩⟩
      · simp [Subscriber.route, taken]
      · simpa using (Bool.and_eq_true_iff.mp taken).2
    · refine ⟨_, _, rfl, .inl ⟨?_, .inr ⟨message, rest, parsed, ?_⟩⟩⟩
      · simp [Subscriber.route, taken]
      · cases isRecording with
        | false => exact .inl rfl
        | true => exact .inr (by simpa using taken)
  next stopped =>
    obtain rfl := Option.some.inj moved
    refine ⟨state.subscriber, [], ?_, .inl ⟨rfl, .inl (by simpa using stopped)⟩⟩
    simp

/-- The publisher hands over what it sends. -/
theorem publish_cases {state after : Recording} {request : PublisherRequest} {env : PublisherEnv}
    (moved : state.publish processId request env = some after) :
    (messages after.publisher = messages state.publisher ∧ after.network = state.network ∧
        after.recorderBuffer = state.recorderBuffer ∧ after.delivered = state.delivered) ∨
      ∃ message, messages after.publisher = messages state.publisher ++ [message] ∧
        after.network = state.network ++ tagged (messages state.publisher).length (messageParts env.padding message) ∧
        after.recorderBuffer = state.recorderBuffer ++
          (if env.isRecording then [(.published (messages state.publisher).length, message)] else []) ∧
        after.delivered = state.delivered := by
  obtain ⟨publisher, iterated, rest_moved⟩ := Option.bind_eq_some_iff.mp moved
  obtain rfl := Option.some.inj rest_moved
  have count : state.publisher.sent.length = (messages state.publisher).length := by simp [messages]
  obtain ⟨bound, ⟨-, rfl⟩ | ⟨-, rfl⟩⟩ := iterate_cases iterated
  · left
    simp [messages]
  · right
    refine ⟨makeMessage processId state.publisher.sequenceId env request, messages_send, ?_, ?_, rfl⟩
    · simp [Publisher.send, tagged, count]
    · dsimp only
      rw [count]
      cases on : env.isRecording <;> simp [Publisher.send, on]

/-- What comes back is the first published message that is still on its way. -/
theorem deliver_cases {state after : Recording} {start : Nat} {passes isRecording : Bool} {room : Nat → Bool}
    (carried : Carried (messages state.publisher) start state.network)
    (moved : state.deliver processId passes isRecording room = some after) :
    ∃ message part behind network later subscriber entries, (messages state.publisher)[start]? = some message ∧
      state.network = (start, part) :: behind ∧ Carried (messages state.publisher) later network ∧
      after = { state with
        network, subscriber, delivered := state.delivered + 1, recorderBuffer := state.recorderBuffer ++ entries } ∧
      ((entries = [] ∧ (passes = false ∨ state.subscriber.outputs.any (matching message) = false ∨
          isRecording = false ∨ message.header.senderProcessId = processId)) ∨
        ∃ received, entries = [(.published start, received)] ∧ passes = true ∧
          state.subscriber.outputs.any (matching message) = true ∧ message.header.senderProcessId ≠ processId) := by
  have nonempty : state.network ≠ [] := by
    intro empty
    simp [Recording.deliver, empty] at moved
  obtain ⟨part, behind, head⟩ := carried.head nonempty
  obtain ⟨⟨parts, left⟩, taken, rest_moved⟩ : ∃ pair, nextMessage (state.network.map Prod.snd) = some pair ∧
      (let state := { state with network := state.network.drop pair.1.length }
       if passes then state.receive processId isRecording room (.published start) pair.1
       else some { state with delivered := state.delivered + 1 }) = some after := by
    unfold Recording.deliver at moved
    split at moved
    next empty => exact absurd empty nonempty
    next index first rest same =>
      obtain ⟨rfl, -⟩ : index = start ∧ True := by
        rw [head] at same
        simp only [List.cons.injEq, Prod.mk.injEq] at same
        exact ⟨same.1.1.symm, trivial⟩
      exact Option.bind_eq_some_iff.mp moved
  obtain ⟨message, padding, more, later, found, rfl, kept⟩ := carried.next taken
  dsimp only at rest_moved
  split at rest_moved
  next passed =>
    obtain ⟨subscriber, entries, rfl, outcome⟩ := receive_cases rest_moved
    refine ⟨message, part, behind, _, later, subscriber, entries, found, head, kept, rfl, ?_⟩
    rcases outcome with ⟨none, stopped | ⟨received, rest, parsed, off | own⟩⟩ | ⟨received, rest, one, through, parsed, foreign⟩
    · exact .inl ⟨none, .inr (.inl stopped)⟩
    · exact .inl ⟨none, .inr (.inr (.inl off))⟩
    · rw [(receive_head parsed).2] at own
      exact .inl ⟨none, .inr (.inr (.inr own))⟩
    · rw [(receive_head parsed).2] at foreign
      exact .inr ⟨received, one, passed, through, foreign⟩
  next stopped =>
    obtain rfl := Option.some.inj rest_moved
    refine ⟨message, part, behind, _, later, state.subscriber, [], found, head, kept, ?_, .inl ⟨rfl, .inl (by simpa using stopped)⟩⟩
    simp

/-! The recorder. -/

/-- The message has been published or received. -/
def Known (state : Recording) : Origin → Prop
  | .published index => index < (messages state.publisher).length
  | .remote turn => turn < state.delivered

structure RecordingInvariant (state : Recording) : Prop where
  carried : ∃ start, Carried (messages state.publisher) start state.network
  published : ∀ index, index < (messages state.publisher).length → .published index ∈ origins state
  known : ∀ origin ∈ origins state, Known state origin

theorem RecordingInvariant.initial : RecordingInvariant {} := by
  refine ⟨⟨0, .nil⟩, ?_, ?_⟩
  · intro index inside
    cases inside
  · intro origin member
    cases member

theorem Known.mono {before after : Recording} {origin : Origin} (known : Known before origin)
    (sent : (messages before.publisher).length ≤ (messages after.publisher).length)
    (delivered : before.delivered ≤ after.delivered) : Known after origin := by
  cases origin with
  | published index => exact Nat.lt_of_lt_of_le known sent
  | remote turn => exact Nat.lt_of_lt_of_le known delivered

theorem RecordedOnce.snoc {before after : Recording} {origin : Origin} {message : Message}
    (grown : after.recorderBuffer = before.recorderBuffer ++ [(origin, message)]) :
    RecordedOnce after ↔ RecordedOnce before ∧ origin ∉ origins before := by
  have same : origins after = origins before ++ [origin] := by simp [origins, grown]
  unfold RecordedOnce
  rw [same, List.nodup_append]
  constructor
  · rintro ⟨once, -, apart⟩
    exact ⟨once, fun member => apart origin member origin (List.mem_singleton_self origin) rfl⟩
  · rintro ⟨once, fresh⟩
    refine ⟨once, List.pairwise_singleton _ origin, ?_⟩
    rintro other member last held rfl
    exact fresh (List.mem_singleton.mp held ▸ member)

theorem RecordedOnce.same {before after : Recording} (same : after.recorderBuffer = before.recorderBuffer) :
    RecordedOnce after ↔ RecordedOnce before := by
  unfold RecordedOnce origins
  rw [same]

/-- A step that records what it publishes, and nothing that it does not know. -/
theorem RecordingInvariant.grow {before after : Recording} {entries : List (Origin × Message)}
    (invariant : RecordingInvariant before) (grown : after.recorderBuffer = before.recorderBuffer ++ entries)
    (carried : ∃ start, Carried (messages after.publisher) start after.network)
    (sent : (messages before.publisher).length ≤ (messages after.publisher).length)
    (delivered : before.delivered ≤ after.delivered)
    (published : ∀ index, (messages before.publisher).length ≤ index → index < (messages after.publisher).length →
      .published index ∈ entries.map Prod.fst)
    (known : ∀ origin ∈ entries.map Prod.fst, Known after origin) : RecordingInvariant after := by
  have split : origins after = origins before ++ entries.map Prod.fst := by simp [origins, grown]
  refine ⟨carried, ?_, ?_⟩
  · intro index inside
    rw [split, List.mem_append]
    by_cases older : index < (messages before.publisher).length
    · exact .inl (invariant.published index older)
    · exact .inr (published index (by omega) inside)
  · intro origin member
    rw [split, List.mem_append] at member
    rcases member with older | newer
    · exact (invariant.known origin older).mono sent delivered
    · exact known origin newer

theorem RecordingInvariant.publish {before after : Recording} {request : PublisherRequest} {env : PublisherEnv}
    (moved : before.publish processId request env = some after) (on : env.isRecording = true)
    (invariant : RecordingInvariant before) :
    RecordingInvariant after ∧ (RecordedOnce after ↔ RecordedOnce before) := by
  obtain ⟨start, carried⟩ := invariant.carried
  rcases publish_cases moved with ⟨sent, network, buffer, delivered⟩ | ⟨message, sent, network, buffer, delivered⟩
  · refine ⟨?_, RecordedOnce.same buffer⟩
    refine invariant.grow (buffer.trans (List.append_nil _).symm) ⟨start, ?_⟩ (Nat.le_of_eq (by rw [sent]))
      (Nat.le_of_eq delivered.symm) ?_ ?_
    · rw [sent, network]
      exact carried
    · intro index older inside
      rw [sent] at inside
      omega
    · intro origin member
      cases member
  · rw [if_pos on] at buffer
    have fresh : .published (messages before.publisher).length ∉ origins before :=
      fun member => Nat.lt_irrefl _ (invariant.known _ member)
    refine ⟨?_, (RecordedOnce.snoc buffer).trans (and_iff_left fresh)⟩
    refine invariant.grow buffer ⟨start, ?_⟩ (by simp [sent]) (Nat.le_of_eq delivered.symm) ?_ ?_
    · rw [sent, network]
      exact carried.send message env.padding
    · intro index older inside
      simp only [sent, List.length_append, List.length_singleton] at inside
      simp only [List.map_singleton, List.mem_singleton, Origin.published.injEq]
      omega
    · intro origin member
      obtain rfl := List.mem_singleton.mp member
      simp [Known, sent]

theorem RecordingInvariant.remote {before after : Recording} {isRecording : Bool} {room : Nat → Bool} {parts : List Part}
    (moved : before.receive processId isRecording room (.remote before.delivered) parts = some after)
    (invariant : RecordingInvariant before) :
    RecordingInvariant after ∧ (RecordedOnce after ↔ RecordedOnce before) := by
  obtain ⟨subscriber, entries, rfl, outcome⟩ := receive_cases moved
  have known : ∀ origin ∈ entries.map Prod.fst, origin = .remote before.delivered := by
    rcases outcome with ⟨rfl, -⟩ | ⟨message, rest, rfl, -⟩ <;> simp
  refine ⟨?_, ?_⟩
  · refine invariant.grow rfl invariant.carried (Nat.le_refl _) (Nat.le_succ _) ?_ ?_
    · intro index older inside
      dsimp only at inside
      omega
    · intro origin member
      obtain rfl := known origin member
      exact Nat.lt_succ_self before.delivered
  · rcases outcome with ⟨rfl, -⟩ | ⟨message, rest, rfl, -⟩
    · exact RecordedOnce.same (List.append_nil _)
    · have fresh : .remote before.delivered ∉ origins before :=
        fun member => Nat.lt_irrefl _ (invariant.known _ member)
      exact (RecordedOnce.snoc rfl).trans (and_iff_left fresh)

/-- A message that comes back is in the recorder, so handing it over is once too often. -/
theorem RecordingInvariant.deliver {before after : Recording} {passes isRecording : Bool} {room : Nat → Bool}
    (moved : before.deliver processId passes isRecording room = some after) (on : isRecording = true)
    (invariant : RecordingInvariant before) :
    RecordingInvariant after ∧
      (RecordedOnce after ↔ RecordedOnce before ∧ OwnReturns processId before (.deliver passes isRecording room)) := by
  obtain ⟨start, carried⟩ := invariant.carried
  obtain ⟨message, part, behind, network, later, subscriber, entries, found, head, kept, rfl, outcome⟩ :=
    deliver_cases carried moved
  have inside : start < (messages before.publisher).length := (List.getElem?_eq_some_iff.mp found).1
  have recorded := invariant.published start inside
  have origin_start : ∀ origin ∈ entries.map Prod.fst, origin = .published start := by
    rcases outcome with ⟨rfl, -⟩ | ⟨received, rfl, -⟩ <;> simp
  refine ⟨?_, ?_⟩
  · refine invariant.grow rfl ⟨later, kept⟩ (Nat.le_refl _) (Nat.le_succ _) ?_ ?_
    · intro index older inside
      dsimp only at inside
      omega
    · intro origin member
      obtain rfl := origin_start origin member
      exact inside
  · rcases outcome with ⟨rfl, reason⟩ | ⟨received, rfl, passed, through, foreign⟩
    · have own : OwnReturns processId before (.deliver passes isRecording room) := by
        intro index part' rest message' passed network' found' through
        obtain ⟨rfl, -⟩ : start = index ∧ True := by
          rw [head] at network'
          simp only [List.cons.injEq, Prod.mk.injEq] at network'
          exact ⟨network'.1.1, trivial⟩
        obtain rfl : message = message' := Option.some.inj (found.symm.trans found')
        rcases reason with stopped | unmatched | off | own
        · simp [stopped] at passed
        · simp [unmatched] at through
        · simp [off] at on
        · exact own
      exact (RecordedOnce.same (List.append_nil _)).trans (and_iff_left own).symm
    · constructor
      · intro once
        exact absurd recorded ((RecordedOnce.snoc rfl).mp once).2
      · rintro ⟨-, own⟩
        exact absurd (own start part behind message passed head found through) foreign

/-- What a step does to the recorder, as long as recording is enabled: the invariant is kept,
and a message is recorded a second time exactly when what comes back has a foreign id. -/
theorem RecordingInvariant.step {before after : Recording} {event : RecordingEvent}
    (moved : RecordingStep processId before event after) (on : RecordingOn [event])
    (invariant : RecordingInvariant before) :
    RecordingInvariant after ∧ (RecordedOnce after ↔ RecordedOnce before ∧ OwnReturns processId before event) := by
  have enabled := on event (List.mem_singleton_self event)
  cases event with
  | publish request env =>
    obtain ⟨kept, once⟩ := invariant.publish moved enabled
    exact ⟨kept, once.trans (and_iff_left trivial).symm⟩
  | request request =>
    obtain rfl := Option.some.inj moved
    exact ⟨⟨invariant.carried, invariant.published, invariant.known⟩, (and_iff_left trivial).symm⟩
  | deliver passes isRecording room => exact invariant.deliver moved enabled
  | remote parts isRecording room =>
    obtain ⟨kept, once⟩ := invariant.remote moved
    exact ⟨kept, once.trans (and_iff_left trivial).symm⟩

theorem RecordingOn.split {earlier : List RecordingEvent} {event : RecordingEvent} (on : RecordingOn (earlier ++ [event])) :
    RecordingOn earlier ∧ RecordingOn [event] :=
  ⟨fun other member => on other (by simp [member]), fun other member => on other (List.mem_append_right _ member)⟩

/-- While recording is enabled, every published or received message is handed to the recorder
at most once exactly in the runs whose returns all have the id of this process. -/
theorem recorded_once {events : List RecordingEvent} {state : Recording} (run : RecordingRun processId events state)
    (on : RecordingOn events) : RecordedOnce state ↔ OwnReturnsRun processId events state := by
  constructor
  · have whole := run.history
      (fun events state => RecordingOn events → RecordingInvariant state ∧ (RecordedOnce state → OwnReturnsRun processId events state))
      (fun earlier before event after moved holds on => by
        obtain ⟨invariant, own⟩ := holds on.split.1
        obtain ⟨kept, once⟩ := invariant.step moved on.split.2
        exact ⟨kept, fun still => .snoc (own (once.mp still).1) ⟨moved, (once.mp still).2⟩⟩)
      (fun _ => ⟨RecordingInvariant.initial, fun _ => .refl _⟩)
    exact (whole on).2
  · intro own
    have whole := Run.history own
      (fun events state => RecordingOn events → RecordingInvariant state ∧ RecordedOnce state)
      (fun earlier before event after moved holds on => by
        obtain ⟨invariant, once⟩ := holds on.split.1
        obtain ⟨kept, still⟩ := invariant.step moved.1 on.split.2
        exact ⟨kept, still.mpr ⟨once, moved.2⟩⟩)
      (fun _ => ⟨RecordingInvariant.initial, List.nodup_nil⟩)
    exact (whole on).2

private def foreign : MessageHeader := { senderProcessId := 8 }

private def ownEvents : List RecordingEvent :=
  [.request (subscribe [1] 5), .publish (publishFrames [1, 2] 0 [[3]] 0) ⟨10, (0, 0), true⟩,
    .publish (publishFramesWithManualHeader [4] foreign [[3]]) ⟨20, (0, 0), true⟩,
    .deliver true true fun _ => true, .deliver true true fun _ => true,
    .remote (messageParts (0, 0) ⟨[1], foreign, [[5]]⟩) true fun _ => true]

theorem recorded_once_own : ∃ state, RecordingRun 7 ownEvents state ∧ state.recorderBuffer.length = 3 ∧
    OwnReturnsRun 7 ownEvents state := by
  have executed : ∃ state, execute (Recording.next 7) {} ownEvents = some state ∧
      state.recorderBuffer.length = 3 ∧ RecordedOnce state := ⟨_, rfl, by decide, by decide⟩
  obtain ⟨state, reached, three, once⟩ := executed
  have on : RecordingOn ownEvents := by
    intro event member
    simp only [ownEvents, List.mem_cons, List.not_mem_nil, or_false] at member
    rcases member with rfl | rfl | rfl | rfl | rfl | rfl <;> trivial
  have run : RecordingRun 7 ownEvents state := Run.of_execute reached
  exact ⟨state, run, three, (recorded_once run on).mp once⟩

/-- A message with the header of another process is recorded where it is published, and again when
the subscription of this process brings it back. -/
theorem recorded_twice : ¬ ∀ processId events state, RecordingRun processId events state → RecordingOn events →
    RecordedOnce state := by
  intro claim
  let events : List RecordingEvent :=
    [.request (subscribe [1] 5), .publish (publishFramesWithManualHeader [1] foreign [[3]]) ⟨20, (0, 0), true⟩,
      .deliver true true fun _ => true]
  have executed : ∃ state, execute (Recording.next 7) {} events = some state ∧ ¬ RecordedOnce state :=
    ⟨_, rfl, by decide⟩
  obtain ⟨state, reached, twice⟩ := executed
  have on : RecordingOn events := by
    intro event member
    simp only [events, List.mem_cons, List.not_mem_nil, or_false] at member
    rcases member with rfl | rfl | rfl <;> trivial
  exact twice (claim 7 events state (Run.of_execute reached) on)

end AxbyCore.Pubsub.Proofs
