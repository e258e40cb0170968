import AxbyCore.Proofs.TimeSyncSoundness
import AxbyCore.TimeSync.Protocol
import Mathlib.Data.Rat.Floor

/-! Safety of the time synchronisation under every interleaving and every loss,
repetition and reordering of datagrams. Whatever reaches the window is a round trip
that has happened, so no CHECK fails, whatever has become of the drift correction. -/

namespace AxbyCore.Proofs.TimeSyncProtocol
open AxbyCore.TimeSync AxbyCore.TimeSync.Proofs MachineInt Transitions

/-! The loop over the window, whatever the drift correction. -/

/-- What the receive thread and the clocks make of a triple. -/
structure Ordered (now : Nat) (times : TimingTriplet) : Prop where
  ordered : times.send ≤ times.recv
  past : times.recv ≤ now
  clock : now < 2 ^ 62
  serv : times.serv < 2 ^ 62

/-- A quotient by 1e6 of a uint64_t, however it is rounded. -/
def QuotientSmall (quotient : Nat → Nat) : Prop := ∀ product, product < 2 ^ 64 → quotient product < 2 ^ 45

/-- Bounds from which the width and the sum of the estimate fit an int64_t. -/
structure Bracketed (bounds : Bounds) : Prop where
  width : bounds.offsetUsUb - bounds.offsetUsLb < 2 ^ 63
  low : -2 ^ 62 < bounds.offsetUsUb
  high : bounds.offsetUsLb < 2 ^ 62
  below : -2 ^ 63 ≤ bounds.offsetUsUb + bounds.offsetUsLb
  above : bounds.offsetUsUb + bounds.offsetUsLb < 2 ^ 63

/-- An intersection with one more interval keeps the bounds bracketed. -/
theorem Bracketed.narrow {bounds other : Bounds} (bracketed : Bracketed bounds) (more : Bracketed other) (observed : Nat) :
    Bracketed ⟨max bounds.offsetUsLb other.offsetUsLb, min bounds.offsetUsUb other.offsetUsUb, observed⟩ := by
  obtain ⟨_, _, _, _, _⟩ := bracketed
  obtain ⟨_, _, _, _, _⟩ := more
  constructor <;> dsimp only <;> omega

/-- One round trip alone. -/
theorem bracketed_single {now estimated : Nat} {times : TimingTriplet} (ordered : Ordered now times)
    (small : estimated < 2 ^ 45) (observed : Nat) :
    Bracketed ⟨(times.serv : Int) - times.recv - estimated, (times.serv : Int) - times.send + estimated, observed⟩ := by
  obtain ⟨_, _, _, _⟩ := ordered
  constructor <;> dsimp only <;> omega

theorem toUint64_small (value : Int) : toUint64 value < 2 ^ 64 := by
  unfold toUint64
  omega

theorem estimated_small {quotient : Nat → Nat} (small : QuotientSmall quotient) (drift now : Nat) (times : TimingTriplet) :
    estimatedClockDriftUs quotient drift now times < 2 ^ 45 :=
  small _ (toUint64_small _)

/-- The body of the loop on a round trip that has happened. -/
theorem mergeSample_ordered {quotient : Nat → Nat} (small : QuotientSmall quotient) {now : Nat}
    {sample : SlidingWindowSample} (ordered : Ordered now sample.timingTriplet) (drift : Nat) (bounds : Bounds) :
    ∃ estimated observed : Nat, estimated < 2 ^ 45 ∧ observed < 2 ^ 64 ∧
      mergeSample quotient drift now bounds sample = some
        ⟨max bounds.offsetUsLb ((sample.timingTriplet.serv : Int) - sample.timingTriplet.recv - estimated),
          min bounds.offsetUsUb ((sample.timingTriplet.serv : Int) - sample.timingTriplet.send + estimated),
          min bounds.observedRoundTripTimeUs observed⟩ := by
  obtain ⟨timeMs, times⟩ := sample
  have estimated := estimated_small small drift now times
  obtain ⟨ordered, past, clock, serv⟩ := ordered
  dsimp only at *
  have thisUb : toInt64 (toUint64 ((times.serv : Int) - times.send)) = times.serv - times.send :=
    toInt64_toUint64 (by unfold FitsInt64; omega)
  have thisLb := safeMinus_eq serv (Nat.lt_of_le_of_lt past clock)
  have bracket : (times.serv : Int) - times.recv ≤ times.serv - times.send := by omega
  have roundTrip : signed ((times.serv : Int) - times.send - (times.serv - times.recv)) =
      some ((times.serv : Int) - times.send - (times.serv - times.recv)) :=
    signed_of_fits (by unfold FitsInt64; omega)
  refine ⟨_, toUint64 ((times.serv : Int) - times.send - (times.serv - times.recv)), estimated, toUint64_small _, ?_⟩
  have low : toInt64 (toUint64 ((times.serv : Int) - times.recv - estimatedClockDriftUs quotient drift now times)) =
      times.serv - times.recv - estimatedClockDriftUs quotient drift now times :=
    toInt64_toUint64 (by unfold FitsInt64; omega)
  have high : toInt64 (toUint64 ((times.serv : Int) - times.send + estimatedClockDriftUs quotient drift now times)) =
      times.serv - times.send + estimatedClockDriftUs quotient drift now times :=
    toInt64_toUint64 (by unfold FitsInt64; omega)
  simp only [mergeSample, guard, ordered, past, thisUb, thisLb, bracket, if_true, Option.bind_eq_bind, Option.pure_def,
    Option.bind_some, roundTrip, low, high]

theorem mergeSamples_snoc {quotient : Nat → Nat} {drift now : Nat} {samples : List SlidingWindowSample} {bounds : Bounds}
    (found : mergeSamples quotient drift now samples = some bounds) (last : SlidingWindowSample) :
    mergeSamples quotient drift now (samples ++ [last]) = mergeSample quotient drift now bounds last := by
  unfold mergeSamples at found ⊢
  rw [List.foldlM_append, found]
  simp

/-- The bounds before the first sample or after some. -/
structure Started (bounds : Bounds) : Prop where
  observed : bounds.observedRoundTripTimeUs < 2 ^ 64
  bracketed : bounds = Bounds.initial ∨ Bracketed bounds

theorem mergeSamples_started {quotient : Nat → Nat} (small : QuotientSmall quotient) (drift : Nat) {now : Nat}
    {samples : List SlidingWindowSample} (ordered : ∀ sample ∈ samples, Ordered now sample.timingTriplet) :
    ∃ bounds, mergeSamples quotient drift now samples = some bounds ∧ Started bounds := by
  induction samples using List.reverseRecOn with
  | nil => exact ⟨Bounds.initial, rfl, by decide, Or.inl rfl⟩
  | append_singleton samples last ih =>
    obtain ⟨bounds, found, started⟩ := ih fun sample member => ordered sample (by simp [member])
    have lastOrdered := ordered last (by simp)
    obtain ⟨estimated, observed, few, bounded, step⟩ := mergeSample_ordered small lastOrdered drift bounds
    have single := bracketed_single lastOrdered few observed
    refine ⟨_, (mergeSamples_snoc found last).trans step, Nat.lt_of_le_of_lt (Nat.min_le_right _ _) bounded, Or.inr ?_⟩
    · cases started.bracketed with
      | inl initial =>
        obtain ⟨_, _, _, _, _⟩ := single
        subst initial
        constructor <;> simp only [Bounds.initial] at * <;> omega
      | inr bracketed => exact bracketed.narrow single _

/-- With round trips that have happened the whole call gives a result. -/
theorem process_total {quotient : Nat → Nat} (small : QuotientSmall quotient) (ctx : IngestContext) (reading : Reading)
    (ordered : ∀ sample ∈ (nextWindow ctx.window reading).samples, Ordered reading.currentTimeUs sample.timingTriplet) :
    ∃ after message, processIngestBuffer quotient ctx reading = some (after, message) := by
  obtain ⟨bounds, found, started⟩ := mergeSamples_started small ctx.clockDriftUsPerSec ordered
  obtain ⟨after, message, adapted, _⟩ := adapt_fits { ctx with window := nextWindow ctx.window reading } started.observed (by
    intro set
    cases started.bracketed with
    | inl initial => exact absurd (Or.inl (by rw [initial]; rfl)) set
    | inr bracketed =>
      obtain ⟨width, low, high, below, above⟩ := bracketed
      exact ⟨⟨by omega, width⟩, ⟨below, above⟩⟩)
  refine ⟨after, message, ?_⟩
  unfold processIngestBuffer
  simp only [found, Option.bind_eq_bind, Option.bind_some]
  exact adapted

/-! What has happened, by the time it has got to each of the parties. -/

section
variable {K : Type} [Field K] [LinearOrder K] [FloorRing K] {offset : K → K}

/-- The client read its clock and sent what it read. -/
def Asked (now : K) (startTimeUs : Nat) : Prop := ∃ sent, 0 ≤ sent ∧ sent ≤ now ∧ startTimeUs = processTimeUs sent

/-- After that the server read its own clock. -/
def Answered (offset : K → K) (now : K) (response : Response) : Prop :=
  ∃ sent served, 0 ≤ sent ∧ sent ≤ served ∧ served ≤ now ∧ 0 ≤ served + offset served ∧ response.startTimeUs = processTimeUs sent ∧
    response.serverTimeUs = processTimeUs (served + offset served)

/-- And after that the client read its clock again. -/
def RoundTrip (offset : K → K) (now : K) (times : TimingTriplet) : Prop :=
  ∃ sent served received, 0 ≤ sent ∧ sent ≤ served ∧ served ≤ received ∧ received ≤ now ∧ 0 ≤ served + offset served ∧
    times.send = processTimeUs sent ∧ times.serv = processTimeUs (served + offset served) ∧
    times.recv = processTimeUs received

theorem Asked.later {now later : K} {startTimeUs : Nat} (asked : Asked now startTimeUs) (passed : now ≤ later) :
    Asked later startTimeUs := by
  obtain ⟨sent, start, before, same⟩ := asked
  exact ⟨sent, start, le_trans before passed, same⟩

theorem Answered.later {now later : K} {response : Response} (answered : Answered offset now response)
    (passed : now ≤ later) : Answered offset later response := by
  obtain ⟨sent, served, start, first, before, same⟩ := answered
  exact ⟨sent, served, start, first, le_trans before passed, same⟩

theorem RoundTrip.later {now later : K} {times : TimingTriplet} (trip : RoundTrip offset now times)
    (passed : now ≤ later) : RoundTrip offset later times := by
  obtain ⟨sent, served, received, start, first, second, before, same⟩ := trip
  exact ⟨sent, served, received, start, first, second, le_trans before passed, same⟩

def ReceiveGenuine (offset : K → K) (now : K) : ReceivePoint → Prop
  | .recv => True
  | .stamp response => Answered offset now response
  | .write times => RoundTrip offset now times

theorem ReceiveGenuine.later {now later : K} {point : ReceivePoint} (genuine : ReceiveGenuine offset now point)
    (passed : now ≤ later) : ReceiveGenuine offset later point := by
  cases point with
  | recv => trivial
  | stamp response => exact Answered.later genuine passed
  | write times => exact RoundTrip.later genuine passed

/-- The triples that the publish thread has read from the ingest buffer in this call. -/
def taken : PublishPoint → List TimingTriplet
  | .asleep => []
  | .draining _ ingest => ingest
  | .drained _ ingest => ingest

/-- A published state is what the code computed from round trips. -/
structure PublicationGenuine (offset : K → K) (quotient : Nat → Nat) (now : K) (publication : Publication K) : Prop where
  start : 0 ≤ publication.instant
  past : publication.instant ≤ now
  trips : ∀ sample ∈ publication.samples, RoundTrip offset publication.instant sample.timingTriplet
  computed : ∃ ctx after reading, processIngestBuffer quotient ctx reading = some (after, some publication.state) ∧
    (nextWindow ctx.window reading).samples = publication.samples ∧
    ctx.clockDriftUsPerSec = publication.clockDriftUsPerSec ∧ reading.currentTimeUs = processTimeUs publication.instant

theorem PublicationGenuine.later {quotient : Nat → Nat} {now later : K} {publication : Publication K}
    (genuine : PublicationGenuine offset quotient now publication) (passed : now ≤ later) :
    PublicationGenuine offset quotient later publication :=
  ⟨genuine.start, le_trans genuine.past passed, genuine.trips, genuine.computed⟩

structure Genuine (offset : K → K) (quotient : Nat → Nat) (protocol : Protocol K) : Prop where
  start : 0 ≤ protocol.now
  sending : ∀ startTimeUs, protocol.sending = some startTimeUs → Asked protocol.now startTimeUs
  requests : ∀ startTimeUs ∈ protocol.requests, Asked protocol.now startTimeUs
  serving : ∀ startTimeUs, protocol.serving = some startTimeUs → Asked protocol.now startTimeUs
  responses : ∀ response ∈ protocol.responses, Answered offset protocol.now response
  receive : ReceiveGenuine offset protocol.now protocol.receive
  ingest : ∀ times ∈ protocol.ingest, RoundTrip offset protocol.now times
  taken : ∀ times ∈ taken protocol.publish, RoundTrip offset protocol.now times
  window : ∀ sample ∈ protocol.thread.ctx.window.samples, RoundTrip offset protocol.now sample.timingTriplet
  publications : ∀ publication ∈ protocol.publications, PublicationGenuine offset quotient protocol.now publication

/-! Each step keeps it. -/

theorem Genuine.initial [IsStrictOrderedRing K] {quotient : Nat → Nat} (durationMs : Nat) :
    Genuine offset quotient (.initial durationMs : Protocol K) := by
  constructor <;> simp [Protocol.initial, PublishThread.initial, TimeSyncProtocol.taken, ReceiveGenuine]

theorem adapt_window {ctx after : IngestContext} {bounds : Bounds} {message : Option TimeSyncState}
    (adapted : adapt ctx bounds = some (after, message)) : after.window = ctx.window := by
  unfold adapt at adapted
  split at adapted
  next =>
    obtain ⟨rfl, _⟩ := Prod.mk.inj (Option.some.inj adapted)
    rfl
  next =>
    obtain ⟨width, _, adapted⟩ := Option.bind_eq_some_iff.mp adapted
    split at adapted
    next =>
      obtain ⟨rfl, _⟩ := Prod.mk.inj (Option.some.inj adapted)
      rfl
    next =>
      obtain ⟨sum, _, adapted⟩ := Option.bind_eq_some_iff.mp adapted
      obtain ⟨rfl, _⟩ := Prod.mk.inj (Option.some.inj adapted)
      split <;> rfl

theorem process_window {quotient : Nat → Nat} {ctx after : IngestContext} {reading : Reading}
    {message : Option TimeSyncState} (processed : processIngestBuffer quotient ctx reading = some (after, message)) :
    after.window = nextWindow ctx.window reading := by
  obtain ⟨bounds, _, adapted⟩ := Option.bind_eq_some_iff.mp processed
  exact adapt_window adapted

theorem added_samples (ingest : List TimingTriplet) (window : TemporalSlidingWindow) (currentTimeMs : Nat) :
    (ingest.foldl (fun window times => window.add times currentTimeMs) window).samples =
      window.samples ++ ingest.map fun times => ⟨currentTimeMs, times⟩ := by
  induction ingest generalizing window with
  | nil => simp
  | cons times ingest ih =>
    rw [List.foldl_cons, ih]
    simp [TemporalSlidingWindow.add]

theorem mem_nextWindow {window : TemporalSlidingWindow} {reading : Reading} {sample : SlidingWindowSample}
    (member : sample ∈ (nextWindow window reading).samples) :
    sample ∈ window.samples ∨ sample.timingTriplet ∈ reading.ingest := by
  have kept := (List.mem_filter.mp member).1
  rw [added_samples] at kept
  cases List.mem_append.mp kept with
  | inl older => exact Or.inl older
  | inr newer =>
    obtain ⟨times, inside, rfl⟩ := List.mem_map.mp newer
    exact Or.inr inside

section
variable {quotient : Nat → Nat} {protocol : Protocol K}

theorem Genuine.advance (genuine : Genuine offset quotient protocol) {later : K} (passed : protocol.now ≤ later) :
    Genuine offset quotient { protocol with now := later } where
  start := le_trans genuine.start passed
  sending := fun startTimeUs same => (genuine.sending startTimeUs same).later passed
  requests := fun startTimeUs member => (genuine.requests startTimeUs member).later passed
  serving := fun startTimeUs same => (genuine.serving startTimeUs same).later passed
  responses := fun response member => (genuine.responses response member).later passed
  receive := genuine.receive.later passed
  ingest := fun times member => (genuine.ingest times member).later passed
  taken := fun times member => (genuine.taken times member).later passed
  window := fun sample member => (genuine.window sample member).later passed
  publications := fun publication member => (genuine.publications publication member).later passed

/-- The samples of a call are old ones and those of the ingest buffer. -/
theorem Genuine.next_samples (genuine : Genuine offset quotient protocol) {reading : Reading}
    (read : reading.ingest = TimeSyncProtocol.taken protocol.publish) {sample : SlidingWindowSample}
    (member : sample ∈ (nextWindow protocol.thread.ctx.window reading).samples) :
    RoundTrip offset protocol.now sample.timingTriplet := by
  cases mem_nextWindow member with
  | inl older => exact genuine.window sample older
  | inr newer => exact genuine.taken _ (read ▸ newer)

theorem Genuine.compute (genuine : Genuine offset quotient protocol) {reading : Reading}
    (read : reading.ingest = TimeSyncProtocol.taken protocol.publish)
    (clock : reading.currentTimeUs = processTimeUs protocol.now) :
    Genuine offset quotient (protocol.compute quotient reading) := by
  unfold Protocol.compute
  split
  next => exact { genuine with }
  next ctx message processed =>
    refine { genuine with taken := ?_, window := ?_, publications := ?_ }
    · intro times member
      cases member
    · intro sample member
      dsimp only at member
      rw [process_window processed] at member
      exact genuine.next_samples read member
    · intro publication member
      cases List.mem_append.mp member with
      | inl older => exact genuine.publications publication older
      | inr newer =>
        obtain ⟨state, returned, rfl⟩ := List.mem_map.mp newer
        obtain rfl := Option.mem_toList.mp returned
        refine ⟨genuine.start, le_refl _, ?_, _, _, reading, processed, rfl, rfl, clock⟩
        intro sample inside
        exact genuine.next_samples read inside

/-- What a step does, event by event. -/
theorem Genuine.step (genuine : Genuine offset quotient protocol) {event : ProtocolEvent K} {after : Protocol K}
    (moved : protocol.act offset quotient event = some after) : Genuine offset quotient after := by
  cases event with
  | advance later =>
    obtain ⟨passed, ⟨⟩⟩ := Option.ite_none_right_eq_some.mp moved
    exact genuine.advance passed
  | readSendTime =>
    obtain ⟨_, ⟨⟩⟩ := Option.ite_none_right_eq_some.mp moved
    refine { genuine with sending := ?_ }
    intro startTimeUs same
    obtain rfl := Option.some.inj same
    exact ⟨protocol.now, genuine.start, le_refl _, rfl⟩
  | send =>
    obtain ⟨startTimeUs, held, rfl⟩ := Option.map_eq_some_iff.mp moved
    refine { genuine with sending := ?_, requests := ?_ }
    · intro _ same
      cases same
    · dsimp only
      rw [List.forall_mem_append, List.forall_mem_singleton]
      exact ⟨genuine.requests, genuine.sending startTimeUs held⟩
  | serve startTimeUs =>
    obtain ⟨⟨arrived, _⟩, ⟨⟩⟩ := Option.ite_none_right_eq_some.mp moved
    refine { genuine with serving := ?_ }
    intro served same
    obtain rfl := Option.some.inj same
    exact genuine.requests startTimeUs arrived
  | reply =>
    obtain ⟨running, moved⟩ := Option.ite_none_right_eq_some.mp moved
    obtain ⟨startTimeUs, held, rfl⟩ := Option.map_eq_some_iff.mp moved
    refine { genuine with serving := ?_, responses := ?_ }
    · intro _ same
      cases same
    · obtain ⟨sent, start, before, same⟩ := genuine.serving startTimeUs held
      dsimp only
      rw [List.forall_mem_append, List.forall_mem_singleton]
      exact ⟨genuine.responses, sent, protocol.now, start, before, le_refl _, running, same, rfl⟩
  | recv response =>
    obtain ⟨⟨arrived, _⟩, ⟨⟩⟩ := Option.ite_none_right_eq_some.mp moved
    exact { genuine with receive := genuine.responses response arrived }
  | stamp =>
    dsimp only [Protocol.act] at moved
    split at moved
    next response point =>
      obtain rfl := Option.some.inj moved
      have receive := genuine.receive
      rw [point] at receive
      obtain ⟨sent, served, start, first, before, running, sentAt, servedAt⟩ := receive
      exact { genuine with
        receive := ⟨sent, served, protocol.now, start, first, before, le_refl _, running, sentAt, servedAt, rfl⟩ }
    next => cases moved
  | write =>
    dsimp only [Protocol.act] at moved
    split at moved
    next times point =>
      obtain rfl := Option.some.inj moved
      have receive := genuine.receive
      rw [point] at receive
      refine { genuine with receive := trivial, ingest := ?_ }
      dsimp only
      split
      next =>
        rw [List.forall_mem_append, List.forall_mem_singleton]
        exact ⟨genuine.ingest, receive⟩
      next => exact genuine.ingest
    next => cases moved
  | wake =>
    obtain ⟨_, ⟨⟩⟩ := Option.ite_none_right_eq_some.mp moved
    refine { genuine with taken := ?_ }
    intro times member
    cases member
  | read =>
    dsimp only [Protocol.act] at moved
    split at moved
    next currentTimeMs before times ingest point buffer =>
      obtain rfl := Option.some.inj moved
      have earlier := genuine.taken
      have held := genuine.ingest
      rw [point] at earlier
      rw [buffer] at held
      rw [List.forall_mem_cons] at held
      refine { genuine with ingest := held.2, taken := ?_ }
      dsimp only [TimeSyncProtocol.taken]
      rw [List.forall_mem_append, List.forall_mem_singleton]
      exact ⟨earlier, held.1⟩
    next currentTimeMs before point buffer =>
      obtain rfl := Option.some.inj moved
      have earlier := genuine.taken
      rw [point] at earlier
      exact { genuine with taken := earlier }
    next => cases moved
  | compute =>
    dsimp only [Protocol.act] at moved
    split at moved
    next currentTimeMs before point =>
      obtain rfl := Option.some.inj moved
      exact genuine.compute (by rw [point]; rfl) rfl
    next => cases moved

/-! The clocks. -/

/-- Neither clock has got anywhere near the end of its range. -/
structure ClocksFit (offset : K → K) (now : K) : Prop where
  client : processTimeUs now < 2 ^ 62
  server : ∀ instant, 0 ≤ instant → instant ≤ now → processTimeUs (instant + offset instant) < 2 ^ 62

variable [IsStrictOrderedRing K]

theorem processTimeUs_mono {earlier later : K} (passed : earlier ≤ later) : processTimeUs earlier ≤ processTimeUs later :=
  Nat.floor_mono passed

theorem ClocksFit.earlier {now later : K} (fit : ClocksFit offset later) (passed : now ≤ later) :
    ClocksFit offset now where
  client := Nat.lt_of_le_of_lt (processTimeUs_mono passed) fit.client
  server := fun instant start before => fit.server instant start (le_trans before passed)

theorem RoundTrip.ordered {now : K} {times : TimingTriplet} (trip : RoundTrip offset now times)
    (fit : ClocksFit offset now) : Ordered (processTimeUs now) times := by
  obtain ⟨sent, served, received, start, first, second, before, _, sentAt, servedAt, receivedAt⟩ := trip
  constructor
  · rw [sentAt, receivedAt]
    exact processTimeUs_mono (le_trans first second)
  · rw [receivedAt]
    exact processTimeUs_mono before
  · exact fit.client
  · rw [servedAt]
    exact fit.server served (le_trans start first) (le_trans second before)

omit [IsStrictOrderedRing K] in
theorem act_now {event : ProtocolEvent K} {after : Protocol K} (moved : protocol.act offset quotient event = some after) :
    protocol.now ≤ after.now := by
  cases event with
  | advance later =>
    obtain ⟨passed, ⟨⟩⟩ := Option.ite_none_right_eq_some.mp moved
    exact passed
  | readSendTime | serve _ | recv _ | wake =>
    obtain ⟨_, ⟨⟩⟩ := Option.ite_none_right_eq_some.mp moved
    exact le_refl _
  | send =>
    obtain ⟨_, _, rfl⟩ := Option.map_eq_some_iff.mp moved
    exact le_refl _
  | reply =>
    obtain ⟨_, moved⟩ := Option.ite_none_right_eq_some.mp moved
    obtain ⟨_, _, rfl⟩ := Option.map_eq_some_iff.mp moved
    exact le_refl _
  | stamp | write | read =>
    dsimp only [Protocol.act] at moved
    split at moved <;> cases moved <;> exact le_refl _
  | compute =>
    dsimp only [Protocol.act] at moved
    split at moved
    next =>
      obtain rfl := Option.some.inj moved
      unfold Protocol.compute
      split <;> exact le_refl _
    next => cases moved

/-- Only the rest of `process_ingest_buffer` has CHECKs, and they hold of round trips. -/
theorem act_unaborted (small : QuotientSmall quotient) (genuine : Genuine offset quotient protocol)
    (fit : ClocksFit offset protocol.now) (unaborted : protocol.aborted = false) {event : ProtocolEvent K}
    {after : Protocol K} (moved : protocol.act offset quotient event = some after) : after.aborted = false := by
  cases event with
  | advance _ | readSendTime | serve _ | recv _ | wake =>
    obtain ⟨_, ⟨⟩⟩ := Option.ite_none_right_eq_some.mp moved
    exact unaborted
  | send =>
    obtain ⟨_, _, rfl⟩ := Option.map_eq_some_iff.mp moved
    exact unaborted
  | reply =>
    obtain ⟨_, moved⟩ := Option.ite_none_right_eq_some.mp moved
    obtain ⟨_, _, rfl⟩ := Option.map_eq_some_iff.mp moved
    exact unaborted
  | stamp | write | read =>
    dsimp only [Protocol.act] at moved
    split at moved <;> cases moved <;> exact unaborted
  | compute =>
    dsimp only [Protocol.act] at moved
    split at moved
    next currentTimeMs before point =>
      obtain rfl := Option.some.inj moved
      obtain ⟨ctx, message, processed⟩ :=
        process_total small protocol.thread.ctx ⟨before, currentTimeMs, processTimeUs protocol.now⟩ (by
          intro sample member
          exact (genuine.next_samples (by rw [point]; rfl) member).ordered fit)
      unfold Protocol.compute
      rw [processed]
      exact unaborted
    next => cases moved

/-- What holds after every run: as long as the clocks fit, nothing has failed. -/
structure Safe (offset : K → K) (quotient : Nat → Nat) (protocol : Protocol K) : Prop where
  genuine : Genuine offset quotient protocol
  unaborted : ClocksFit offset protocol.now → protocol.aborted = false

theorem safe_preserved (small : QuotientSmall quotient) :
    Preserved (ProtocolStep offset quotient) (Safe offset quotient) := by
  intro before event after moved safe
  unfold ProtocolStep Protocol.next at moved
  split at moved
  next => cases moved
  next =>
    refine ⟨safe.genuine.step moved, ?_⟩
    intro fit
    have earlier := fit.earlier (act_now moved)
    exact act_unaborted small safe.genuine earlier (safe.unaborted earlier) moved

theorem run_safe (small : QuotientSmall quotient) {durationMs : Nat} {events : List (ProtocolEvent K)}
    (run : ProtocolRun offset quotient durationMs events protocol) : Safe offset quotient protocol :=
  run.keeps (safe_preserved small) ⟨Genuine.initial durationMs, fun _ => rfl⟩

/-- Every sample is a round trip that has happened, by the instant of the state that is published from it, and as long as
the clocks fit no CHECK of the client fails. -/
theorem protocol_safe (small : QuotientSmall quotient) {durationMs : Nat} {events : List (ProtocolEvent K)}
    (run : ProtocolRun offset quotient durationMs events protocol) :
    (∀ sample ∈ protocol.thread.ctx.window.samples, RoundTrip offset protocol.now sample.timingTriplet) ∧
      (∀ publication ∈ protocol.publications, PublicationGenuine offset quotient protocol.now publication) ∧
      (ClocksFit offset protocol.now → protocol.aborted = false) := by
  have safe := run_safe small run
  exact ⟨safe.genuine.window, safe.genuine.publications, safe.unaborted⟩

end
end

theorem exactQuotient_small : QuotientSmall exactQuotient := by
  intro product bounded
  unfold exactQuotient
  omega

/-- Two datagrams, of which the first is answered twice. -/
def twoRoundTrips : List (ProtocolEvent Rat) :=
  [.readSendTime, .send, .advance 3, .readSendTime, .serve 0, .send, .reply, .serve 0, .recv ⟨0, 8⟩, .reply, .advance 10,
    .stamp, .write, .recv ⟨0, 8⟩, .wake, .read, .read, .stamp, .write, .advance 2000, .compute]

theorem constant_fits {now : Rat} (early : now ≤ 2000) : ClocksFit (fun _ => 5) now where
  client := Nat.lt_of_le_of_lt (processTimeUs_mono early) (by decide +kernel)
  server := fun instant _ before =>
    Nat.lt_of_le_of_lt (processTimeUs_mono (show instant + 5 ≤ 2005 by linarith)) (by decide +kernel)

/-- One triple was written before the publish thread found the buffer empty. It is in the window of the state. -/
theorem protocol_safe_twoRoundTrips : ∃ protocol : Protocol Rat,
    ProtocolRun (fun _ => 5) exactQuotient 1250 twoRoundTrips protocol ∧ protocol.aborted = false ∧
      ∃ publication ∈ protocol.publications, publication.samples = [⟨0, ⟨0, 8, 10⟩⟩] ∧
        RoundTrip (fun _ => 5) publication.instant ⟨0, 8, 10⟩ := by
  have executed : (execute (Protocol.next (fun _ : Rat => 5) exactQuotient) (.initial 1250) twoRoundTrips).map
      (fun protocol => (protocol.now, protocol.publications.map Publication.samples)) = some (2000, [[⟨0, ⟨0, 8, 10⟩⟩]]) := by
    decide +kernel
  obtain ⟨protocol, reached, read⟩ := Option.map_eq_some_iff.mp executed
  obtain ⟨now, published⟩ := Prod.mk.inj read
  obtain ⟨publication, single, samples⟩ := List.map_eq_singleton_iff.mp published
  have run : ProtocolRun (fun _ => 5) exactQuotient 1250 twoRoundTrips protocol := Run.of_execute reached
  obtain ⟨_, genuine, safe⟩ := protocol_safe exactQuotient_small run
  have member : publication ∈ protocol.publications := by rw [single]; exact List.mem_singleton_self publication
  exact ⟨protocol, run, safe (constant_fits (le_of_eq now)), publication, member, samples,
    (genuine publication member).trips ⟨0, ⟨0, 8, 10⟩⟩ (by rw [samples]; exact List.mem_singleton_self _)⟩

end AxbyCore.Proofs.TimeSyncProtocol
