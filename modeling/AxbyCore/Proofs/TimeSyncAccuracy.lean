import AxbyCore.Proofs.TimeSyncLookups
import AxbyCore.Proofs.TimeSyncProtocol
import Mathlib.Algebra.Order.Archimedean.Real.Basic

/-! Accuracy of the time synchronisation from end to end. A published offset is off by
half the width of its bounds and the drift since the round trips, although both clocks
truncate; what a process looks up is off by the drift since then as well. -/

namespace AxbyCore.Proofs.TimeSyncAccuracy
open AxbyCore.TimeSync AxbyCore.TimeSync.Proofs TimeSyncProtocol TimeSyncLookups MachineInt Pubsub Transitions

/-- A name for the instance that the number is read with. -/
scoped instance two_atLeastTwo : Nat.AtLeastTwo 2 := inferInstance

/-- The clocks drift apart at a bounded rate. -/
structure DriftRate (theta : ℝ → ℝ) (rho : ℝ) : Prop where
  rate : ∀ a b, |theta a - theta b| ≤ rho * |a - b|
  nonneg : 0 ≤ rho

section
variable {theta : ℝ → ℝ} {rho : ℝ} {protocol : Protocol ℝ}

theorem DriftRate.within (rate : DriftRate theta rho) {a b distance : ℝ} (near : |a - b| ≤ distance) :
    |theta a - theta b| ≤ rho * distance :=
  le_trans (rate.rate a b) (mul_le_mul_of_nonneg_left near rate.nonneg)

theorem processTimeUs_le {instant : ℝ} (start : 0 ≤ instant) : (processTimeUs instant : ℝ) ≤ instant :=
  Nat.floor_le start

theorem lt_processTimeUs (instant : ℝ) : instant < processTimeUs instant + 1 := Nat.lt_floor_add_one instant

theorem processTimeUs_near {instant : ℝ} (start : 0 ≤ instant) : |instant - processTimeUs instant| ≤ 1 := by
  have below := processTimeUs_le start
  have above := lt_processTimeUs instant
  rw [abs_le]
  constructor <;> linarith

/-- What the truncated clocks add to the drift in half of a round trip. -/
noncomputable def slack (rho : ℝ) (tripUs : Nat) : ℝ := rho * (tripUs / 2 + 2) + 2

/-- A round trip puts the offset between its bounds, up to the slack. -/
theorem trip_encloses (rate : DriftRate theta rho) {drift : Nat} (covered : rho * 10 ^ 6 ≤ drift) {instant : ℝ}
    (start : 0 ≤ instant) {times : TimingTriplet} (valid : InRange drift (processTimeUs instant) times)
    (trip : RoundTrip theta instant times) :
    (lower drift (processTimeUs instant) times : ℝ) ≤ theta instant + slack rho (roundTripTime times) ∧
      theta instant - slack rho (roundTripTime times) ≤ upper drift (processTimeUs instant) times := by
  obtain ⟨sent, served, received, begun, first, second, _, running, sentAt, servedAt, receivedAt⟩ := trip
  have sentLe := processTimeUs_le begun
  have servLe := processTimeUs_le running
  have servLt := lt_processTimeUs (served + theta served)
  have recvLt := lt_processTimeUs received
  rw [← sentAt] at sentLe
  rw [← servedAt] at servLe servLt
  rw [← receivedAt] at recvLt
  have ordered : (times.send : ℝ) ≤ times.recv := by exact_mod_cast valid.ordered
  -- the server's instant, moved between the two truncated readings
  have near : |served - min served times.recv| ≤ 1 := by
    rw [abs_of_nonneg (by linarith [min_le_left served (times.recv : ℝ)])]
    cases min_choice served (times.recv : ℝ) with
    | inl same => rw [same]; linarith
    | inr same => rw [same]; linarith
  have drifted := abs_le.mp (drift_since rate.rate rate.nonneg covered valid
    (le_min (le_trans sentLe first) ordered) (min_le_right served (times.recv : ℝ)))
  have moved := abs_le.mp (rate.within near)
  have clock := abs_le.mp (rate.within (processTimeUs_near start))
  unfold lower upper slack
  push_cast
  constructor <;> linarith [drifted.1, drifted.2, moved.1, moved.2, clock.1, clock.2]

theorem slack_mono (rate : DriftRate theta rho) {shorter longer : Nat} (le : shorter ≤ longer) :
    slack rho shorter ≤ slack rho longer := by
  have cast : (shorter : ℝ) ≤ longer := by exact_mod_cast le
  have scaled := mul_le_mul_of_nonneg_left (by linarith : (shorter : ℝ) / 2 + 2 ≤ longer / 2 + 2) rate.nonneg
  unfold slack
  linarith

/-- The correction that a published state was computed with covers the drift, and
nothing wraps in it. -/
structure Covered (rho : ℝ) (publication : Publication ℝ) : Prop where
  covered : rho * 10 ^ 6 ≤ publication.clockDriftUsPerSec
  product : ∀ sample ∈ publication.samples, publication.clockDriftUsPerSec *
    (processTimeUs publication.instant - (sample.timingTriplet.recv + sample.timingTriplet.send) / 2) < 2 ^ 64

/-- How far a published offset may be off. -/
noncomputable def publishedError (rho : ℝ) (publication : Publication ℝ) : ℝ :=
  (publication.state.minRoundTripTimeUs : ℝ) / 2 + slack rho (largestRoundTrip publication.samples) + 1 / 2

theorem computed_cases {quotient : Nat → Nat} {ctx after : IngestContext} {reading : Reading} {state : TimeSyncState}
    (computed : processIngestBuffer quotient ctx reading = some (after, some state)) :
    ∃ bounds, mergeSamples quotient ctx.clockDriftUsPerSec reading.currentTimeUs
        (nextWindow ctx.window reading).samples = some bounds ∧ ¬ bounds.Unset ∧
      ∃ width sum, signed (bounds.offsetUsUb - bounds.offsetUsLb) = some width ∧
        signed (bounds.offsetUsUb + bounds.offsetUsLb) = some sum ∧
        toInt64 (bounds.observedRoundTripTimeUs / 2) < width ∧
        state = ⟨sum.tdiv 2, bounds.observedRoundTripTimeUs, toUint64 width⟩ := by
  obtain ⟨bounds, found, adapted⟩ := Option.bind_eq_some_iff.mp computed
  refine ⟨bounds, found, ?_⟩
  unfold adapt at adapted
  split at adapted
  next => cases adapted
  next set =>
    obtain ⟨width, wide, adapted⟩ := Option.bind_eq_some_iff.mp adapted
    split at adapted
    next => cases adapted
    next notSmall =>
      obtain ⟨sum, total, adapted⟩ := Option.bind_eq_some_iff.mp adapted
      obtain ⟨_, same⟩ := Prod.mk.inj (Option.some.inj adapted)
      exact ⟨set, width, sum, wide, total, not_le.mp notSmall, (Option.some.inj same).symm⟩

/-- A published offset is accurate. -/
theorem publication_error (rate : DriftRate theta rho) {protocol : Protocol ℝ}
    (safe : Safe theta exactQuotient protocol) (fit : ClocksFit theta protocol.now) {publication : Publication ℝ}
    (member : publication ∈ protocol.publications) (covered : Covered rho publication) :
    |(publication.state.offsetEstimateUs : ℝ) - theta publication.instant| ≤ publishedError rho publication := by
  obtain ⟨start, past, trips, ctx, after, reading, computed, samples, drift, clock⟩ := safe.genuine.publications publication member
  have instantFit := fit.earlier past
  obtain ⟨bounds, found, set, width, sum, wide, total, notSmall, state⟩ := computed_cases computed
  obtain ⟨fits, rfl⟩ := signed_eq_some.mp wide
  obtain ⟨_, rfl⟩ := signed_eq_some.mp total
  rw [samples, drift, clock] at found
  have valid : ∀ sample ∈ publication.samples,
      InRange publication.clockDriftUsPerSec (processTimeUs publication.instant) sample.timingTriplet := by
    intro sample inside
    obtain ⟨ordered, past, client, serv⟩ := (trips sample inside).ordered instantFit
    exact ⟨ordered, past, client, serv, covered.product sample inside⟩
  obtain ⟨_, again, merged⟩ := mergeSamples_merged valid
  obtain rfl := Option.some.inj (found.symm.trans again)
  have encloses : Encloses bounds (theta publication.instant) (slack rho (largestRoundTrip publication.samples)) := by
    obtain ⟨low, lowMember, lowest⟩ := merged.lowest.resolve_left fun same => set (Or.inr same)
    obtain ⟨high, highMember, highest⟩ := merged.highest.resolve_left fun same => set (Or.inl same)
    have below := (trip_encloses rate covered.covered start (valid low lowMember) (trips low lowMember)).1
    have above := (trip_encloses rate covered.covered start (valid high highMember) (trips high highMember)).2
    have lowSlack := slack_mono rate (roundTripTime_le lowMember)
    have highSlack := slack_mono rate (roundTripTime_le highMember)
    rw [← lowest] at below
    rw [← highest] at above
    exact ⟨by linarith, by linarith⟩
  have nonneg : 0 ≤ toInt64 (bounds.observedRoundTripTimeUs / 2) := by
    have observed := merged.observed
    rw [toInt64_natCast (by omega)]
    omega
  have same : (toUint64 (bounds.offsetUsUb - bounds.offsetUsLb) : Int) = bounds.offsetUsUb - bounds.offsetUsLb := by
    unfold FitsInt64 at fits
    exact toUint64_of_nonneg (by omega) (by omega)
  have error := middle_error encloses
  rw [← same] at error
  unfold publishedError
  rw [state]
  push_cast at error ⊢
  linarith

/-! On the wire and in the subscribers. -/

/-- What the fields of the struct hold. -/
structure Representable (state : TimeSyncState) : Prop where
  offset : FitsInt64 state.offsetEstimateUs
  observed : state.observedRoundTripTimeUs < 2 ^ 64
  roundTrip : state.minRoundTripTimeUs < 2 ^ 64

theorem tdiv_fits {sum : Int} (fits : FitsInt64 sum) : FitsInt64 (sum.tdiv 2) := by
  have whole := Int.mul_tdiv_add_tmod sum 2
  have above := Int.tmod_lt_of_pos sum (by decide : (0 : Int) < 2)
  have below := Int.lt_tmod_of_pos sum (by decide : (0 : Int) < 2)
  unfold FitsInt64 at *
  omega

theorem published_representable {quotient : Nat → Nat} (small : QuotientSmall quotient) {protocol : Protocol ℝ}
    (safe : Safe theta quotient protocol) (fit : ClocksFit theta protocol.now) {publication : Publication ℝ}
    (member : publication ∈ protocol.publications) : Representable publication.state := by
  obtain ⟨_, past, trips, ctx, after, reading, computed, samples, _, clock⟩ := safe.genuine.publications publication member
  obtain ⟨bounds, found, _, width, sum, _, total, _, state⟩ := computed_cases computed
  obtain ⟨fits, rfl⟩ := signed_eq_some.mp total
  rw [samples, clock] at found
  obtain ⟨_, again, started⟩ := mergeSamples_started small ctx.clockDriftUsPerSec
    fun sample inside => (trips sample inside).ordered (fit.earlier past)
  obtain rfl := Option.some.inj (found.symm.trans again)
  rw [state]
  exact ⟨tdiv_fits fits, started.observed, toUint64_small _⟩

theorem simpleTimeSyncState_length (state : TimeSyncState) : (simpleTimeSyncState state).length = 24 := by
  simp [simpleTimeSyncState]

/-- A state is read from its frame as it was written. -/
theorem getSimple_published {message : Message} {state : TimeSyncState} (fits : Representable state)
    (frames : message.frames = [simpleTimeSyncState state]) : message.getSimple TimeSyncState 0 = some state := by
  have first : Realsense.field (simpleTimeSyncState state) 0 8 = toUint64 state.offsetEstimateUs := by
    rw [Realsense.field, simpleTimeSyncState, List.drop_zero, List.append_assoc,
      List.take_append_of_le_length (by simp), Endian.little_take (le_refl _),
      Endian.ofLittle_little_of_lt (toUint64_small _)]
  have second : Realsense.field (simpleTimeSyncState state) 8 8 = state.observedRoundTripTimeUs := by
    rw [Realsense.field, simpleTimeSyncState, List.append_assoc, List.drop_left' (by simp),
      List.take_append_of_le_length (by simp), Endian.little_take (le_refl _), Endian.ofLittle_little_of_lt fits.observed]
  have third : Realsense.field (simpleTimeSyncState state) 16 8 = state.minRoundTripTimeUs := by
    rw [Realsense.field, simpleTimeSyncState, List.drop_left' (by simp), Endian.little_take (le_refl _),
      Endian.ofLittle_little_of_lt fits.roundTrip]
  have size : (simpleTimeSyncState state).length = TriviallyCopyable.size TimeSyncState := simpleTimeSyncState_length state
  simp only [Message.getSimple, frames, List.getElem?_cons_zero, dif_pos size, TriviallyCopyable.ofBytes, first, second,
    third, toInt64_toUint64 fits.offset]

/-- The messages of a process carry states that its publish thread has published with a
correction that covers the drift. -/
def Carries (rho : ℝ) (protocol : Protocol ℝ) (processId : UInt64) (messages : List Message) : Prop :=
  ∀ message ∈ messages, message.header.senderProcessId = processId →
    ∃ publication ∈ protocol.publications, Covered rho publication ∧ message.frames = [simpleTimeSyncState publication.state]

/-- The last message of a process has what the map holds. -/
theorem latest_published (safe : Safe theta exactQuotient protocol) (fit : ClocksFit theta protocol.now)
    {processId : UInt64} {messages : List Message} (carries : Carries rho protocol processId messages)
    (heard : ∃ message ∈ messages, message.header.senderProcessId = processId) :
    ∃ publication ∈ protocol.publications, Covered rho publication ∧ latest messages processId = some publication.state := by
  obtain ⟨message, member, own⟩ := heard
  have kept : message ∈ messages.filter fun message => message.header.senderProcessId = processId := by
    simp [member, own]
  obtain ⟨last, found⟩ := Option.ne_none_iff_exists'.mp (mt List.getLast?_eq_none_iff.mp (List.ne_nil_of_mem kept))
  obtain ⟨inside, ownLast⟩ := List.mem_filter.mp (List.mem_of_getLast? found)
  obtain ⟨publication, published, covered, frames⟩ := carries last inside (of_decide_eq_true ownLast)
  refine ⟨publication, published, covered, ?_⟩
  unfold latest
  rw [found, Option.bind_some]
  exact getSimple_published (published_representable exactQuotient_small safe fit published) frames

/-- How far a lookup may be off at an instant after the publication. -/
noncomputable def lookupError (rho : ℝ) (publication : Publication ℝ) (instant : ℝ) : ℝ :=
  publishedError rho publication + rho * |instant - publication.instant| + 1

/-- Any process that has heard from a client knows what the server's clock reads, up to the
error of the state it heard last and the drift since. -/
theorem server_time_estimated (rate : DriftRate theta rho) {durationMs : Nat} {events : List (ProtocolEvent ℝ)}
    (run : ProtocolRun theta exactQuotient durationMs events protocol) (fit : ClocksFit theta protocol.now)
    {subscriber processId : UInt64} {messages : List Message} {thread : SubscribeThread}
    (handled : Handled subscriber messages thread) (carries : Carries rho protocol processId messages)
    (heard : ∃ message ∈ messages, message.header.senderProcessId = processId) :
    ∃ publication ∈ protocol.publications, latest messages processId = some publication.state ∧
      ∀ instant : ℝ, 0 ≤ instant → instant < 2 ^ 64 →
        lookupError rho publication instant ≤ instant + theta instant →
        instant + theta instant + lookupError rho publication instant < 2 ^ 64 →
        |((estimateTimeServerTimestampUs thread processId (UInt64.ofNat (processTimeUs instant))).toNat : ℝ) -
          (instant + theta instant)| ≤ lookupError rho publication instant := by
  have safe := run_safe exactQuotient_small run
  obtain ⟨publication, published, covered, last⟩ := latest_published safe fit carries heard
  refine ⟨publication, published, last, ?_⟩
  intro instant start early settled late
  have error := abs_le.mp (publication_error rate safe fit published covered)
  have drifted := abs_le.mp (rate.rate instant publication.instant)
  have clock := processTimeUs_le start
  have clockLt := lt_processTimeUs instant
  unfold lookupError at *
  -- the sum is a timestamp, so that it does not wrap
  have near : |((processTimeUs instant : ℝ) + publication.state.offsetEstimateUs) - (instant + theta instant)| ≤
      publishedError rho publication + rho * |instant - publication.instant| + 1 := by
    rw [abs_le]
    constructor <;> linarith [error.1, error.2, drifted.1, drifted.2]
  obtain ⟨above, below⟩ := abs_le.mp near
  have reading : (UInt64.ofNat (processTimeUs instant)).toNat = processTimeUs instant := by
    apply UInt64.toNat_ofNat_of_lt'
    have small : (processTimeUs instant : ℝ) < 2 ^ 64 := lt_of_le_of_lt clock early
    exact_mod_cast small
  have nonneg : (0 : ℝ) ≤ (processTimeUs instant : ℝ) + publication.state.offsetEstimateUs := by linarith
  have small : (processTimeUs instant : ℝ) + publication.state.offsetEstimateUs < 2 ^ 64 := by linarith
  have known := (map_latest handled processId).trans last
  have sum := @estimate_sum thread processId _ known (UInt64.ofNat (processTimeUs instant))
    (by rw [reading]; exact_mod_cast nonneg) (by rw [reading]; exact_mod_cast small)
  rw [reading] at sum
  have estimate : ((estimateTimeServerTimestampUs thread processId (UInt64.ofNat (processTimeUs instant))).toNat : ℝ) =
      (processTimeUs instant : ℝ) + publication.state.offsetEstimateUs := by exact_mod_cast sum
  rw [estimate]
  exact near

end

/-! Two round trips of ten microseconds to the server that gains. -/

theorem gaining_driftRate : DriftRate gaining (1 / 100000) := ⟨gaining_rate, by norm_num⟩

noncomputable def firstTrip : List (ProtocolEvent ℝ) :=
  [.readSendTime, .send, .serve 0, .reply, .recv ⟨0, 5⟩, .advance (10 : ℕ), .stamp, .write]

noncomputable def afterFirst : Protocol ℝ :=
  { now := (10 : ℕ), requests := [0], responses := [⟨0, 5⟩], ingest := [⟨0, 5, 10⟩], thread := .initial 1250 }

theorem firstTrip_run : ProtocolRun gaining exactQuotient 1250 firstTrip afterFirst := by
  apply Run.of_execute
  have zero : processTimeUs (0 : ℝ) = 0 := Nat.floor_zero
  have five : processTimeUs (5 : ℝ) = 5 := Nat.floor_ofNat 5
  have ten : processTimeUs (10 : ℝ) = 10 := Nat.floor_ofNat 10
  have ahead : gaining 0 = 5 := by norm_num [gaining]
  simp [execute, firstTrip, afterFirst, Protocol.next, Protocol.act, Protocol.initial, ingestBufferSize, zero, five, ten, ahead]

noncomputable def secondTrip : List (ProtocolEvent ℝ) :=
  [.advance (200000 : ℕ), .readSendTime, .send, .serve 200000, .reply, .recv ⟨200000, 200007⟩, .advance (200010 : ℕ), .stamp,
    .write]

noncomputable def afterSecond : Protocol ℝ :=
  { now := (200010 : ℕ)
    requests := [0, 200000]
    responses := [⟨0, 5⟩, ⟨200000, 200007⟩]
    ingest := [⟨0, 5, 10⟩, ⟨200000, 200007, 200010⟩]
    thread := .initial 1250 }

theorem secondTrip_run : Run (ProtocolStep gaining exactQuotient) afterFirst secondTrip afterSecond := by
  apply Run.of_execute
  have sent : processTimeUs (200000 : ℝ) = 200000 := Nat.floor_ofNat 200000
  have served : processTimeUs (200007 : ℝ) = 200007 := Nat.floor_ofNat 200007
  have received : processTimeUs (200010 : ℝ) = 200010 := Nat.floor_ofNat 200010
  have ahead : 200000 + gaining 200000 = 200007 := by norm_num [gaining]
  have waits : (10 : ℝ) ≤ 200000 := by norm_num
  have arrives : (200000 : ℝ) ≤ 200010 := by norm_num
  simp [execute, secondTrip, afterFirst, afterSecond, Protocol.next, Protocol.act, ingestBufferSize, sent, served, received,
    ahead, waits, arrives]

def gainingSamples : List SlidingWindowSample := [⟨200, ⟨0, 5, 10⟩⟩, ⟨200, ⟨200000, 200007, 200010⟩⟩]

noncomputable def gainingPublication : Publication ℝ := ⟨⟨2, 10, 10⟩, (200010 : ℕ), 40, gainingSamples⟩

noncomputable def published : Protocol ℝ :=
  { now := (200010 : ℕ)
    requests := [0, 200000]
    responses := [⟨0, 5⟩, ⟨200000, 200007⟩]
    thread := ⟨⟨36, ⟨1250, gainingSamples⟩⟩, [⟨2, 10, 10⟩]⟩
    publications := [gainingPublication] }

theorem published_computed :
    processIngestBuffer exactQuotient ⟨40, ⟨1250, []⟩⟩ ⟨[⟨0, 5, 10⟩, ⟨200000, 200007, 200010⟩], 200, 200010⟩ =
      some (⟨36, ⟨1250, gainingSamples⟩⟩, some ⟨2, 10, 10⟩) := by decide

theorem published_run : ProtocolRun gaining exactQuotient 1250
    (firstTrip ++ (secondTrip ++ [.wake, .read, .read, .read, .compute])) published := by
  refine firstTrip_run.trans (secondTrip_run.trans (Run.of_execute ?_))
  have received : processTimeUs (200010 : ℝ) = 200010 := Nat.floor_ofNat 200010
  have samples : (nextWindow ⟨1250, []⟩ ⟨[⟨0, 5, 10⟩, ⟨200000, 200007, 200010⟩], 200, 200010⟩).samples = gainingSamples := rfl
  simp [execute, afterSecond, published, gainingPublication, Protocol.next, Protocol.act, PublishThread.initial,
    Protocol.compute, processTimeMs, received, published_computed, samples]

/-- Process 9 has sent its first state to process 3. -/
def firstState : Message where
  topic := ascii "time_sync"
  header := { senderProcessId := 9 }
  frames := [simpleTimeSyncState ⟨2, 10, 10⟩]

theorem firstState_handled : ∃ thread, Handled 3 [firstState] thread := ⟨_, rfl⟩

theorem gainingPublication_covered : Covered (1 / 100000) gainingPublication := by
  have received : processTimeUs (200010 : ℝ) = 200010 := Nat.floor_ofNat 200010
  constructor
  · norm_num [gainingPublication]
  · simp [gainingPublication, gainingSamples, received]

theorem gaining_fits : ClocksFit gaining published.now := by
  constructor
  · show processTimeUs ((200010 : ℕ) : ℝ) < 2 ^ 62
    rw [show processTimeUs ((200010 : ℕ) : ℝ) = 200010 from Nat.floor_natCast 200010]
    norm_num
  · intro instant _ past
    have early : processTimeUs (instant + gaining instant) ≤ 200018 := by
      apply Nat.floor_le_of_le
      have : instant ≤ (200010 : ℕ) := past
      unfold gaining
      norm_num at this ⊢
      linarith
    omega

theorem server_time_estimated_gaining : ∃ thread, Handled 3 [firstState] thread ∧
    ∃ publication ∈ published.publications, publication.samples.length = 2 ∧
      latest [firstState] 9 = some publication.state ∧
      ∀ instant : ℝ, 0 ≤ instant → instant < 2 ^ 64 →
        lookupError (1 / 100000) publication instant ≤ instant + gaining instant →
        instant + gaining instant + lookupError (1 / 100000) publication instant < 2 ^ 64 →
        |((estimateTimeServerTimestampUs thread 9 (UInt64.ofNat (processTimeUs instant))).toNat : ℝ) -
          (instant + gaining instant)| ≤ lookupError (1 / 100000) publication instant := by
  obtain ⟨thread, handled⟩ := firstState_handled
  have carries : Carries (1 / 100000) published 9 [firstState] := by
    intro message member _
    obtain rfl := List.mem_singleton.mp member
    exact ⟨gainingPublication, by simp [published], gainingPublication_covered, rfl⟩
  obtain ⟨publication, member, last, near⟩ :=
    server_time_estimated gaining_driftRate published_run gaining_fits handled carries ⟨firstState, by simp, rfl⟩
  obtain rfl : publication = gainingPublication := List.mem_singleton.mp member
  exact ⟨thread, handled, _, member, rfl, last, near⟩

end AxbyCore.Proofs.TimeSyncAccuracy
