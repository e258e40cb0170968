import AxbyCore.TimeSync.Lookup

/-! Lookups of another process's clock. The map holds the last state that each process
sent, and a lookup adds its offset modulo 2^64. The lookup in milliseconds passes its
time on as microseconds, so it agrees with the other one for two times at most. -/

namespace AxbyCore.Proofs.TimeSyncLookups
open AxbyCore.TimeSync Pubsub MachineInt Transitions

/-- The state in the last message of a process. -/
def latest (messages : List Message) (processId : UInt64) : Option TimeSyncState :=
  (messages.filter fun message => message.header.senderProcessId = processId).getLast?.bind
    fun message => message.getSimple TimeSyncState 0

theorem latest_snoc (messages : List Message) (message : Message) (processId : UInt64) :
    latest (messages ++ [message]) processId =
      if message.header.senderProcessId = processId then message.getSimple TimeSyncState 0 else latest messages processId := by
  unfold latest
  rw [List.filter_append]
  split
  next own => simp [own]
  next other => simp [other]

/-- The messages handled so far, and what the thread has made of them. -/
abbrev Handled (processId : UInt64) (messages : List Message) (thread : SubscribeThread) : Prop :=
  execute (runSubscribeThread processId) {} messages = some thread

theorem map_step {processId : UInt64} {before after : SubscribeThread} {message : Message}
    (handled : runSubscribeThread processId before message = some after) :
    ∃ state, message.getSimple TimeSyncState 0 = some state ∧ after.processIdToTimeSyncState =
      Function.update before.processIdToTimeSyncState message.header.senderProcessId (some state) := by
  unfold runSubscribeThread at handled
  split at handled
  · cases handled
  · obtain ⟨state, received, rest⟩ := Option.bind_eq_some_iff.mp handled
    refine ⟨state, received, ?_⟩
    dsimp only at rest
    split at rest
    · cases rest
      rfl
    · cases rest
      rfl

/-- Whatever the order of the senders, the map holds the last state of each. -/
theorem map_latest {processId : UInt64} {messages : List Message} {thread : SubscribeThread}
    (handled : Handled processId messages thread) (process : UInt64) :
    thread.processIdToTimeSyncState process = latest messages process := by
  have run := Run.of_execute handled
  apply run.history (fun messages thread => thread.processIdToTimeSyncState process = latest messages process)
  · intro earlier before message after moved ih
    obtain ⟨state, received, updated⟩ := map_step moved
    rw [updated, latest_snoc]
    by_cases own : message.header.senderProcessId = process
    · rw [if_pos own, received, own, Function.update_self]
    · rw [if_neg own, Function.update_of_ne (Ne.symm own), ih]
  · rfl

theorem toUint64_lt (value : Int) : toUint64 value < 2 ^ 64 := by
  unfold toUint64
  omega

theorem estimate_unknown {thread : SubscribeThread} {process : UInt64}
    (unknown : thread.processIdToTimeSyncState process = none) (time : UInt64) :
    estimateTimeServerTimestampUs thread process time = 0 := by
  simp only [estimateTimeServerTimestampUs, unknown]

theorem estimate_known {thread : SubscribeThread} {process : UInt64} {state : TimeSyncState}
    (known : thread.processIdToTimeSyncState process = some state) (time : UInt64) :
    (estimateTimeServerTimestampUs thread process time).toNat = (time.toNat + toUint64 state.offsetEstimateUs) % 2 ^ 64 := by
  simp only [estimateTimeServerTimestampUs, known]
  rw [UInt64.toNat_add, UInt64.toNat_ofNat_of_lt' (toUint64_lt _)]

/-- Two's complement addition gives the sum wherever it is a timestamp. -/
theorem estimate_sum {thread : SubscribeThread} {process : UInt64} {state : TimeSyncState}
    (known : thread.processIdToTimeSyncState process = some state) {time : UInt64}
    (nonneg : 0 ≤ time.toNat + state.offsetEstimateUs) (small : time.toNat + state.offsetEstimateUs < 2 ^ 64) :
    ((estimateTimeServerTimestampUs thread process time).toNat : Int) = time.toNat + state.offsetEstimateUs := by
  rw [estimate_known known]
  unfold toUint64
  omega

theorem received_fits {message : Message} {state : TimeSyncState} (received : message.getSimple TimeSyncState 0 = some state) :
    FitsInt64 state.offsetEstimateUs := by
  unfold Message.getSimple at received
  split at received
  · cases received
  · split at received
    · cases received
      simp only [TriviallyCopyable.ofBytes, FitsInt64, toInt64]
      split <;> omega
    · cases received

theorem latest_fits {messages : List Message} {process : UInt64} {state : TimeSyncState}
    (last : latest messages process = some state) : FitsInt64 state.offsetEstimateUs := by
  obtain ⟨message, _, received⟩ := Option.bind_eq_some_iff.mp last
  exact received_fits received

/-- The times and offsets for which a time in milliseconds may pass for one in microseconds. -/
def Passes (offsetUs : Int) (timeMs : Nat) : Prop :=
  timeMs = 0 ∨ timeMs = 1 ∧ (-1 ≤ offsetUs ∧ offsetUs % 1000 = 999 ∨ offsetUs < -617 ∧ offsetUs % 1000 = 383)

theorem quotients_agree {offsetUs : Int} (fits : FitsInt64 offsetUs) {timeMs : Nat} (small : 1000 * timeMs < 2 ^ 64) :
    (timeMs + toUint64 offsetUs) % 2 ^ 64 / 1000 = (1000 * timeMs + toUint64 offsetUs) % 2 ^ 64 / 1000 ↔
      Passes offsetUs timeMs := by
  unfold FitsInt64 at fits
  obtain ⟨complement, bounded, same⟩ : ∃ complement, toUint64 offsetUs = complement ∧
      (0 ≤ offsetUs ∧ (complement : Int) = offsetUs ∨ offsetUs < 0 ∧ (complement : Int) = offsetUs + 2 ^ 64) := by
    refine ⟨toUint64 offsetUs, rfl, ?_⟩
    unfold toUint64
    omega
  rw [bounded]
  -- how often the two sums wrap
  have wraps (sum : Nat) (small : sum < 2 * 2 ^ 64) : sum % 2 ^ 64 = sum ∧ sum < 2 ^ 64 ∨ sum % 2 ^ 64 + 2 ^ 64 = sum := by
    omega
  have first := wraps (timeMs + complement) (by omega)
  have second := wraps (1000 * timeMs + complement) (by omega)
  generalize (timeMs + complement) % 2 ^ 64 = short at first ⊢
  generalize (1000 * timeMs + complement) % 2 ^ 64 = long at second ⊢
  unfold Passes
  rcases Nat.lt_or_ge timeMs 2 with few | many
  · have two : timeMs = 0 ∨ timeMs = 1 := by omega
    rcases two with rfl | rfl
    · omega
    · rcases same with ⟨nonneg, same⟩ | ⟨negative, same⟩
      · omega
      · omega
  · -- the two sums are at least 1998 apart, also around 2^64
    have apart : short + 1998 ≤ long ∨ long + 1998 ≤ short := by omega
    omega

/-- What the lookups of a process at a local time should be after these messages. -/
def LookupsFollow (messages : List Message) (thread : SubscribeThread) (process time : UInt64) : Prop :=
  match latest messages process with
  | none => estimateTimeServerTimestampUs thread process time = 0 ∧ estimateTimeServerTimestampMs thread process time = 0
  | some state =>
    (0 ≤ time.toNat + state.offsetEstimateUs → time.toNat + state.offsetEstimateUs < 2 ^ 64 →
      ((estimateTimeServerTimestampUs thread process time).toNat : Int) = time.toNat + state.offsetEstimateUs) ∧
    (1000 * time.toNat < 2 ^ 64 →
      estimateTimeServerTimestampMs thread process time = estimateTimeServerTimestampUs thread process (1000 * time) / 1000)

/-- After every run, exactly these lookups are as they should be: of a process that sent
nothing, at a time too large to convert, and where the two units agree by chance. -/
theorem lookups_follow {processId : UInt64} {messages : List Message} {thread : SubscribeThread}
    (handled : Handled processId messages thread) (process time : UInt64) :
    LookupsFollow messages thread process time ↔ ∀ state, latest messages process = some state →
      1000 * time.toNat < 2 ^ 64 → Passes state.offsetEstimateUs time.toNat := by
  have held := map_latest handled process
  unfold LookupsFollow
  cases last : latest messages process with
  | none =>
    have unknown := held.trans last
    simp only [estimateTimeServerTimestampMs, estimate_unknown unknown]
    simp
  | some state =>
    have known := held.trans last
    simp only [Option.some.injEq, forall_eq']
    constructor
    · rintro ⟨_, agree⟩ small
      apply (quotients_agree (latest_fits last) small).mp
      have equal := congrArg UInt64.toNat (agree small)
      simp only [estimateTimeServerTimestampMs, UInt64.toNat_div, estimate_known known, UInt64.toNat_mul] at equal
      rw [show UInt64.toNat 1000 = 1000 from rfl, Nat.mod_eq_of_lt small] at equal
      exact equal
    · intro passes
      refine ⟨fun nonneg small => estimate_sum known nonneg small, ?_⟩
      intro small
      apply UInt64.toNat_inj.mp
      simp only [estimateTimeServerTimestampMs, UInt64.toNat_div, estimate_known known, UInt64.toNat_mul]
      rw [show UInt64.toNat 1000 = 1000 from rfl, Nat.mod_eq_of_lt small]
      exact (quotients_agree (latest_fits last) small).mpr (passes small)

/-- A message from process 9 whose offset is one second. -/
def oneSecond : Message where
  topic := ascii "time_sync"
  header := { senderProcessId := 9 }
  frames := [Endian.little 8 1000000 ++ Endian.little 8 40 ++ Endian.little 8 25]

theorem oneSecond_handled : ∃ thread, Handled 3 [oneSecond] thread := ⟨_, rfl⟩

theorem lookups_follow_start : ∃ thread, LookupsFollow [oneSecond] thread 9 0 := by
  obtain ⟨thread, handled⟩ := oneSecond_handled
  refine ⟨thread, (lookups_follow handled 9 0).mpr ?_⟩
  intro _ _ _
  exact .inl rfl

/-- Five milliseconds are looked up as five microseconds. -/
theorem milliseconds_differ : ∃ thread, Handled 3 [oneSecond] thread ∧
    estimateTimeServerTimestampMs thread 9 5 = 1000 ∧ estimateTimeServerTimestampUs thread 9 5000 / 1000 = 1005 ∧
    ¬ LookupsFollow [oneSecond] thread 9 5 :=
  ⟨_, rfl, by decide +kernel, by decide +kernel, by
    intro follows
    have agree := follows.2 (by decide)
    revert agree
    decide +kernel⟩

end AxbyCore.Proofs.TimeSyncLookups
