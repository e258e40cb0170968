import AxbyCore.Proofs.RingBufferSteps

/-! What the steps of a ring buffer do to its queue: the items that are published and
not yet passed. Only three steps change it, one of the writer and two of the reader. -/

namespace AxbyCore.RingBuffer.Proofs

universe u
variable {T : Type u} {size : Nat}

/-- The item at a position is in the queue. -/
def Queued (state : State T) (index : Nat) (item : T) : Prop :=
  state.popped ≤ index ∧ state.written[index]? = some item

/-- A `read` or `move_read` is in progress. -/
def InRead : ConsumerPoint T → Prop
  | .idle | .aborted | .clearTail | .clearStore _ => False
  | .latestHead _ | .latestTail _ _ | .latestStopped _ | .latestLoad _ | .latestStore _ _ => False
  | .sampleCounter call | .loopStopped call _ | .loopHead call _ | .loopTail call _ _ | .wait call _ | .parked call _
  | .resample call | .checkStopped call | .checkHead call | .checkTail call _ | .beginStopped call | .beginHead call
  | .beginTail call _ | .slotHead call | .copying call _ | .endSlot call _ _ | .endHead call _ | .endTail call _ _
  | .advanceLoad call _ | .advanceStore call _ _ => call.op ≠ .readLatest

/-- The item of a write in progress. -/
def writing : ProducerPoint T → Option T
  | .idle | .increment | .notify | .aborted => none
  | .fullTail value | .fullHead value _ | .slot value | .assigning value _ | .checkTail value _ | .checkHead value _ _
  | .checkSlot value _ | .loadTail value | .storeTail value _ => some value

/-- A notification only moves a parked reader. -/
theorem notifyOne_cases (state : State T) :
    state.notifyOne = state ∨ ∃ call old, state.consumer = .parked call old ∧
      state.notifyOne = { state with consumer := .resample call } := by
  unfold State.notifyOne
  cases point : state.consumer with
  | parked call old =>
    simp only
    split
    · exact .inl rfl
    · exact .inr ⟨call, old, rfl, rfl⟩
  | _ => exact .inl rfl

/-- A step of the writer: it refuses the item, publishes it, or leaves the queue alone. -/
inductive WriterEffect (before after : State T) : Prop where
  | quiet (written : after.written = before.written) (refusals : after.refusals = before.refusals)
      (item : writing after.producer = writing before.producer)
  | refuses (value : T) (tail : Nat) (point : before.producer = .fullHead value tail) (idle : after.producer = .idle)
      (written : after.written = before.written) (refusals : after.refusals = before.refusals ++ [before.held])
  | publishes (value : T) (tail : Nat) (point : before.producer = .storeTail value tail)
      (written : after.written = before.written ++ [value]) (refusals : after.refusals = before.refusals)
      (done : after.producer = .increment)

/-- What a step of the writer leaves to the reader. -/
structure WriterFrame (before after : State T) : Prop where
  popped : after.popped = before.popped
  results : after.results = before.results
  consumer : after.consumer = before.consumer ∨
    ∃ call old, before.consumer = .parked call old ∧ after.consumer = .resample call

theorem producerStep_frame {before after : State T} (moved : producerStep size before = some after) :
    WriterFrame before after := by
  cases point : before.producer with
  | idle | aborted => simp [producerStep, point] at moved
  | notify =>
    simp only [producerStep, point, Option.some.injEq] at moved
    subst after
    rcases notifyOne_cases before with same | ⟨call, old, parked, moved⟩
    · rw [same]
      exact ⟨rfl, rfl, .inl rfl⟩
    · rw [moved]
      exact ⟨rfl, rfl, .inr ⟨call, old, parked, rfl⟩⟩
  | fullHead | checkHead | checkSlot =>
    simp only [producerStep, point] at moved
    split at moved
    all_goals
      obtain rfl := Option.some.inj moved
      exact ⟨rfl, rfl, .inl rfl⟩
  | _ =>
    simp only [producerStep, point, Option.some.injEq] at moved
    subst after
    exact ⟨rfl, rfl, .inl rfl⟩

theorem producerStep_effect {before after : State T} (valid : Inv size before)
    (moved : producerStep size before = some after) : WriterEffect before after := by
  have ok := (producer_step_inv valid moved).producer
  cases point : before.producer with
  | idle | aborted => simp [producerStep, point] at moved
  | storeTail value tail =>
    simp only [producerStep, point, Option.some.injEq] at moved
    subst after
    exact .publishes value tail point rfl rfl rfl
  | notify =>
    simp only [producerStep, point, Option.some.injEq] at moved
    subst after
    rcases notifyOne_cases before with same | ⟨call, old, parked, moved⟩
    · rw [same]
      exact .quiet rfl rfl (by rw [point]; rfl)
    · rw [moved]
      exact .quiet rfl rfl (by rw [point]; rfl)
  | fullHead value tail =>
    simp only [producerStep, point] at moved
    split at moved
    · obtain rfl := Option.some.inj moved
      exact .refuses value tail point rfl rfl rfl
    · obtain rfl := Option.some.inj moved
      exact .quiet rfl rfl (by rw [point]; rfl)
  | checkHead | checkSlot =>
    simp only [producerStep, point] at moved
    split at moved
    all_goals
      obtain rfl := Option.some.inj moved
      first
        | exact ok.elim
        | exact .quiet rfl rfl (by rw [point]; rfl)
  | _ =>
    simp only [producerStep, point, Option.some.injEq] at moved
    subst after
    exact .quiet rfl rfl (by rw [point]; rfl)

/-- A step of a read: it goes on, returns without an item, or takes the first item. -/
inductive ReadEffect (before after : State T) : Prop where
  | goesOn (inRead : InRead after.consumer) (popped : after.popped = before.popped) (results : after.results = before.results)
  | fails (idle : after.consumer = .idle) (popped : after.popped = before.popped) (returned : after.returned = before.returned)
  | takes (item : T) (found : before.written[before.popped]? = some item) (idle : after.consumer = .idle)
      (popped : after.popped = before.popped + 1) (returned : after.returned = before.returned ++ [item])

theorem beginRead_inRead {call : Call} (inOrder : call.op ≠ .readLatest) : InRead (beginRead (T := T) call) := by
  cases op : call.op with
  | read | moveRead => simp [beginRead, op, InRead]
  | readLatest => exact absurd op inOrder

/-- What a step of the reader leaves to the writer. -/
theorem consumerStep_frame {before after : State T} (moved : consumerStep size before = some after) :
    after.written = before.written ∧ after.producer = before.producer ∧ after.refusals = before.refusals := by
  cases point : before.consumer with
  | idle | parked | aborted => simp [consumerStep, point] at moved
  | beginStopped | beginTail | latestTail | latestStopped | copying =>
    simp only [consumerStep, point] at moved
    split at moved
    all_goals
      obtain rfl := Option.some.inj moved
      exact ⟨rfl, rfl, rfl⟩
  | _ =>
    simp only [consumerStep, point, Option.some.injEq] at moved
    subst after
    exact ⟨rfl, rfl, rfl⟩

theorem readStep_effect {before after : State T} (valid : Inv size before) (inRead : InRead before.consumer)
    (moved : consumerStep size before = some after) : ReadEffect before after := by
  have ok := (consumer_step_inv valid moved).consumer
  cases point : before.consumer with
  | idle | parked | aborted => simp [consumerStep, point] at moved
  | latestHead | latestTail | latestStopped | latestLoad | latestStore | clearTail | clearStore =>
    rw [point] at inRead
    exact inRead.elim
  | sampleCounter | resample | loopHead | checkHead | beginHead | slotHead | endHead | advanceLoad =>
    rw [point] at inRead
    simp only [consumerStep, point, Option.some.injEq] at moved
    subst after
    exact .goesOn inRead rfl rfl
  | loopStopped | loopTail | wait | checkStopped =>
    rw [point] at inRead
    simp only [consumerStep, point, Option.some.injEq] at moved
    subst after
    refine .goesOn ?_ rfl rfl
    dsimp only
    split
    · first | exact inRead | exact beginRead_inRead inRead
    · exact inRead
  | endSlot call slot value =>
    rw [point] at inRead
    by_cases same : before.head = slot
    · simp only [consumerStep, point, same, if_true, Option.some.injEq] at moved
      subst after
      exact .goesOn inRead rfl rfl
    · simp only [consumerStep, point, same, if_false, Option.some.injEq] at moved
      subst after
      exact ok.elim
  | checkTail call head | endTail call value head =>
    rw [point] at inRead
    by_cases none : empty head before.tail = true
    · simp only [consumerStep, point, none, if_true, Option.some.injEq] at moved
      subst after
      exact ok.elim
    · simp only [consumerStep, point, none, Bool.false_eq_true, if_false, Option.some.injEq] at moved
      subst after
      refine .goesOn ?_ rfl rfl
      first | exact inRead | exact beginRead_inRead inRead
  | beginStopped call | beginTail call head =>
    rw [point] at inRead
    simp only [consumerStep, point] at moved
    split at moved
    · obtain rfl := Option.some.inj moved
      refine .fails rfl rfl ?_
      rw [returned_finish, Option.toList_none, List.append_nil]
    · obtain rfl := Option.some.inj moved
      exact .goesOn inRead rfl rfl
  | copying call slot =>
    rw [point] at inRead
    simp only [consumerStep, point] at moved
    split at moved
    · obtain rfl := Option.some.inj moved
      exact ok.elim
    · obtain rfl := Option.some.inj moved
      exact .goesOn inRead rfl rfl
  | advanceStore call value head =>
    have ready := valid.consumer
    rw [point] at ready
    obtain ⟨ready, found, rfl⟩ := ready
    have inside : before.popped < before.written.length := ready.nonempty
    have bounded := valid.indices.bounded
    have popped := storeHead_popped valid.indices (before.popped + 1) (by omega) (by omega)
    simp only [consumerStep, point, Option.some.injEq] at moved
    subst after
    refine .takes value found rfl popped ?_
    rw [returned_finish]
    rfl

/-- The two steps of `clear`: the second passes what was published at the first. -/
theorem clearTail_step {before after : State T} (point : before.consumer = .clearTail)
    (moved : consumerStep size before = some after) : after = { before with consumer := .clearStore before.tail } := by
  simp only [consumerStep, point, Option.some.injEq] at moved
  exact moved.symm

theorem clearStore_step {before after : State T} (valid : Inv size before) {count : Nat}
    (point : before.consumer = .clearStore (count % size)) (after_ : before.popped ≤ count)
    (within : count ≤ before.written.length) (moved : consumerStep size before = some after) :
    after.consumer = .idle ∧ after.popped = count := by
  have bounded := valid.indices.bounded
  have popped := storeHead_popped valid.indices count after_ (by omega)
  simp only [consumerStep, point, Option.some.injEq] at moved
  subst after
  exact ⟨rfl, popped⟩

end AxbyCore.RingBuffer.Proofs
