/-! Labelled transition systems. A run lists its events in the order they
happen, so a property of a run may speak about what its parties were asked to do. -/

namespace AxbyCore.Transitions

universe u v
variable {σ : Type u} {ε : Type v} {step : σ → ε → σ → Prop}

/-- A finite run. The last event is split off, because an invariant is carried
from the states before an event to the state after it. -/
inductive Run (step : σ → ε → σ → Prop) : σ → List ε → σ → Prop where
  | refl (state : σ) : Run step state [] state
  | snoc {start events middle event final} (prior : Run step start events middle)
      (last : step middle event final) : Run step start (events ++ [event]) final

def Reachable (initial : σ → Prop) (step : σ → ε → σ → Prop) (state : σ) : Prop :=
  ∃ start events, initial start ∧ Run step start events state

/-- Every step keeps the property, whatever the event. -/
def Preserved (step : σ → ε → σ → Prop) (property : σ → Prop) : Prop :=
  ∀ before event after, step before event after → property before → property after

theorem Run.single {before event after} (moved : step before event after) : Run step before [event] after :=
  .snoc (.refl before) moved

theorem Run.trans {start first middle last final} (one : Run step start first middle)
    (two : Run step middle last final) : Run step start (first ++ last) final := by
  induction two with
  | refl => simpa using one
  | snoc prior moved ih => simpa only [← List.append_assoc] using Run.snoc ih moved

theorem Run.mono {other : σ → ε → σ → Prop} {start events final} (run : Run step start events final)
    (allowed : ∀ before event after, step before event after → other before event after) :
    Run other start events final := by
  induction run with
  | refl => exact .refl _
  | snoc prior moved ih => exact .snoc ih (allowed _ _ _ moved)

/-- A run keeps what every step keeps of the state and of the events before it. -/
theorem Run.history {start events final} (run : Run step start events final) (property : List ε → σ → Prop)
    (kept : ∀ earlier before event after, step before event after → property earlier before →
      property (earlier ++ [event]) after)
    (initially : property [] start) : property events final := by
  induction run with
  | refl => exact initially
  | snoc prior moved ih => exact kept _ _ _ _ moved ih

/-- A run whose events are all allowed keeps what allowed events keep. -/
theorem Run.keeps_allowed {property : σ → Prop} {allowed : ε → Prop} {start events final}
    (run : Run step start events final) (within : ∀ event ∈ events, allowed event)
    (kept : ∀ before event after, allowed event → step before event after → property before → property after)
    (initially : property start) : property final := by
  have whole := run.history (fun events state => (∀ event ∈ events, allowed event) → property state)
    (fun earlier before event after moved holds within =>
      kept before event after (within event (by simp)) moved (holds fun event member => within event (by simp [member])))
    (fun _ => initially)
  exact whole within

theorem Run.keeps {property : σ → Prop} {start events final} (run : Run step start events final)
    (kept : Preserved step property) (initially : property start) : property final := by
  have within : ∀ event ∈ events, (fun _ : ε => True) event := fun _ _ => trivial
  exact run.keeps_allowed within (fun before event after _ => kept before event after) initially

/-- A run of allowed events has no more of those that count than they have to spend. -/
theorem Run.spends {allowed : ε → Prop} {start events final} (run : Run step start events final) (property : σ → Prop)
    (counts : ε → Bool) (cost : σ → Nat) (within : ∀ event ∈ events, allowed event)
    (kept : ∀ before event after, allowed event → step before event after → property before →
      property after ∧ cost after + (counts event).toNat ≤ cost before)
    (initially : property start) : property final ∧ events.countP counts + cost final ≤ cost start := by
  have whole := run.history
    (fun events state => (∀ event ∈ events, allowed event) → property state ∧ events.countP counts + cost state ≤ cost start)
    (fun earlier before event after moved holds within => by
      obtain ⟨held, spent⟩ := holds fun event member => within event (by simp [member])
      obtain ⟨holds, less⟩ := kept before event after (within event (by simp)) moved held
      refine ⟨holds, ?_⟩
      rw [List.countP_append, List.countP_singleton]
      cases counted : counts event with
      | true => simp [counted] at less ⊢; omega
      | false => simp [counted] at less ⊢; omega)
    (fun _ => ⟨initially, by simp⟩)
  exact whole within

theorem Reachable.start {initial : σ → Prop} {state} (holds : initial state) : Reachable initial step state :=
  ⟨state, [], holds, .refl state⟩

theorem Reachable.next {initial : σ → Prop} {before event after} (reached : Reachable initial step before)
    (moved : step before event after) : Reachable initial step after := by
  obtain ⟨start, events, first, run⟩ := reached
  exact ⟨start, events ++ [event], first, .snoc run moved⟩

theorem Reachable.invariant {initial property : σ → Prop} {state} (reached : Reachable initial step state)
    (initially : ∀ start, initial start → property start) (kept : Preserved step property) : property state := by
  obtain ⟨start, events, first, run⟩ := reached
  exact run.keeps kept (initially start first)

/-- Runs of a deterministic system, computed. -/
def execute (next : σ → ε → Option σ) (start : σ) (events : List ε) : Option σ :=
  events.foldlM next start

theorem Run.of_execute {next : σ → ε → Option σ} {start final : σ} {events : List ε}
    (executed : execute next start events = some final) :
    Run (fun before event after => next before event = some after) start events final := by
  induction events generalizing start with
  | nil =>
    obtain rfl : start = final := by simpa [execute] using executed
    exact .refl start
  | cons event events ih =>
    obtain ⟨middle, first, rest⟩ : ∃ middle, next start event = some middle ∧ execute next middle events = some final := by
      simpa [execute, List.foldlM_cons, Option.bind_eq_some_iff] using executed
    exact Run.trans (.single first) (ih rest)

end AxbyCore.Transitions
