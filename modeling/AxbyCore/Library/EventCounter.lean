import Mathlib.Algebra.Group.Nat.Defs

/-! A 64-bit event counter. A waiter samples it, tests its condition, and then
waits for the counter to differ from the sample; whoever makes the condition true
bumps the counter afterwards and then notifies. `bumps` is the number of bumps so
far, of which the counter shows the remainder. -/

namespace AxbyCore.EventCounter

def wrap (bumps : Nat) : Nat := bumps % 2 ^ 64

/-- The sample `old` was taken when the counter had been bumped `ticket` times. -/
structure Sampled (bumps old ticket : Nat) : Prop where
  earlier : ticket ≤ bumps
  value : old = wrap ticket

/-- What has happened since the test either has bumped the counter since the
sample or is about to. -/
def Announced (happened pending : Prop) (bumps ticket : Nat) : Prop := happened → ticket < bumps ∨ pending

/-- While the waiter is parked, every bump since its sample is followed by a
notification that is still to come. -/
def Noticed (notifying : Prop) (bumps ticket : Nat) : Prop := bumps < 2 ^ 64 → ticket < bumps → notifying

theorem Sampled.now (bumps : Nat) : Sampled bumps (wrap bumps) bumps := ⟨Nat.le_refl _, rfl⟩

theorem Sampled.later {bumps more old ticket : Nat} (sampled : Sampled bumps old ticket) (grows : bumps ≤ more) :
    Sampled more old ticket :=
  ⟨Nat.le_trans sampled.earlier grows, sampled.value⟩

/-- Short of a wrap, an unchanged counter has not been bumped since the sample. -/
theorem Sampled.current {bumps old ticket : Nat} (sampled : Sampled bumps old ticket) (bounded : bumps < 2 ^ 64)
    (unchanged : wrap bumps = old) : ticket = bumps := by
  have earlier := sampled.earlier
  have value := sampled.value
  unfold wrap at *
  rw [Nat.mod_eq_of_lt bounded] at unchanged
  rw [Nat.mod_eq_of_lt (by omega)] at value
  omega

theorem Announced.never {happened pending : Prop} {bumps ticket : Nat} (never : ¬ happened) :
    Announced happened pending bumps ticket :=
  fun occurred => absurd occurred never

theorem Announced.bumped {happened pending : Prop} {bumps more ticket : Nat} (earlier : ticket ≤ bumps)
    (grows : bumps < more) : Announced happened pending more ticket :=
  fun _ => Or.inl (Nat.lt_of_le_of_lt earlier grows)

theorem Noticed.imp {notifying still : Prop} {bumps ticket : Nat} (noticed : Noticed notifying bumps ticket)
    (kept : notifying → still) : Noticed still bumps ticket :=
  fun bounded later => kept (noticed bounded later)

theorem Noticed.soon {notifying : Prop} {bumps ticket : Nat} (soon : notifying) : Noticed notifying bumps ticket :=
  fun _ _ => soon

/-- A waiter may park, or stay parked after a notification, while the counter is unchanged. -/
theorem Noticed.unchanged {notifying : Prop} {bumps old ticket : Nat} (sampled : Sampled bumps old ticket)
    (unchanged : wrap bumps = old) : Noticed notifying bumps ticket := by
  intro bounded later
  have := sampled.current bounded unchanged
  omega

/-- No lost wakeup: what has happened is still being announced or notified. -/
theorem awake {happened pending notifying : Prop} {bumps ticket : Nat} (bounded : bumps < 2 ^ 64)
    (announced : Announced happened pending bumps ticket) (noticed : Noticed notifying bumps ticket) :
    ¬ happened ∨ pending ∨ notifying := by
  by_cases occurred : happened
  · rcases announced occurred with later | soon
    · exact Or.inr (Or.inr (noticed bounded later))
    · exact Or.inr (Or.inl soon)
  · exact Or.inl occurred

/-! A waiter that tests two conditions, a stop flag first and then whether there
is an item. -/

/-- What the waiter can rely on, against the state of the others. -/
structure Signals where
  bumps : Nat
  stopped : Prop
  stopping : Prop
  item : Prop
  publishing : Prop
  notifying : Prop

/-- How far the waiter has come since it sampled the counter. -/
inductive Stage where
  | away
  | sampled (old : Nat)
  | tested (old : Nat)
  | waiting (old : Nat)
  | parked (old : Nat)

/-- A notification releases a parked waiter once the counter has changed. -/
def Stage.notify (counter : Nat) : Stage → Stage
  | .parked old => if counter = old then .parked old else .away
  | stage => stage

namespace Signals

def StopAnnounced (signals : Signals) (ticket : Nat) : Prop :=
  Announced signals.stopped signals.stopping signals.bumps ticket

def ItemAnnounced (signals : Signals) (ticket : Nat) : Prop :=
  Announced signals.item signals.publishing signals.bumps ticket

def Ok (signals : Signals) : Stage → Prop
  | .away => True
  | .sampled old => ∃ ticket, Sampled signals.bumps old ticket
  | .tested old => ∃ ticket, Sampled signals.bumps old ticket ∧ signals.StopAnnounced ticket
  | .waiting old =>
    ∃ ticket, Sampled signals.bumps old ticket ∧ signals.StopAnnounced ticket ∧ signals.ItemAnnounced ticket
  | .parked old =>
    ∃ ticket, Sampled signals.bumps old ticket ∧ signals.StopAnnounced ticket ∧ signals.ItemAnnounced ticket ∧
      Noticed signals.notifying signals.bumps ticket

/-- What the others may do while the waiter is where it is. -/
structure Later (before after : Signals) : Prop where
  bumps : before.bumps ≤ after.bumps
  stop : ∀ ticket, ticket ≤ before.bumps → before.StopAnnounced ticket → after.StopAnnounced ticket
  item : ∀ ticket, ticket ≤ before.bumps → before.ItemAnnounced ticket → after.ItemAnnounced ticket
  notice : ∀ ticket, Noticed before.notifying before.bumps ticket → Noticed after.notifying after.bumps ticket

theorem Ok.later {before after : Signals} {stage : Stage} (valid : before.Ok stage) (later : before.Later after) :
    after.Ok stage := by
  cases stage with
  | away => trivial
  | sampled old =>
    obtain ⟨ticket, sampled⟩ := valid
    exact ⟨ticket, sampled.later later.bumps⟩
  | tested old =>
    obtain ⟨ticket, sampled, stop⟩ := valid
    exact ⟨ticket, sampled.later later.bumps, later.stop ticket sampled.earlier stop⟩
  | waiting old =>
    obtain ⟨ticket, sampled, stop, item⟩ := valid
    exact ⟨ticket, sampled.later later.bumps, later.stop ticket sampled.earlier stop,
      later.item ticket sampled.earlier item⟩
  | parked old =>
    obtain ⟨ticket, sampled, stop, item, notice⟩ := valid
    exact ⟨ticket, sampled.later later.bumps, later.stop ticket sampled.earlier stop,
      later.item ticket sampled.earlier item, later.notice ticket notice⟩

/-- A bump announces everything, and its notification is still to come. -/
theorem Later.bump {before after : Signals} (bumped : before.bumps < after.bumps) (notifying : after.notifying) :
    before.Later after where
  bumps := Nat.le_of_lt bumped
  stop := fun _ earlier _ => Announced.bumped earlier bumped
  item := fun _ earlier _ => Announced.bumped earlier bumped
  notice := fun _ _ => Noticed.soon notifying

/-- A step that bumps nothing, after which a condition holds only if it held
before or its announcement is still to come. -/
structure Quiet (before after : Signals) : Prop where
  bumps : after.bumps = before.bumps
  stopped : after.stopped → before.stopped ∨ after.stopping
  stopping : before.stopping → after.stopping
  item : after.item → before.item ∨ after.publishing
  publishing : before.publishing → after.publishing

theorem Quiet.stop {before after : Signals} (quiet : before.Quiet after) {ticket : Nat}
    (announced : before.StopAnnounced ticket) : after.StopAnnounced ticket := by
  intro happened
  rw [quiet.bumps]
  rcases quiet.stopped happened with older | soon
  · exact (announced older).imp id quiet.stopping
  · exact Or.inr soon

theorem Quiet.items {before after : Signals} (quiet : before.Quiet after) {ticket : Nat}
    (announced : before.ItemAnnounced ticket) : after.ItemAnnounced ticket := by
  intro happened
  rw [quiet.bumps]
  rcases quiet.item happened with older | soon
  · exact (announced older).imp id quiet.publishing
  · exact Or.inr soon

theorem Quiet.later {before after : Signals} (quiet : before.Quiet after)
    (notifying : before.notifying → after.notifying) : before.Later after where
  bumps := Nat.le_of_eq quiet.bumps.symm
  stop := fun _ _ => quiet.stop
  item := fun _ _ => quiet.items
  notice := fun ticket noticed => by
    rw [quiet.bumps]
    exact noticed.imp notifying

/-- A notification that leaves the waiter parked found the counter unchanged. -/
theorem Ok.notify {before after : Signals} {stage : Stage} (valid : before.Ok stage) (quiet : before.Quiet after) :
    after.Ok (stage.notify (wrap before.bumps)) := by
  have bumps := quiet.bumps
  cases stage with
  | away => trivial
  | sampled old =>
    obtain ⟨ticket, sampled⟩ := valid
    exact ⟨ticket, bumps ▸ sampled⟩
  | tested old =>
    obtain ⟨ticket, sampled, stop⟩ := valid
    exact ⟨ticket, bumps ▸ sampled, quiet.stop stop⟩
  | waiting old =>
    obtain ⟨ticket, sampled, stop, item⟩ := valid
    exact ⟨ticket, bumps ▸ sampled, quiet.stop stop, quiet.items item⟩
  | parked old =>
    obtain ⟨ticket, sampled, stop, item, _⟩ := valid
    simp only [Stage.notify]
    split
    next unchanged =>
      exact ⟨ticket, bumps ▸ sampled, quiet.stop stop, quiet.items item, bumps ▸ Noticed.unchanged sampled unchanged⟩
    next => trivial

/-- Sampling anew starts over. -/
theorem Ok.now (signals : Signals) : signals.Ok (.sampled (wrap signals.bumps)) :=
  ⟨signals.bumps, Sampled.now _⟩

theorem Ok.not_stopped {signals : Signals} {old : Nat} (valid : signals.Ok (.sampled old))
    (clear : ¬ signals.stopped) : signals.Ok (.tested old) := by
  obtain ⟨ticket, sampled⟩ := valid
  exact ⟨ticket, sampled, Announced.never clear⟩

theorem Ok.no_item {signals : Signals} {old : Nat} (valid : signals.Ok (.tested old))
    (none : ¬ signals.item) : signals.Ok (.waiting old) := by
  obtain ⟨ticket, sampled, stop⟩ := valid
  exact ⟨ticket, sampled, stop, Announced.never none⟩

theorem Ok.park {signals : Signals} {old : Nat} (valid : signals.Ok (.waiting old))
    (unchanged : wrap signals.bumps = old) : signals.Ok (.parked old) := by
  obtain ⟨ticket, sampled, stop, item⟩ := valid
  exact ⟨ticket, sampled, stop, item, Noticed.unchanged sampled unchanged⟩

/-- A parked waiter has nothing to do, or somebody is about to wake it. -/
theorem Ok.no_lost_wakeup {signals : Signals} {old : Nat} (valid : signals.Ok (.parked old))
    (bounded : signals.bumps < 2 ^ 64) :
    (¬ signals.item ∧ ¬ signals.stopped) ∨ signals.stopping ∨ signals.publishing ∨ signals.notifying := by
  obtain ⟨ticket, _, stop, item, notice⟩ := valid
  rcases awake bounded stop notice with clear | stopping | notifying
  · rcases awake bounded item notice with none | publishing | notifying
    · exact Or.inl ⟨none, clear⟩
    · exact Or.inr (Or.inr (Or.inl publishing))
    · exact Or.inr (Or.inr (Or.inr notifying))
  · exact Or.inr (Or.inl stopping)
  · exact Or.inr (Or.inr (Or.inr notifying))

end Signals

/-- A waiter and the counter it waits on. -/
structure Waiter where
  counter : Nat
  signals : Signals
  stage : Stage

structure Waiter.Ok (waiter : Waiter) : Prop where
  counter : waiter.counter = wrap waiter.signals.bumps
  waiting : waiter.signals.Ok waiter.stage

/-- A step of somebody else that bumps nothing and notifies nobody. -/
theorem Waiter.Ok.quiet {before after : Waiter} (kept : before.Ok) (counter : after.counter = before.counter)
    (stage : after.stage = before.stage) (quiet : before.signals.Quiet after.signals)
    (notifying : before.signals.notifying → after.signals.notifying) : after.Ok := by
  refine ⟨by rw [counter, quiet.bumps, kept.counter], ?_⟩
  rw [stage]
  exact kept.waiting.later (quiet.later notifying)

theorem Waiter.Ok.bump {before after : Waiter} (kept : before.Ok) (counter : after.counter = (before.counter + 1) % 2 ^ 64)
    (bumps : after.signals.bumps = before.signals.bumps + 1) (stage : after.stage = before.stage)
    (notifying : after.signals.notifying) : after.Ok := by
  refine ⟨?_, ?_⟩
  · rw [counter, bumps, kept.counter]
    exact Nat.mod_add_mod _ _ _
  · rw [stage]
    apply kept.waiting.later
    apply Signals.Later.bump _ notifying
    omega

theorem Waiter.Ok.notify {before after : Waiter} (kept : before.Ok) (counter : after.counter = before.counter)
    (stage : after.stage = before.stage.notify before.counter) (quiet : before.signals.Quiet after.signals) :
    after.Ok := by
  refine ⟨by rw [counter, quiet.bumps, kept.counter], ?_⟩
  rw [stage, kept.counter]
  exact kept.waiting.notify quiet

end AxbyCore.EventCounter
