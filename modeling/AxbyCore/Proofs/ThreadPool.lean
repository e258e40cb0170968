import AxbyCore.Concurrency.SimpleThreadPool
import Mathlib.Algebra.BigOperators.Group.List.Basic
import Mathlib.Algebra.GroupWithZero.Nat
import Mathlib.Algebra.Order.BigOperators.Group.List
import Mathlib.Tactic.Common

/-! The jobs of a thread pool. Every job is started once and in order; a thread does not
sleep while there is a job that nobody is on the way to, so that all jobs return if the
threads go on; and the destructor ends without another job being started. -/

namespace AxbyCore.Proofs.ThreadPool
open Concurrency Transitions

variable {Job : Type} {pool before after : SimpleThreadPool Job} {event : PoolEvent Job}

/-! What a step does. -/

theorem thread_split {threads : List (ThreadPoint Job)} {index : Nat} {point : ThreadPoint Job}
    (found : threads[index]? = some point) :
    ∃ left right, threads = left ++ point :: right ∧ ∀ next, threads.set index next = left ++ next :: right := by
  obtain ⟨inside, rfl⟩ := List.getElem?_eq_some_iff.mp found
  refine ⟨threads.take index, threads.drop (index + 1), ?_, ?_⟩
  · rw [List.cons_getElem_drop_succ, List.take_append_drop]
  · intro next
    exact List.set_eq_take_append_cons_drop.trans (if_pos inside)

/-- What a thread does when it has the mutex, or has come back from its job. -/
inductive Advanced : SimpleThreadPool Job → SimpleThreadPool Job → Prop where
  | wait {pool left point right} (threads : pool.threads = left ++ point :: right) (ready : point.isReady = true)
      (empty : pool.queue = []) (going : pool.stop = false) :
      Advanced pool { pool with threads := left ++ .waiting :: right }
  | leave {pool left point right} (threads : pool.threads = left ++ point :: right) (ready : point.isReady = true)
      (stopped : pool.stop = true) :
      Advanced pool { pool with threads := left ++ .returned :: right }
  | take {pool left point right job rest} (threads : pool.threads = left ++ point :: right)
      (ready : point.isReady = true) (queue : pool.queue = job :: rest) (going : pool.stop = false) :
      Advanced pool { pool with
        threads := left ++ .running job :: right, queue := rest, started := pool.started ++ [job] }
  | finish {pool left job right} (threads : pool.threads = left ++ .running job :: right) :
      Advanced pool { pool with threads := left ++ .locking :: right, finished := pool.finished ++ [job] }

theorem locked_advanced {index : Nat} {point : ThreadPoint Job} (found : pool.threads[index]? = some point)
    (ready : point.isReady = true) : Advanced pool (pool.locked index) := by
  obtain ⟨left, right, threads, set⟩ := thread_split found
  unfold SimpleThreadPool.locked SimpleThreadPool.setThread
  simp only [set]
  cases stopped : pool.stop with
  | true => simpa [stopped] using Advanced.leave threads ready stopped
  | false =>
    cases queue : pool.queue with
    | nil => simpa [queue, stopped] using Advanced.wait threads ready queue stopped
    | cons job rest => simpa [queue, stopped] using Advanced.take threads ready queue stopped

theorem advance_advanced {index : Nat} (moved : pool.advance index = some after) : Advanced pool after := by
  unfold SimpleThreadPool.advance at moved
  split at moved
  next found =>
    obtain rfl := Option.some.inj moved
    exact locked_advanced found rfl
  next found =>
    obtain rfl := Option.some.inj moved
    exact locked_advanced found rfl
  next job found =>
    obtain rfl := Option.some.inj moved
    obtain ⟨left, right, threads, set⟩ := thread_split found
    simpa [SimpleThreadPool.setThread, set] using Advanced.finish threads
  next => cases moved

/-- A waiting thread wakes up. -/
theorem wake_split {index : Nat} (moved : pool.wake index = some after) :
    ∃ left right, pool.threads = left ++ .waiting :: right ∧ after = { pool with threads := left ++ .woken :: right } := by
  unfold SimpleThreadPool.wake at moved
  split at moved
  next found =>
    obtain rfl := Option.some.inj moved
    obtain ⟨left, right, threads, set⟩ := thread_split found
    exact ⟨left, right, threads, by rw [SimpleThreadPool.setThread, set]⟩
  next => cases moved

/-- All that a step does, by its event. -/
inductive Moved : SimpleThreadPool Job → PoolEvent Job → SimpleThreadPool Job → Prop where
  | push (pool : SimpleThreadPool Job) (job : Job) :
      Moved pool (.push job) { pool with
        queue := pool.queue ++ [job], notifying := pool.notifying + 1, pushed := pool.pushed ++ [job] }
  | notify {pool : SimpleThreadPool Job} {notifying left right} (index : Nat) (calls : pool.notifying = notifying + 1)
      (threads : pool.threads = left ++ .waiting :: right) :
      Moved pool (.notifyOne (some index)) { pool with notifying := notifying, threads := left ++ .woken :: right }
  | notifyNobody {pool : SimpleThreadPool Job} {notifying} (calls : pool.notifying = notifying + 1)
      (nobody : ∀ point ∈ pool.threads, point ≠ .waiting) :
      Moved pool (.notifyOne none) { pool with notifying := notifying }
  | thread {pool after : SimpleThreadPool Job} (index : Nat) (advanced : Advanced pool after) :
      Moved pool (.thread index) after
  | wakeup {pool : SimpleThreadPool Job} {left right} (index : Nat) (threads : pool.threads = left ++ .waiting :: right) :
      Moved pool (.wakeup index) { pool with threads := left ++ .woken :: right }
  | stop {pool : SimpleThreadPool Job} (alive : pool.destructor = .alive) :
      Moved pool .stop { pool with stop := true, destructor := .stopping }
  | notifyAll {pool : SimpleThreadPool Job} (stopping : pool.destructor = .stopping) :
      Moved pool .notifyAll { pool with threads := pool.threads.map ThreadPoint.notified, destructor := .joining 0 }
  | join {pool : SimpleThreadPool Job} {index} (joining : pool.destructor = .joining index)
      (returned : pool.threads[index]? = some .returned) :
      Moved pool .join { pool with destructor := .joining (index + 1) }
  | joined {pool : SimpleThreadPool Job} {index} (joining : pool.destructor = .joining index)
      (last : pool.threads.length ≤ index) :
      Moved pool .join { pool with destructor := .destroyed }

theorem isWaiting_iff {point : ThreadPoint Job} : point.isWaiting = true ↔ point = .waiting := by
  cases point <;> simp [ThreadPoint.isWaiting]

theorem step_moved (moved : PoolStep before event after) : Moved before event after := by
  obtain ⟨_, moved⟩ := Option.ite_none_left_eq_some.mp moved
  cases event with
  | push job =>
    obtain rfl := Option.some.inj moved
    exact .push before job
  | notifyOne woken =>
    obtain ⟨calls, moved⟩ := Option.ite_none_left_eq_some.mp moved
    obtain ⟨notifying, calls⟩ := Nat.exists_eq_succ_of_ne_zero calls
    cases woken with
    | some index =>
      obtain ⟨left, right, threads, rfl⟩ := wake_split moved
      simpa [calls] using Moved.notify index calls threads
    | none =>
      obtain ⟨nobody, ⟨⟩⟩ := Option.ite_none_left_eq_some.mp moved
      have awake : ∀ point ∈ before.threads, point ≠ .waiting := by
        intro point member waiting
        exact nobody (List.any_eq_true.mpr ⟨point, member, isWaiting_iff.mpr waiting⟩)
      simpa [calls] using Moved.notifyNobody calls awake
  | thread index => exact .thread index (advance_advanced moved)
  | wakeup index =>
    obtain ⟨left, right, threads, rfl⟩ := wake_split moved
    exact .wakeup index threads
  | stop =>
    obtain ⟨alive, ⟨⟩⟩ := Option.ite_none_right_eq_some.mp moved
    exact .stop alive
  | notifyAll =>
    obtain ⟨stopping, ⟨⟩⟩ := Option.ite_none_right_eq_some.mp moved
    exact .notifyAll stopping
  | join =>
    dsimp only [SimpleThreadPool.act] at moved
    split at moved
    next index joining =>
      split at moved
      next last =>
        obtain rfl := Option.some.inj moved
        exact .joined joining (List.getElem?_eq_none_iff.mp last)
      next returned =>
        obtain rfl := Option.some.inj moved
        exact .join joining returned
      next => cases moved
    next => cases moved

/-! The invariant. -/

/-- The part of the invariant that a pool keeps to its end. -/
structure Accounted (numThreads : Nat) (pool : SimpleThreadPool Job) : Prop where
  count : pool.threads.length = numThreads
  order : pool.pushed = pool.started ++ pool.queue
  once : pool.started.Perm (pool.finished ++ pool.running)
  alive : pool.stop = false ↔ pool.destructor = .alive
  staying : pool.stop = false → ∀ point ∈ pool.threads, point ≠ .returned
  /-- A thread sleeps only while somebody is on the way to every job. -/
  handed : pool.stop = false → (∃ point ∈ pool.threads, point = .waiting) →
    pool.queue.length ≤ pool.notifying + pool.coming

theorem ready_cases {point : ThreadPoint Job} (ready : point.isReady = true) : point = .locking ∨ point = .woken := by
  cases point with
  | locking => exact .inl rfl
  | woken => exact .inr rfl
  | waiting | running _ | returned => cases ready

theorem ready_job {point : ThreadPoint Job} (ready : point.isReady = true) : point.job? = none := by
  cases ready_cases ready with
  | inl locking => rw [locking]; rfl
  | inr woken => rw [woken]; rfl

section
variable {left right : List (ThreadPoint Job)} {point next : ThreadPoint Job}

theorem running_split (threads : pool.threads = left ++ point :: right) :
    pool.running = left.filterMap ThreadPoint.job? ++ (point.job?.toList ++ right.filterMap ThreadPoint.job?) := by
  rw [SimpleThreadPool.running, threads, List.filterMap_append, List.filterMap_cons]
  cases point.job? with
  | none => rfl
  | some job => rfl

theorem coming_split (threads : pool.threads = left ++ point :: right) :
    pool.coming = left.countP ThreadPoint.isReady + right.countP ThreadPoint.isReady + point.isReady.toNat := by
  rw [SimpleThreadPool.coming, threads, List.countP_append, List.countP_cons]
  cases point.isReady with
  | true => simp; omega
  | false => simp

theorem running_placed (earlier left right : List Job) (job : Job) :
    (earlier ++ (left ++ job :: right)).Perm (job :: (earlier ++ (left ++ right))) := by
  rw [← List.append_assoc, ← List.append_assoc]
  exact List.perm_middle

/-- One thread has moved, and no thread has returned. -/
theorem staying_split {pool after : SimpleThreadPool Job} (threads : pool.threads = left ++ point :: right)
    (others : ∀ point ∈ pool.threads, point ≠ .returned) (stays : next ≠ .returned)
    (moved : after.threads = left ++ next :: right) : ∀ point ∈ after.threads, point ≠ .returned := by
  rw [threads, List.forall_mem_append, List.forall_mem_cons] at others
  rw [moved, List.forall_mem_append, List.forall_mem_cons]
  exact ⟨others.1, stays, others.2.2⟩

/-- Who waits besides a thread that has moved has waited before. -/
theorem waiting_split (threads : pool.threads = left ++ point :: right) (awake : next ≠ .waiting)
    (waits : ∃ other ∈ left ++ next :: right, other = .waiting) : ∃ other ∈ pool.threads, other = .waiting := by
  obtain ⟨other, member, rfl⟩ := waits
  refine ⟨.waiting, ?_, rfl⟩
  rw [threads]
  simp only [List.mem_append, List.mem_cons] at member ⊢
  cases member with
  | inl before => exact .inl before
  | inr member => exact .inr (.inr (member.resolve_left (Ne.symm awake)))

end

theorem accounted_advanced {numThreads : Nat} (advanced : Advanced before after) (accounted : Accounted numThreads before) :
    Accounted numThreads after := by
  obtain ⟨count, order, once, alive, staying, handed⟩ := accounted
  cases advanced with
  | wait threads ready empty going =>
    constructor
    · simpa [threads] using count
    · exact order
    · rw [running_split threads, ready_job ready] at once
      rwa [running_split rfl]
    · exact alive
    · intro going
      exact staying_split threads (staying going) (by simp) rfl
    · intro _ _
      simp [empty]
  | leave threads ready stopped =>
    constructor
    · simpa [threads] using count
    · exact order
    · rw [running_split threads, ready_job ready] at once
      rwa [running_split rfl]
    · exact alive
    · intro going
      exact absurd going (by simp [stopped])
    · intro going
      exact absurd going (by simp [stopped])
  | @take left point right job rest threads ready queue going =>
    constructor
    · simpa [threads] using count
    · simpa [queue] using order
    · rw [running_split threads, ready_job ready] at once
      rw [running_split rfl]
      exact (List.perm_append_singleton job before.started).trans
        ((once.cons job).trans (running_placed before.finished _ _ job).symm)
    · exact alive
    · intro going
      exact staying_split threads (staying going) (by simp) rfl
    · intro going waits
      have ahead := handed going (waiting_split threads (by simp) waits)
      rw [coming_split threads, ready, queue] at ahead
      rw [coming_split rfl]
      simp only [List.length_cons, Bool.toNat_true, ThreadPoint.isReady, Bool.toNat_false] at ahead ⊢
      omega
  | finish threads =>
    constructor
    · simpa [threads] using count
    · exact order
    · rw [running_split threads] at once
      rw [running_split rfl, List.append_assoc]
      exact once.trans ((running_placed before.finished _ _ _).trans List.perm_middle.symm)
    · exact alive
    · intro going
      exact staying_split threads (staying going) (by simp) rfl
    · intro going waits
      have ahead := handed going (waiting_split threads (by simp) waits)
      rw [coming_split threads] at ahead
      rw [coming_split rfl]
      simp only [ThreadPoint.isReady, Bool.toNat_true, Bool.toNat_false] at ahead ⊢
      omega

/-- A thread wakes up, for a call of `notify_one` or for none. -/
theorem accounted_woken {numThreads notifying : Nat} {left right : List (ThreadPoint Job)}
    (threads : pool.threads = left ++ .waiting :: right) (calls : pool.notifying ≤ notifying + 1)
    (accounted : Accounted numThreads pool) :
    Accounted numThreads { pool with notifying := notifying, threads := left ++ .woken :: right } := by
  obtain ⟨count, order, once, alive, staying, handed⟩ := accounted
  constructor
  · simpa [threads] using count
  · exact order
  · rw [running_split threads] at once
    rwa [running_split rfl]
  · exact alive
  · intro going
    exact staying_split threads (staying going) (by simp) rfl
  · intro going waits
    have ahead := handed going (waiting_split threads (by simp) waits)
    rw [coming_split threads] at ahead
    rw [coming_split rfl]
    simp only [ThreadPoint.isReady, Bool.toNat_true, Bool.toNat_false] at ahead ⊢
    omega

theorem notified_job (point : ThreadPoint Job) : point.notified.job? = point.job? := by
  cases point <;> rfl

theorem accounted_moved {numThreads : Nat} (moved : Moved before event after) (accounted : Accounted numThreads before) :
    Accounted numThreads after := by
  cases moved with
  | thread _ advanced => exact accounted_advanced advanced accounted
  | notify _ calls threads => exact accounted_woken threads (le_of_eq calls) accounted
  | wakeup _ threads => exact accounted_woken threads (Nat.le_succ _) accounted
  | push job =>
    obtain ⟨count, order, once, alive, staying, handed⟩ := accounted
    refine ⟨count, ?_, once, alive, staying, ?_⟩
    · rw [order, List.append_assoc]
    · intro going waits
      have ahead := handed going waits
      simp only [List.length_append, List.length_singleton, SimpleThreadPool.coming] at ahead ⊢
      omega
  | notifyNobody _ nobody =>
    obtain ⟨count, order, once, alive, staying, _⟩ := accounted
    refine ⟨count, order, once, alive, staying, ?_⟩
    intro _ waits
    obtain ⟨point, member, waiting⟩ := waits
    exact absurd waiting (nobody point member)
  | stop alive =>
    obtain ⟨count, order, once, _, _, _⟩ := accounted
    exact ⟨count, order, once, by simp, by simp, by simp⟩
  | notifyAll stopping =>
    obtain ⟨count, order, once, alive, _, _⟩ := accounted
    have stopped : before.stop = true := by
      cases stop : before.stop with
      | true => rfl
      | false => exact absurd (alive.mp stop) (by rw [stopping]; simp)
    refine ⟨by simpa using count, order, ?_, by simp [stopped], by simp [stopped], by simp [stopped]⟩
    have same : ThreadPoint.job? ∘ ThreadPoint.notified = (ThreadPoint.job? : ThreadPoint Job → Option Job) :=
      funext notified_job
    unfold SimpleThreadPool.running
    rwa [List.filterMap_map, same]
  | join joining _ =>
    obtain ⟨count, order, once, alive, staying, handed⟩ := accounted
    exact ⟨count, order, once, by rw [alive, joining]; simp, staying, handed⟩
  | joined joining _ =>
    obtain ⟨count, order, once, alive, staying, handed⟩ := accounted
    exact ⟨count, order, once, by rw [alive, joining]; simp, staying, handed⟩

theorem run_accounted {numThreads : Nat} {events : List (PoolEvent Job)} (run : PoolRun numThreads events pool) :
    Accounted numThreads pool := by
  apply run.keeps
  · intro before event after moved accounted
    exact accounted_moved (step_moved moved) accounted
  · constructor <;> simp [SimpleThreadPool.new, SimpleThreadPool.running, ThreadPoint.job?, List.filterMap_replicate]

/-! The pool in use. -/

/-- What the threads and the calls of `Push` do, if nobody wakes up for no reason. -/
def Drains : PoolEvent Job → Prop
  | .notifyOne _ | .thread _ => True
  | _ => False

/-- How many steps of its own a thread has before it waits. -/
def steps : ThreadPoint Job → Nat
  | .running _ => 2
  | .locking | .woken => 1
  | .waiting | .returned => 0

/-- A bound of what is to be done: a job can take two steps, and so can the thread that it wakes. -/
def load (pool : SimpleThreadPool Job) : Nat :=
  2 * pool.notifying + 2 * pool.queue.length + (pool.threads.map steps).sum

theorem steps_split {left right : List (ThreadPoint Job)} {point : ThreadPoint Job} :
    ((left ++ point :: right).map steps).sum =
      (left.map steps).sum + (right.map steps).sum + steps point := by
  simp
  omega

theorem ready_steps {point : ThreadPoint Job} (ready : point.isReady = true) : steps point = 1 := by
  cases ready_cases ready with
  | inl locking => rw [locking]; rfl
  | inr woken => rw [woken]; rfl

/-- Such a step does some of what is to be done, and nothing is added. -/
theorem drained_step {numThreads : Nat} (drains : Drains event) (moved : PoolStep before event after)
    (kept : Accounted numThreads before ∧ before.stop = false ∧ before.pushed = pool.pushed) :
    (Accounted numThreads after ∧ after.stop = false ∧ after.pushed = pool.pushed) ∧ load after + 1 ≤ load before := by
  obtain ⟨accounted, going, same⟩ := kept
  have moved := step_moved moved
  have after_accounted := accounted_moved moved accounted
  unfold load
  cases moved with
  | notify _ calls threads =>
    refine ⟨⟨after_accounted, going, same⟩, ?_⟩
    rw [threads, steps_split, steps_split, calls]
    simp only [steps]
    omega
  | notifyNobody calls _ =>
    refine ⟨⟨after_accounted, going, same⟩, ?_⟩
    dsimp only
    omega
  | thread _ advanced =>
    cases advanced with
    | wait threads ready empty _ =>
      refine ⟨⟨after_accounted, going, same⟩, ?_⟩
      rw [threads, steps_split, steps_split, ready_steps ready]
      simp only [steps]
      omega
    | leave threads ready stopped => exact absurd going (by simp [stopped])
    | take threads ready queue _ =>
      refine ⟨⟨after_accounted, going, same⟩, ?_⟩
      rw [threads, steps_split, steps_split, ready_steps ready, queue]
      simp only [steps, List.length_cons]
      omega
    | finish threads =>
      refine ⟨⟨after_accounted, going, same⟩, ?_⟩
      rw [threads, steps_split, steps_split]
      simp only [steps]
      omega
  | push | wakeup | stop | notifyAll | join | joined => cases drains

/-- Nothing is left to do. -/
def Settled (pool : SimpleThreadPool Job) : Prop := ∀ event after, Drains event → ¬ PoolStep pool event after

theorem alive_next (alive : pool.destructor = .alive) (event : PoolEvent Job) : pool.next event = pool.act event := by
  rw [SimpleThreadPool.next, if_neg (by rw [alive]; simp)]

theorem settled_notifying (alive : pool.destructor = .alive) (settled : Settled pool) : pool.notifying = 0 := by
  by_contra calls
  have enabled : ∀ woken after, { pool with notifying := pool.notifying - 1 }.notifyOne woken = some after → False := by
    intro woken after moved
    apply settled (.notifyOne woken) after trivial
    rw [PoolStep, alive_next alive, SimpleThreadPool.act, if_neg calls, moved]
  by_cases waits : pool.threads.any ThreadPoint.isWaiting = true
  · obtain ⟨point, member, waiting⟩ := List.any_eq_true.mp waits
    obtain ⟨index, found⟩ := List.mem_iff_getElem?.mp member
    rw [isWaiting_iff.mp waiting] at found
    apply enabled (some index)
    simp only [SimpleThreadPool.notifyOne, SimpleThreadPool.wake, found]
    rfl
  · apply enabled none
    rw [SimpleThreadPool.notifyOne, if_neg waits]

theorem settled_waiting {numThreads : Nat} (accounted : Accounted numThreads pool) (going : pool.stop = false)
    (settled : Settled pool) : ∀ point ∈ pool.threads, point = .waiting := by
  intro point member
  obtain ⟨index, found⟩ := List.mem_iff_getElem?.mp member
  have stuck : pool.advance index = none := by
    rw [Option.eq_none_iff_forall_not_mem]
    intro after moved
    apply settled (.thread index) after trivial
    rw [PoolStep, alive_next (accounted.alive.mp going)]
    exact moved
  rw [SimpleThreadPool.advance, found] at stuck
  cases point with
  | waiting => rfl
  | locking | woken | running _ => cases stuck
  | returned => exact absurd rfl (accounted.staying going _ member)

/-- While the pool is in use no job is lost, none is started twice, and a thread sleeps only while
somebody is on the way to every job in the queue. If no more jobs are pushed, the threads settle after a
bounded number of steps in any order, and then every job has been run. -/
theorem jobs_run {numThreads : Nat} (threads : 0 < numThreads) {events : List (PoolEvent Job)}
    (run : PoolRun numThreads events pool) (going : pool.stop = false) :
    pool.pushed = pool.started ++ pool.queue ∧ pool.started.Perm (pool.finished ++ pool.running) ∧
      (.waiting ∈ pool.threads → pool.queue.length ≤ pool.notifying + pool.coming) ∧
      ∀ further final, Run PoolStep pool further final → (∀ event ∈ further, Drains event) →
        further.length ≤ load pool ∧ (Settled final → final.finished.Perm pool.pushed ∧ final.numJobsQueued = 0) := by
  have accounted := run_accounted run
  refine ⟨accounted.order, accounted.once, fun waits => accounted.handed going ⟨_, waits, rfl⟩, ?_⟩
  intro further final rest within
  obtain ⟨⟨accounted, going, same⟩, spent⟩ := rest.spends
    (fun state => Accounted numThreads state ∧ state.stop = false ∧ state.pushed = pool.pushed) (fun _ => true) load within
    (fun before event after drains moved kept => drained_step drains moved kept) ⟨accounted, going, rfl⟩
  rw [List.countP_true] at spent
  refine ⟨Nat.le_of_add_right_le spent, ?_⟩
  intro settled
  have asleep := settled_waiting accounted going settled
  have empty : final.queue = [] := by
    apply List.eq_nil_of_length_eq_zero
    have someone : ∃ point ∈ final.threads, point = .waiting := by
      obtain ⟨point, member⟩ := List.exists_mem_of_length_pos (by rw [accounted.count]; exact threads)
      exact ⟨point, member, asleep point member⟩
    have nobody : final.coming = 0 := by
      apply List.countP_eq_zero.mpr
      intro point member
      rw [asleep point member]
      simp [ThreadPoint.isReady]
    have handed := accounted.handed going someone
    rw [settled_notifying (accounted.alive.mp going) settled, nobody] at handed
    omega
  have idle : final.running = [] := by
    apply List.filterMap_eq_nil_iff.mpr
    intro point member
    rw [asleep point member]
    rfl
  have order := accounted.order
  have once := accounted.once
  rw [idle, List.append_nil] at once
  rw [same, empty, List.append_nil] at order
  exact ⟨order ▸ once.symm, by rw [SimpleThreadPool.numJobsQueued, empty]; rfl⟩

/-- Thread 0 sleeps before the first job is pushed, and thread 1 is quicker than it once it is woken. -/
def twoJobs : List (PoolEvent Nat) := [.thread 0, .push 7, .notifyOne (some 0), .thread 1, .push 8, .thread 0]

def twoJobsPool : SimpleThreadPool Nat :=
  { threads := [.running 8, .running 7], notifying := 1, pushed := [7, 8], started := [7, 8] }

theorem twoJobs_run : PoolRun 2 twoJobs twoJobsPool := Run.of_execute rfl

/-- Both jobs end and nothing is left to do. -/
def drainedPool : SimpleThreadPool Nat :=
  { threads := [.waiting, .waiting], pushed := [7, 8], started := [7, 8], finished := [8, 7] }

theorem drained_run : Run PoolStep twoJobsPool [.thread 0, .thread 1, .notifyOne none, .thread 0, .thread 1] drainedPool :=
  Run.of_execute rfl

theorem drainedPool_settled : Settled drainedPool := by
  intro event after drains moved
  cases event with
  | notifyOne woken => cases moved
  | thread index =>
    match index with
    | 0 | 1 => cases moved
    | index + 2 => cases moved
  | push | wakeup | stop | notifyAll | join => exact drains

theorem jobs_run_twoJobs : drainedPool.finished.Perm drainedPool.pushed ∧ drainedPool.numJobsQueued = 0 :=
  ((jobs_run (by decide) twoJobs_run rfl).2.2.2 _ _ drained_run (by simp [Drains])).2 drainedPool_settled

/-! The destructor. -/

/-- What the destructor relies on, from `notify_all` on. -/
def Closing (pool : SimpleThreadPool Job) : Prop :=
  match pool.destructor with
  | .alive | .stopping => True
  | .joining thread =>
    (∀ index < thread, pool.threads[index]? = some .returned) ∧ ∀ point ∈ pool.threads, point ≠ .waiting
  | .destroyed => ∀ point ∈ pool.threads, point = .returned

/-- A thread that moves leaves the others where they are. -/
theorem split_getElem? {left right : List (ThreadPoint Job)} {point next : ThreadPoint Job} {index : Nat}
    (returned : (left ++ point :: right)[index]? = some .returned) (moves : point ≠ .returned) :
    (left ++ next :: right)[index]? = some .returned := by
  rw [List.getElem?_append] at returned ⊢
  split at returned
  next inside => rwa [if_pos inside]
  next outside =>
    rw [if_neg outside]
    cases place : index - left.length with
    | zero =>
      rw [place] at returned
      exact absurd (Option.some.inj returned) moves
    | succ later =>
      rw [place] at returned
      exact returned

/-- A thread has moved without going to sleep, after the destructor was called. -/
theorem closing_split {left right : List (ThreadPoint Job)} {point next : ThreadPoint Job}
    (threads : before.threads = left ++ point :: right) (moves : point ≠ .returned) (awake : next ≠ .waiting)
    (moved : after.threads = left ++ next :: right) (same : after.destructor = before.destructor)
    (closing : Closing before) : Closing after := by
  unfold Closing at closing ⊢
  rw [same]
  cases destructor : before.destructor with
  | alive | stopping => trivial
  | joining thread =>
    rw [destructor] at closing
    obtain ⟨gone, awoken⟩ := closing
    constructor
    · intro index earlier
      have returned := gone index earlier
      rw [threads] at returned
      rw [moved]
      exact split_getElem? returned moves
    · rw [threads, List.forall_mem_append, List.forall_mem_cons] at awoken
      rw [moved, List.forall_mem_append, List.forall_mem_cons]
      exact ⟨awoken.1, awake, awoken.2.2⟩
  | destroyed =>
    rw [destructor] at closing
    exact absurd (closing point (by rw [threads]; simp)) moves

theorem ready_stays {point : ThreadPoint Job} (ready : point.isReady = true) : point ≠ .returned := by
  intro returned
  rw [returned] at ready
  cases ready

theorem closing_alive (alive : pool.destructor = .alive) : Closing pool := by
  unfold Closing
  rw [alive]
  trivial

theorem closing_moved {numThreads : Nat} (moved : Moved before event after) (accounted : Accounted numThreads before)
    (closing : Closing before) : Closing after := by
  cases moved with
  | push | notifyNobody => exact closing
  | notify _ _ threads => exact closing_split threads (by simp) (by simp) rfl rfl closing
  | wakeup _ threads => exact closing_split threads (by simp) (by simp) rfl rfl closing
  | thread _ advanced =>
    cases advanced with
    | wait _ _ _ going => exact closing_alive (accounted.alive.mp going)
    | leave threads ready _ => exact closing_split threads (ready_stays ready) (by simp) rfl rfl closing
    | take threads ready _ _ => exact closing_split threads (ready_stays ready) (by simp) rfl rfl closing
    | finish threads => exact closing_split threads (by simp) (by simp) rfl rfl closing
  | stop _ => trivial
  | notifyAll _ =>
    constructor
    · intro index earlier
      cases earlier
    · intro point member
      obtain ⟨former, _, rfl⟩ := List.mem_map.mp member
      cases former <;> simp [ThreadPoint.notified]
  | join joining returned =>
    unfold Closing at closing
    rw [joining] at closing
    obtain ⟨gone, awake⟩ := closing
    refine ⟨?_, awake⟩
    intro index earlier
    cases Nat.lt_succ_iff_lt_or_eq.mp earlier with
    | inl earlier => exact gone index earlier
    | inr same => rwa [same]
  | joined joining last =>
    unfold Closing at closing
    rw [joining] at closing
    intro point member
    obtain ⟨index, found⟩ := List.mem_iff_getElem?.mp member
    have inside := (List.getElem?_eq_some_iff.mp found).choose
    exact Option.some.inj (found.symm.trans (closing.1 index (Nat.lt_of_lt_of_le inside last)))

/-- The steps that a thread still has once `stop_` is set. -/
def owed : ThreadPoint Job → Nat
  | .waiting | .running _ => 2
  | .locking | .woken => 1
  | .returned => 0

def destructorOwed (numThreads : Nat) : DestructorPoint → Nat
  | .alive | .stopping => numThreads + 2
  | .joining thread => numThreads - thread + 1
  | .destroyed => 0

def poolOwed (pool : SimpleThreadPool Job) : Nat :=
  (pool.threads.map owed).sum + destructorOwed pool.threads.length pool.destructor

def isPush : PoolEvent Job → Bool
  | .push _ | .notifyOne _ => true
  | _ => false

theorem owed_split {left right : List (ThreadPoint Job)} {point : ThreadPoint Job} :
    ((left ++ point :: right).map owed).sum = (left.map owed).sum + (right.map owed).sum + owed point := by
  simp
  omega

theorem ready_owed {point : ThreadPoint Job} (ready : point.isReady = true) : owed point = 1 := by
  cases ready_cases ready with
  | inl locking => rw [locking]; rfl
  | inr woken => rw [woken]; rfl

theorem notified_owed (threads : List (ThreadPoint Job)) :
    ((threads.map ThreadPoint.notified).map owed).sum ≤ (threads.map owed).sum := by
  induction threads with
  | nil => exact le_refl _
  | cons point threads ih =>
    have less : owed point.notified ≤ owed point := by cases point <;> simp [ThreadPoint.notified, owed]
    simp only [List.map_cons, List.sum_cons]
    omega

/-- What holds of a pool whose destructor has been called, when no job has been started since. -/
structure Stopped (numThreads : Nat) (started : List Job) (pool : SimpleThreadPool Job) : Prop where
  accounted : Accounted numThreads pool
  stopped : pool.stop = true
  closing : Closing pool
  same : pool.started = started

theorem Stopped.called {numThreads : Nat} {started : List Job} (stopped : Stopped numThreads started pool) :
    pool.destructor ≠ .alive := by
  intro alive
  have going := stopped.accounted.alive.mpr alive
  rw [stopped.stopped] at going
  cases going

/-- Every step but those of `Push` takes the destructor nearer to its end. -/
theorem stopped_step {numThreads : Nat} {started : List Job} (moved : PoolStep before event after)
    (kept : Stopped numThreads started before) :
    Stopped numThreads started after ∧ poolOwed after + (!isPush event).toNat ≤ poolOwed before := by
  have called := kept.called
  obtain ⟨accounted, stopped, closing, same⟩ := kept
  have moved := step_moved moved
  have closing_after := closing_moved moved accounted closing
  have accounted_after := accounted_moved moved accounted
  unfold poolOwed
  cases moved with
  | push job => exact ⟨⟨accounted_after, stopped, closing_after, same⟩, le_refl _⟩
  | notifyNobody => exact ⟨⟨accounted_after, stopped, closing_after, same⟩, le_refl _⟩
  | notify _ _ threads | wakeup _ threads =>
    refine ⟨⟨accounted_after, stopped, closing_after, same⟩, ?_⟩
    have length : (_ : List (ThreadPoint Job)).length = _ := accounted_after.count.trans accounted.count.symm
    rw [length, threads, owed_split, owed_split]
    simp only [owed, isPush, Bool.not_true, Bool.not_false, Bool.toNat_false, Bool.toNat_true]
    omega
  | thread _ advanced =>
    have length : after.threads.length = before.threads.length := accounted_after.count.trans accounted.count.symm
    rw [length]
    cases advanced with
    | wait _ _ _ going => exact absurd going (by simp [stopped])
    | leave threads ready _ =>
      refine ⟨⟨accounted_after, stopped, closing_after, same⟩, ?_⟩
      rw [threads, owed_split, owed_split, ready_owed ready]
      simp only [owed, isPush, Bool.not_false, Bool.toNat_true]
      omega
    | take _ _ _ going => exact absurd going (by simp [stopped])
    | finish threads =>
      refine ⟨⟨accounted_after, stopped, closing_after, same⟩, ?_⟩
      rw [threads, owed_split, owed_split]
      simp only [owed, isPush, Bool.not_false, Bool.toNat_true]
      omega
  | stop alive => exact absurd alive called
  | notifyAll stopping =>
    refine ⟨⟨accounted_after, stopped, closing_after, same⟩, ?_⟩
    have fewer := notified_owed before.threads
    simp only [stopping, destructorOwed, isPush, Bool.not_false, Bool.toNat_true, List.length_map]
    omega
  | join joining returned =>
    refine ⟨⟨accounted_after, stopped, closing_after, same⟩, ?_⟩
    have inside := (List.getElem?_eq_some_iff.mp returned).choose
    simp only [joining, destructorOwed, isPush, Bool.not_false, Bool.toNat_true]
    omega
  | joined joining _ =>
    refine ⟨⟨accounted_after, stopped, closing_after, same⟩, ?_⟩
    simp only [joining, destructorOwed, isPush, Bool.not_false, Bool.toNat_true]
    omega

theorem run_closing {numThreads : Nat} {events : List (PoolEvent Job)} (run : PoolRun numThreads events pool) :
    Accounted numThreads pool ∧ Closing pool := by
  have kept : Preserved PoolStep fun pool : SimpleThreadPool Job => Accounted numThreads pool ∧ Closing pool := by
    intro before event after moved held
    have moved := step_moved moved
    exact ⟨accounted_moved moved held.1, closing_moved moved held.1 held.2⟩
  exact run.keeps kept ⟨run_accounted (.refl _), trivial⟩

/-- What a thread that is awake or the destructor does itself. A spurious wakeup is not such an event. -/
def isOwn : PoolEvent Job → Bool
  | .thread _ | .notifyAll | .join => true
  | _ => false

/-- As long as the destructor has not ended, some thread or the destructor itself can go on. -/
theorem stopped_enabled {numThreads : Nat} {started : List Job} (stopped : Stopped numThreads started pool)
    (running : pool.destructor ≠ .destroyed) : ∃ event after, isOwn event = true ∧ PoolStep pool event after := by
  have enabled : ∀ event, pool.next event = pool.act event := by
    intro event
    rw [SimpleThreadPool.next, if_neg running]
  have closing := stopped.closing
  cases destructor : pool.destructor with
  | alive => exact absurd destructor stopped.called
  | stopping => exact ⟨.notifyAll, _, rfl, (enabled _).trans (if_pos destructor)⟩
  | destroyed => exact absurd destructor running
  | joining index =>
    unfold Closing at closing
    rw [destructor] at closing
    cases found : pool.threads[index]? with
    | none =>
      refine ⟨.join, { pool with destructor := .destroyed }, rfl, (enabled _).trans ?_⟩
      simp only [SimpleThreadPool.act, destructor, found]
    | some point =>
      have thread : ∀ after, pool.advance index = some after →
          ∃ event after, isOwn event = true ∧ PoolStep pool event after :=
        fun after advanced => ⟨.thread index, after, rfl, (enabled _).trans advanced⟩
      cases point with
      | returned =>
        refine ⟨.join, { pool with destructor := .joining (index + 1) }, rfl, (enabled _).trans ?_⟩
        simp only [SimpleThreadPool.act, destructor, found]
      | waiting => exact absurd rfl (closing.2 _ (List.mem_of_getElem? found))
      | locking | woken | running _ => exact thread _ (by rw [SimpleThreadPool.advance, found])

theorem owed_le (threads : List (ThreadPoint Job)) : (threads.map owed).sum ≤ 2 * threads.length := by
  induction threads with
  | nil => exact le_refl _
  | cons point threads ih =>
    have few : owed point ≤ 2 := by cases point <;> simp [owed]
    simp only [List.map_cons, List.sum_cons, List.length_cons]
    omega

theorem poolOwed_le (pool : SimpleThreadPool Job) : poolOwed pool ≤ 3 * pool.threads.length + 2 := by
  have threads := owed_le pool.threads
  unfold poolOwed
  cases pool.destructor with
  | alive | stopping | destroyed => simp only [destructorOwed]; omega
  | joining thread => simp only [destructorOwed]; omega

/-- Once its destructor is called the pool starts no job. Whatever the order of the steps, and whoever else calls
`Push`, a thread that is awake or the destructor can always go on, they need a bounded number of steps, and no thread
is left behind. -/
theorem destructor_ends {numThreads : Nat} {events : List (PoolEvent Job)} (run : PoolRun numThreads events pool)
    (stopped : pool.stop = true) {further : List (PoolEvent Job)} {final : SimpleThreadPool Job}
    (rest : Run PoolStep pool further final) :
    final.started = pool.started ∧ further.countP (fun event => !isPush event) ≤ 3 * numThreads + 2 ∧
      (final.destructor ≠ .destroyed → ∃ event after, isOwn event = true ∧ PoolStep final event after) ∧
      (final.destructor = .destroyed →
        (∀ point ∈ final.threads, point = .returned) ∧ final.finished.Perm final.started) := by
  obtain ⟨accounted, closing⟩ := run_closing run
  obtain ⟨kept, spent⟩ := rest.spends (Stopped numThreads pool.started) (fun event => !isPush event) poolOwed
    (fun _ _ => trivial) (fun before event after _ moved kept => stopped_step moved kept) ⟨accounted, stopped, closing, rfl⟩
  refine ⟨kept.same, ?_, stopped_enabled kept, ?_⟩
  · have bound := poolOwed_le pool
    rw [accounted.count] at bound
    omega
  · intro destroyed
    have closing := kept.closing
    unfold Closing at closing
    rw [destroyed] at closing
    refine ⟨closing, ?_⟩
    have idle : final.running = [] := by
      apply List.filterMap_eq_nil_iff.mpr
      intro point member
      rw [closing point member]
      rfl
    have once := kept.accounted.once
    rw [idle, List.append_nil] at once
    exact once.symm

/-- The destructor is called before the second job is taken, while the other thread is asleep. -/
def oneLeft : List (PoolEvent Nat) := [.thread 1, .push 7, .notifyOne (some 1), .thread 0, .thread 1, .push 8, .stop]

def oneLeftPool : SimpleThreadPool Nat :=
  { stop := true, queue := [8], threads := [.running 7, .waiting], notifying := 1, destructor := .stopping
    pushed := [7, 8], started := [7] }

/-- The sleeping thread has been woken. -/
def oneLeftWoken : SimpleThreadPool Nat :=
  { oneLeftPool with threads := [.running 7, .woken], destructor := .joining 0 }

def oneLeftEnd : SimpleThreadPool Nat :=
  { oneLeftPool with threads := [.returned, .returned], destructor := .destroyed, finished := [7] }

theorem oneLeft_run : PoolRun 2 oneLeft oneLeftPool := Run.of_execute rfl

theorem oneLeft_woken : Run PoolStep oneLeftPool [.notifyAll] oneLeftWoken := Run.of_execute rfl

theorem oneLeft_end :
    Run PoolStep oneLeftPool [.notifyAll, .thread 1, .thread 0, .thread 0, .join, .join, .join] oneLeftEnd :=
  Run.of_execute rfl

/-- From where one thread sleeps the destructor can go on, and so it can once it has woken it; in the end both have
returned. -/
theorem destructor_ends_oneLeft : .waiting ∈ oneLeftPool.threads ∧
    (∃ event after, isOwn event = true ∧ PoolStep oneLeftPool event after) ∧
    (∃ event after, isOwn event = true ∧ PoolStep oneLeftWoken event after) ∧
    oneLeftEnd.started = [7] ∧ (∀ point ∈ oneLeftEnd.threads, point = .returned) ∧ oneLeftEnd.finished.Perm [7] := by
  obtain ⟨-, -, begun, -⟩ := destructor_ends oneLeft_run rfl (.refl oneLeftPool)
  obtain ⟨-, -, woken, -⟩ := destructor_ends oneLeft_run rfl oneLeft_woken
  obtain ⟨same, -, -, ended⟩ := destructor_ends oneLeft_run rfl oneLeft_end
  exact ⟨by simp [oneLeftPool], begun (by decide), woken (by decide), same, ended rfl⟩

end AxbyCore.Proofs.ThreadPool
