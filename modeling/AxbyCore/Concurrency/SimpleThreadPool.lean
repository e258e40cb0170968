import AxbyCore.Library.Transitions
import Mathlib.Data.Nat.Notation

/-! The pool of third_party/simple_thread_pool/simple_thread_pool.cpp: its worker
threads, the callers of `Push` and the destructor, in any order. What is done under
`queue_mutex_` is one step, and a notification is another one after it. A waiting
thread may also wake up for no reason. -/

namespace AxbyCore.Concurrency

/-- Where a thread is in `InfiniteLoop`. `locking` is before the mutex at the top of the loop,
`waiting` is in `condition_.wait` without the mutex, `woken` is in it and about to take the mutex. -/
inductive ThreadPoint (Job : Type) where
  | locking
  | waiting
  | woken
  | running (job : Job)
  | returned
  deriving DecidableEq, Repr

/-- Where the destructor is: not called, with `stop_` set, joining one thread after the other, at its end. -/
inductive DestructorPoint where
  | alive
  | stopping
  | joining (thread : Nat)
  | destroyed
  deriving DecidableEq, Repr

/-- `notifying` counts the calls of `Push` that are between the mutex and `notify_one`. The last
three fields have the jobs that were pushed, have been started and have returned. -/
structure SimpleThreadPool (Job : Type) where
  stop : Bool := false
  queue : List Job := []
  threads : List (ThreadPoint Job)
  notifying : Nat := 0
  destructor : DestructorPoint := .alive
  pushed : List Job := []
  started : List Job := []
  finished : List Job := []
  deriving DecidableEq, Repr

variable {Job : Type}

def SimpleThreadPool.new (numThreads : Nat) : SimpleThreadPool Job :=
  { threads := List.replicate numThreads .locking }

inductive PoolEvent (Job : Type) where
  | push (job : Job)
  | notifyOne (woken : Option Nat)
  | thread (index : Nat)
  | wakeup (index : Nat)
  | stop
  | notifyAll
  | join

def SimpleThreadPool.setThread (pool : SimpleThreadPool Job) (index : Nat) (point : ThreadPoint Job) :
    SimpleThreadPool Job :=
  { pool with threads := pool.threads.set index point }

/-- What a thread does with the mutex. The predicate of the wait is its test again, so that a thread that
has been woken does the same. -/
def SimpleThreadPool.locked (pool : SimpleThreadPool Job) (index : Nat) : SimpleThreadPool Job :=
  if pool.queue.isEmpty && !pool.stop then pool.setThread index .waiting
  else if pool.stop then pool.setThread index .returned
  else
    match pool.queue with
    | job :: rest => { pool.setThread index (.running job) with queue := rest, started := pool.started ++ [job] }
    -- a spurious wakeup
    | [] => pool.setThread index .locking

/-- The next step of a thread. -/
def SimpleThreadPool.advance (pool : SimpleThreadPool Job) (index : Nat) : Option (SimpleThreadPool Job) :=
  match pool.threads[index]? with
  | some .locking => some (pool.locked index)
  | some .woken => some (pool.locked index)
  | some (.running job) => some { pool.setThread index .locking with finished := pool.finished ++ [job] }
  | _ => none

def SimpleThreadPool.wake (pool : SimpleThreadPool Job) (index : Nat) : Option (SimpleThreadPool Job) :=
  match pool.threads[index]? with
  | some .waiting => some (pool.setThread index .woken)
  | _ => none

def ThreadPoint.notified : ThreadPoint Job → ThreadPoint Job
  | .waiting => .woken
  | point => point

def ThreadPoint.isWaiting : ThreadPoint Job → Bool
  | .waiting => true
  | _ => false

/-- `notify_one` wakes one of the waiting threads, if there is one. -/
def SimpleThreadPool.notifyOne (pool : SimpleThreadPool Job) : Option Nat → Option (SimpleThreadPool Job)
  | some index => pool.wake index
  | none => if pool.threads.any ThreadPoint.isWaiting then none else some pool

def SimpleThreadPool.act (pool : SimpleThreadPool Job) : PoolEvent Job → Option (SimpleThreadPool Job)
  | .push job =>
    some { pool with queue := pool.queue ++ [job], notifying := pool.notifying + 1, pushed := pool.pushed ++ [job] }
  | .notifyOne woken =>
    if pool.notifying = 0 then none
    else { pool with notifying := pool.notifying - 1 }.notifyOne woken
  | .thread index => pool.advance index
  | .wakeup index => pool.wake index
  | .stop => if pool.destructor = .alive then some { pool with stop := true, destructor := .stopping } else none
  | .notifyAll =>
    if pool.destructor = .stopping then
      some { pool with threads := pool.threads.map ThreadPoint.notified, destructor := .joining 0 }
    else none
  | .join =>
    match pool.destructor with
    | .joining index =>
      match pool.threads[index]? with
      | none => some { pool with destructor := .destroyed }
      | some .returned => some { pool with destructor := .joining (index + 1) }
      | some _ => none
    | _ => none

/-- Nothing may be called once the destructor has ended. -/
def SimpleThreadPool.next (pool : SimpleThreadPool Job) (event : PoolEvent Job) : Option (SimpleThreadPool Job) :=
  if pool.destructor = .destroyed then none else pool.act event

def PoolStep (before : SimpleThreadPool Job) (event : PoolEvent Job) (after : SimpleThreadPool Job) : Prop :=
  before.next event = some after

/-- A run from a new pool. -/
def PoolRun (numThreads : Nat) (events : List (PoolEvent Job)) (pool : SimpleThreadPool Job) : Prop :=
  Transitions.Run PoolStep (.new numThreads) events pool

/-! What a state has in it. -/

/-- `NumJobsQueued`. -/
def SimpleThreadPool.numJobsQueued (pool : SimpleThreadPool Job) : Nat := pool.queue.length

/-- The job that a thread is in. -/
def ThreadPoint.job? : ThreadPoint Job → Option Job
  | .running job => some job
  | _ => none

/-- The jobs that have been started and have not returned. -/
def SimpleThreadPool.running (pool : SimpleThreadPool Job) : List Job := pool.threads.filterMap ThreadPoint.job?

/-- About to take the mutex. -/
def ThreadPoint.isReady : ThreadPoint Job → Bool
  | .locking | .woken => true
  | _ => false

/-- How many threads are about to look at the queue. -/
def SimpleThreadPool.coming (pool : SimpleThreadPool Job) : Nat := pool.threads.countP ThreadPoint.isReady

end AxbyCore.Concurrency
