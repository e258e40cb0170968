import AxbyCore.Proofs.PointCloudHandover
import AxbyCore.Realsense.PointCloudTeardown

/-! The destruction of a point-cloud job. The worker touches the members of the job only while
the job state is `started`, and that is what the destructor waits for. The wait ends, because
a job is a bounded number of steps and none of them waits for the main thread. -/

namespace AxbyCore.Proofs.PointCloudTeardown
open Realsense Realsense.Proofs Transitions

variable {geometry : Geometry}

/-! What a job has left to do. -/

def points (viewer : Viewer) : Nat := viewer.xyzsRgbcloud.length / 3

/-- How many steps the worker has before it waits for another job. -/
def remaining (viewer : Viewer) : WorkerPoint → Nat
  | .waiting => viewer.queued * (3 * pixels viewer.depth.streamMeta + 9)
  | .preparing => 3 * pixels viewer.depth.streamMeta + 8
  | .clearXyzs _ => 3 * pixels viewer.depth.streamMeta + 7
  | .lifting _ idx => (pixels viewer.depth.streamMeta - idx) + 2 * pixels viewer.depth.streamMeta + 6
  | .clearRgbs _ => 2 * points viewer + 5
  | .coloring _ i => (points viewer - i) + points viewer + 4
  | .moving _ i => (points viewer - i) + 3
  | .checkComplete => 2
  | .storeComplete => 1

theorem liftPixel_length {depth : StreamMeta} {image : List UInt16} {before after : List UInt32} {idx : Nat}
    (lifted : liftPixel geometry depth image before idx = some after) : after.length ≤ before.length + 3 := by
  unfold liftPixel at lifted
  obtain ⟨zi, -, lifted⟩ := Option.bind_eq_some_iff.mp lifted
  split at lifted
  · obtain rfl := Option.some.inj lifted
    omega
  · obtain ⟨xyz, -, lifted⟩ := Option.bind_eq_some_iff.mp lifted
    obtain rfl := Option.some.inj lifted
    simp

theorem lifted_length {depth : StreamMeta} {image : List UInt16} {xyzs : List UInt32} {count : Nat}
    (lifted : (List.range count).foldlM (liftPixel geometry depth image) [] = some xyzs) : xyzs.length ≤ 3 * count := by
  induction count generalizing xyzs with
  | zero =>
    obtain rfl := Option.some.inj lifted
    exact Nat.zero_le _
  | succ count ih =>
    rw [foldlM_range_succ] at lifted
    obtain ⟨middle, first, last⟩ := Option.bind_eq_some_iff.mp lifted
    have earlier := ih first
    have one := liftPixel_length last
    omega

/-- Every step of the worker is one less to do. -/
theorem remaining_move {viewer after : Viewer} (invariant : JobInvariant geometry viewer)
    (move : WorkerMove geometry viewer after) : remaining after after.worker + 1 ≤ remaining viewer viewer.worker := by
  have progress := invariant.progress
  cases move with
  | takes point queued =>
    rw [point]
    simp only [remaining]
    exact Nat.le_mul_of_pos_left _ (Nat.pos_of_ne_zero queued)
  | prepares point | clearsXyzs info point =>
    rw [point]
    simp only [remaining]
    omega
  | lifts info idx xyzs point more next =>
    rw [point] at progress ⊢
    obtain ⟨rfl, _, _⟩ := progress
    simp only [infoOf] at more
    simp only [remaining]
    omega
  | lifted info idx point last =>
    rw [point] at progress ⊢
    obtain ⟨rfl, inside, lifted⟩ := progress
    have few := lifted_length lifted
    simp only [infoOf] at last inside
    simp only [remaining, points]
    omega
  | clearsRgbs info point whole =>
    rw [point]
    simp only [remaining, points]
    omega
  | colors info i rgbs point more next =>
    rw [point]
    simp only [remaining, points]
    omega
  | colored info i point last counted same =>
    rw [point]
    simp only [remaining, points]
    omega
  | moves info i point more =>
    rw [point]
    simp only [remaining, points, movePoint_length]
    omega
  | moved info i point last =>
    rw [point]
    simp only [remaining]
    omega
  | checks point =>
    rw [point]
    exact Nat.le_refl _
  | completes point =>
    have started := invariant.started (.inl (by simp [point]))
    have single := invariant.single
    rw [started, point] at single
    simp only [busy, underway] at single
    have none : viewer.queued = 0 := by omega
    rw [point]
    simp only [remaining, none]
    omega

/-! Nothing stops the worker but a CHECK of the job. -/

/-- A loop that gets through all its passes gets through each. -/
theorem foldlM_range_pass {α : Type} {pass : α → Nat → Option α} {start before : α} {count index : Nat} {last : α}
    (whole : (List.range count).foldlM pass start = some last) (inside : index < count)
    (sofar : (List.range index).foldlM pass start = some before) : ∃ after, pass before index = some after := by
  induction count generalizing last with
  | zero => omega
  | succ count ih =>
    rw [foldlM_range_succ] at whole
    obtain ⟨middle, first, next⟩ := Option.bind_eq_some_iff.mp whole
    by_cases earlier : index < count
    · exact ih first earlier
    · obtain rfl : index = count := by omega
      obtain rfl := Option.some.inj (sofar.symm.trans first)
      exact ⟨last, next⟩

/-- What is computed on the way to a cloud. -/
structure Computes (geometry : Geometry) (color : ColorData) (depth : DepthData) (xyzs : List UInt32) (rgbs : List UInt8) :
    Prop where
  lifted : makeXyzsFromDepthImage geometry depth.streamMeta depth.data = some xyzs
  whole : xyzs.length % 3 = 0
  colored : (List.range (xyzs.length / 3)).foldlM
    (colorPoint geometry depth.streamMeta color.streamMeta color.data xyzs) [] = some rgbs
  counted : rgbs.length = 3 * (xyzs.length / 3)
  same : rgbs.length = xyzs.length

theorem pointcloud_computes {color : ColorData} {depth : DepthData} (computes : pointcloud geometry color depth ≠ none) :
    ∃ xyzs rgbs, Computes geometry color depth xyzs rgbs := by
  obtain ⟨cloud, computed⟩ := Option.ne_none_iff_exists'.mp computes
  obtain ⟨lifted, first, computed⟩ := Option.bind_eq_some_iff.mp computed
  obtain ⟨rgbs, colored, computed⟩ := Option.bind_eq_some_iff.mp computed
  obtain ⟨_, whole, colored⟩ := Option.bind_eq_some_iff.mp colored
  obtain ⟨out, looped, colored⟩ := Option.bind_eq_some_iff.mp colored
  obtain ⟨_, counted, colored⟩ := Option.bind_eq_some_iff.mp colored
  obtain ⟨_, same, _⟩ := Option.bind_eq_some_iff.mp colored
  exact ⟨lifted, out, first, guard_holds whole, looped, guard_holds counted, guard_holds same⟩

/-- While a job is underway and nothing is being pushed, the worker can go on. -/
theorem worker_goes_on {viewer : Viewer} (invariant : JobInvariant geometry viewer) (started : viewer.jobState = .started)
    (pushed : viewer.main ≠ .push) (computes : pointcloud geometry viewer.color viewer.depth ≠ none) :
    ∃ after, viewer.workerStep geometry = some after := by
  have progress := invariant.progress
  have single := invariant.single
  obtain ⟨whole, rgbs, computes⟩ := pointcloud_computes computes
  cases point : viewer.worker with
  | waiting =>
    have quiet : pushing viewer.main = 0 := by
      cases main : viewer.main with
      | push => exact absurd main pushed
      | _ => rfl
    rw [started, point, quiet] at single
    simp only [busy, underway] at single
    have queued : viewer.queued ≠ 0 := by omega
    exact ⟨_, by rw [Viewer.workerStep, point]; exact if_neg queued⟩
  | preparing | clearXyzs info => exact ⟨_, by rw [Viewer.workerStep, point]⟩
  | lifting info idx =>
    rw [point] at progress
    obtain ⟨rfl, inside, lifted⟩ := progress
    by_cases more : idx < pixels (infoOf viewer).depth
    · obtain ⟨xyzs, next⟩ := foldlM_range_pass computes.lifted more lifted
      refine ⟨{ viewer with xyzsRgbcloud := xyzs, worker := .lifting (infoOf viewer) (idx + 1) }, ?_⟩
      simp only [infoOf] at more
      simp only [Viewer.workerStep, point, infoOf, if_pos more, next, Option.map_some]
    · refine ⟨{ viewer with worker := .clearRgbs (infoOf viewer) }, ?_⟩
      simp only [Viewer.workerStep, point, if_neg more]
  | clearRgbs info =>
    rw [point] at progress
    obtain ⟨rfl, lifted⟩ := progress
    obtain rfl := Option.some.inj (computes.lifted.symm.trans lifted)
    exact ⟨_, by rw [Viewer.workerStep, point]; exact if_pos computes.whole⟩
  | coloring info i =>
    rw [point] at progress
    obtain ⟨rfl, lifted, _, inside, colored⟩ := progress
    obtain rfl := Option.some.inj (computes.lifted.symm.trans lifted)
    by_cases more : i < viewer.xyzsRgbcloud.length / 3
    · obtain ⟨out, next⟩ := foldlM_range_pass computes.colored more colored
      refine ⟨{ viewer with rgbsRgbcloud := out, worker := .coloring (infoOf viewer) (i + 1) }, ?_⟩
      simp only [Viewer.workerStep, point, infoOf, if_pos more, next, Option.map_some]
    · obtain rfl : i = viewer.xyzsRgbcloud.length / 3 := by omega
      have done : rgbs = viewer.rgbsRgbcloud := Option.some.inj (computes.colored.symm.trans colored)
      have counted : viewer.rgbsRgbcloud.length = 3 * (viewer.xyzsRgbcloud.length / 3) ∧
          viewer.rgbsRgbcloud.length = viewer.xyzsRgbcloud.length ∧ viewer.xyzsRgbcloud.length % 3 = 0 :=
        done ▸ ⟨computes.counted, computes.same, computes.whole⟩
      exact ⟨_, by rw [Viewer.workerStep, point]; exact (if_neg more).trans (if_pos counted)⟩
  | moving info i =>
    by_cases more : i < viewer.xyzsRgbcloud.length / 3
    · exact ⟨_, by rw [Viewer.workerStep, point]; exact if_pos more⟩
    · exact ⟨_, by rw [Viewer.workerStep, point]; exact if_neg more⟩
  | checkComplete | storeComplete => exact ⟨_, by rw [Viewer.workerStep, point]⟩

/-! Runs. -/

/-- What holds from the first test of the destructor on. -/
structure Closing (geometry : Geometry) (closing : ClosingViewer) : Prop where
  job : JobInvariant geometry closing.viewer
  left : closing.teardown ≠ .looping → closing.viewer.main = .sensors
  gone : closing.teardown = .destroyed → closing.viewer.jobState ≠ .started

theorem Closing.initial (color : ColorData) (depth : DepthData) :
    Closing geometry { viewer := { color, depth } } := by
  refine ⟨.initial color depth, ?_, ?_⟩
  · exact fun left => absurd rfl left
  · intro gone
    cases gone

/-- A worker that is not busy has nothing to do while no job is underway. -/
theorem idle_worker {viewer : Viewer} (invariant : JobInvariant geometry viewer) (idle : viewer.jobState ≠ .started) :
    viewer.workerStep geometry = none := by
  have waiting := invariant.waiting idle
  have single := invariant.single
  rw [underway_idle idle] at single
  have none : viewer.queued = 0 := by omega
  rw [Viewer.workerStep, waiting]
  exact if_pos none

/-- What a step can do, in the loop and behind it. -/
theorem closingStep_cases {before after : ClosingViewer} {event : ClosingEvent} (moved : ClosingStep geometry before event after) :
    (∃ inner, event = .viewer inner ∧ (before.teardown ≠ .looping → inner = .worker) ∧
      ViewerStep geometry before.viewer inner after.viewer ∧ after.teardown = before.teardown) ∨
    (event = .leave ∧ before.teardown = .looping ∧ before.viewer.main = .sensors ∧
      after = { before with teardown := .waiting }) ∨
    (event = .test ∧ before.teardown = .waiting ∧
      after = if before.viewer.jobState = .started then before else { before with teardown := .destroyed }) := by
  cases event with
  | viewer inner =>
    simp only [ClosingStep, ClosingViewer.next] at moved
    split at moved
    next => cases moved
    next allowed =>
      obtain ⟨viewer, step, rfl⟩ := Option.map_eq_some_iff.mp moved
      refine .inl ⟨inner, rfl, ?_, step, rfl⟩
      intro left
      cases inner with
      | worker => rfl
      | sensor | rest | main => exact absurd ⟨left, rfl⟩ allowed
  | leave =>
    simp only [ClosingStep, ClosingViewer.next] at moved
    split at moved
    next looping sensors =>
      split at moved
      next => cases moved
      next => exact .inr (.inl ⟨rfl, looping, sensors, (Option.some.inj moved).symm⟩)
    next => cases moved
  | test =>
    simp only [ClosingStep, ClosingViewer.next] at moved
    split at moved
    next waits => exact .inr (.inr ⟨rfl, waits.1, (Option.some.inj moved).symm⟩)
    next => cases moved

theorem workerStep_of {viewer after : Viewer} (moved : ViewerStep geometry viewer .worker after) :
    viewer.workerStep geometry = some after := by
  unfold ViewerStep Viewer.next at moved
  split at moved
  next => cases moved
  next => exact moved

theorem Closing.step {before after : ClosingViewer} {event : ClosingEvent} (moved : ClosingStep geometry before event after)
    (closing : Closing geometry before) : Closing geometry after := by
  obtain ⟨inner, rfl, behind, step, same⟩ | ⟨rfl, looping, sensors, rfl⟩ | ⟨rfl, waits, rfl⟩ := closingStep_cases moved
  · refine ⟨closing.job.step step, ?_, ?_⟩
    · intro left
      rw [same] at left
      obtain rfl := behind left
      rw [(worker_move closing.job (workerStep_of step)).frame.1]
      exact closing.left left
    · intro gone
      rw [same] at gone
      obtain rfl := behind (by rw [gone]; exact Teardown.noConfusion)
      have stuck := idle_worker closing.job (closing.gone gone)
      rw [workerStep_of step] at stuck
      cases stuck
  · refine ⟨closing.job, fun _ => sensors, ?_⟩
    intro gone
    cases gone
  · split
    next => exact closing
    next idle => exact ⟨closing.job, fun _ => closing.left (by rw [waits]; exact Teardown.noConfusion), fun _ => idle⟩

/-- The worker is never far from the end of its job. -/
theorem remaining_le {viewer : Viewer} (invariant : JobInvariant geometry viewer) (sensors : viewer.main = .sensors) :
    remaining viewer viewer.worker ≤ 3 * pixels viewer.depth.streamMeta + 9 := by
  have progress := invariant.progress
  have single := invariant.single
  have few : ∀ xyzs, makeXyzsFromDepthImage geometry viewer.depth.streamMeta viewer.depth.data = some xyzs →
      xyzs.length ≤ 3 * pixels viewer.depth.streamMeta := fun _ lifted => lifted_length lifted
  cases point : viewer.worker with
  | waiting =>
    rw [point, sensors] at single
    simp only [busy, pushing] at single
    have one : viewer.queued ≤ 1 := by
      have most : underway viewer.jobState ≤ 1 := by cases viewer.jobState <;> decide
      omega
    exact Nat.le_trans (Nat.mul_le_mul_right _ one) (by omega)
  | preparing | clearXyzs info | checkComplete | storeComplete =>
    simp only [remaining]
    omega
  | lifting info idx =>
    simp only [remaining]
    omega
  | clearRgbs info =>
    rw [point] at progress
    obtain ⟨rfl, lifted⟩ := progress
    have bound := few _ lifted
    simp only [remaining, points]
    omega
  | coloring info i =>
    rw [point] at progress
    obtain ⟨rfl, lifted, _⟩ := progress
    have bound := few _ lifted
    simp only [remaining, points]
    omega
  | moving info i =>
    rw [point] at progress
    obtain ⟨rfl, xyzs, lifted, _, _, _, _, moved⟩ := progress
    have bound := few _ lifted
    simp only [remaining, points]
    rw [moved, movePoints_length]
    omega

/-- What a run from the destructor on keeps. -/
structure Waits (geometry : Geometry) (color : ColorData) (depth : DepthData) (closing : ClosingViewer) : Prop where
  invariant : Closing geometry closing
  left : closing.teardown ≠ .looping
  color : closing.viewer.color = color
  depth : closing.viewer.depth = depth

theorem Waits.step {before after : ClosingViewer} {event : ClosingEvent} {color : ColorData} {depth : DepthData}
    (moved : ClosingStep geometry before event after) (waits : Waits geometry color depth before) :
    Waits geometry color depth after ∧
      remaining after.viewer after.viewer.worker + event.isWorker.toNat ≤ remaining before.viewer before.viewer.worker := by
  have closing := waits.invariant.step moved
  obtain ⟨inner, rfl, behind, step, same⟩ | ⟨_, looping, _, _⟩ | ⟨rfl, waiting, rfl⟩ := closingStep_cases moved
  · obtain rfl := behind waits.left
    have move := worker_move waits.invariant.job (workerStep_of step)
    obtain ⟨_, color, depth⟩ := move.frame
    have less := remaining_move waits.invariant.job move
    exact ⟨⟨closing, by rw [same]; exact waits.left, color.trans waits.color, depth.trans waits.depth⟩, less⟩
  · exact absurd looping waits.left
  · by_cases started : before.viewer.jobState = .started
    · rw [if_pos started]
      exact ⟨waits, Nat.le_refl _⟩
    · rw [if_neg started] at closing ⊢
      exact ⟨⟨closing, Teardown.noConfusion, waits.color, waits.depth⟩, Nat.le_refl _⟩

/-- No interleaving touches a job that is gone. From where its destructor begins to wait, the worker has no more steps than
three a pixel and nine, it can go on until the job is complete unless a CHECK of the job fails, and then the wait ends. -/
theorem job_torn_down {color : ColorData} {depth : DepthData} {events : List ClosingEvent} {closing : ClosingViewer}
    (run : ClosingRun geometry color depth events closing) :
    closing.viewer.aborted = false ∧
      (closing.teardown = .destroyed → ∀ after, ¬ ClosingStep geometry closing (.viewer .worker) after) ∧
      (closing.teardown = .waiting → ∀ further final, Run (ClosingStep geometry) closing further final →
        further.countP ClosingEvent.isWorker ≤ 3 * pixels closing.viewer.depth.streamMeta + 9 ∧
        (final.teardown = .waiting →
          (final.viewer.jobState = .started → pointcloud geometry closing.viewer.color closing.viewer.depth ≠ none →
            ∃ after, ClosingStep geometry final (.viewer .worker) after) ∧
          (final.viewer.jobState ≠ .started → ClosingStep geometry final .test { final with teardown := .destroyed }))) := by
  have invariant : Closing geometry closing :=
    Run.keeps run (fun _ _ _ moved => Closing.step moved) (Closing.initial color depth)
  refine ⟨invariant.job.unaborted, ?_, ?_⟩
  · intro gone after moved
    obtain ⟨inner, same, _, step, _⟩ | ⟨leave, _⟩ | ⟨test, _⟩ := closingStep_cases moved
    · obtain rfl := ClosingEvent.viewer.inj same
      have stuck := idle_worker invariant.job (invariant.gone gone)
      rw [workerStep_of step] at stuck
      cases stuck
    · cases leave
    · cases test
  · intro waiting further final rest
    have left : closing.teardown ≠ .looping := by
      rw [waiting]
      exact Teardown.noConfusion
    obtain ⟨waits, spent⟩ := rest.spends (Waits geometry closing.viewer.color closing.viewer.depth) ClosingEvent.isWorker
      (fun state => remaining state.viewer state.viewer.worker) (fun _ _ => trivial)
      (fun before event after _ moved waits => waits.step moved) ⟨invariant, left, rfl, rfl⟩
    have bound := remaining_le invariant.job (invariant.left left)
    refine ⟨by omega, ?_⟩
    intro still
    have alive := waits.invariant.job.unaborted
    constructor
    · intro started computes
      obtain ⟨after, moved⟩ := worker_goes_on waits.invariant.job started
        (by rw [waits.invariant.left waits.left]; exact MainPoint.noConfusion) (by rw [waits.color, waits.depth]; exact computes)
      refine ⟨{ final with viewer := after }, ?_⟩
      simp only [ClosingStep, ClosingViewer.next, Viewer.next, alive, Bool.false_eq_true, if_false, moved,
        ViewerEvent.isWorker, Bool.not_true, and_false, Option.map_some]
    · intro idle
      simp only [ClosingStep, ClosingViewer.next, still, alive, if_neg idle, Bool.not_false, and_self, if_true]

/-- Images of one pixel. -/
def dot : SensorImages :=
  let streamMeta : StreamMeta :=
    { id := ⟨⟨.replicate 24 0, 0⟩, .invalid, 0⟩, deviceName := ⟨.replicate 24 0, 0⟩, format := ⟨0⟩, fps := 30,
      intrinsics := ⟨1, 1, 0, 0, 0, 0⟩, extrinsics := .replicate 16 0, depthScale := 1 }
  { color := ⟨[], 7, 0, streamMeta, 0, [255, 0, 0]⟩, depth := ⟨[], 7, 0, streamMeta, 0, [9]⟩ }

def flat : Geometry where
  lift _ xidx yidx zi := some (UInt32.ofNat xidx, UInt32.ofNat yidx, zi.toUInt32)
  project _ _ xyz := (xyz.1.toNat, xyz.2.1.toNat)
  txApply _ _ xyz := xyz

/-- The loop is left while the worker has just begun. -/
def leftEarly : List ClosingEvent :=
  .viewer (.sensor dot) :: List.replicate 9 (.viewer .main) ++ [.viewer .worker, .leave, .test]

theorem job_torn_down_early : ∃ closing, ClosingRun flat dot.color dot.depth leftEarly closing ∧
    closing.teardown = .waiting ∧ ∃ after, ClosingStep flat closing (.viewer .worker) after := by
  have executed : (execute (ClosingViewer.next flat) { viewer := { color := dot.color, depth := dot.depth } } leftEarly).map
      (fun closing => (closing.teardown, closing.viewer.jobState, closing.viewer.color.data, closing.viewer.depth.data,
        (pointcloud flat closing.viewer.color closing.viewer.depth).isSome)) =
      some (.waiting, .started, [255, 0, 0], [9], true) := by decide +kernel
  obtain ⟨closing, reached, read⟩ := Option.map_eq_some_iff.mp executed
  simp only [Prod.mk.injEq] at read
  have run : ClosingRun flat dot.color dot.depth leftEarly closing := Run.of_execute reached
  have computes : pointcloud flat closing.viewer.color closing.viewer.depth ≠ none :=
    Option.isSome_iff_ne_none.mp read.2.2.2.2
  obtain ⟨_, goes⟩ := (job_torn_down run).2.2 read.1 [] closing (.refl _)
  exact ⟨closing, run, read.1, (goes read.1).1 read.2.1 computes⟩

end AxbyCore.Proofs.PointCloudTeardown
