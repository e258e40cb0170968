import AxbyCore.Realsense.PointCloudJob
import Mathlib.Tactic.Common

/-! The hand-over between the main loop and the worker of a point-cloud job. The job state
says who may touch the images and the clouds, and the worker is busy exactly while it is
`started`, between the push of the closure and the last store. -/

namespace AxbyCore.Realsense.Proofs
open Transitions

variable {geometry : Geometry}

/-! The computation of a job. -/

theorem foldlM_range_succ {α : Type} (pass : α → Nat → Option α) (start : α) (count : Nat) :
    (List.range (count + 1)).foldlM pass start = ((List.range count).foldlM pass start).bind fun value => pass value count := by
  simp [List.range_succ]

theorem guard_holds {holds : Prop} [Decidable holds] {value : Unit} (passed : (guard holds : Option Unit) = some value) :
    holds := by
  by_contra fails
  rw [guard, if_neg fails] at passed
  cases passed

theorem movePoint_length (depth color : StreamMeta) (xyzs : List UInt32) (i : Nat) :
    (movePoint geometry depth color xyzs i).length = xyzs.length := by
  unfold movePoint
  split
  next x y z rest same =>
    have length := congrArg List.length same
    simp only [List.length_drop, List.length_cons] at length
    simp only [List.length_append, List.length_take, List.length_cons]
    omega
  next => rfl

theorem movePoints_length (depth color : StreamMeta) (xyzs : List UInt32) (indices : List Nat) :
    (indices.foldl (movePoint geometry depth color) xyzs).length = xyzs.length := by
  induction indices generalizing xyzs with
  | nil => rfl
  | cons i indices ih =>
    rw [List.foldl_cons, ih, movePoint_length]

theorem pointcloud_lengths {color : ColorData} {depth : DepthData} {xyzs : List UInt32} {rgbs : List UInt8}
    (computed : pointcloud geometry color depth = some (xyzs, rgbs)) : xyzs.length = rgbs.length := by
  unfold pointcloud at computed
  obtain ⟨lifted, -, computed⟩ := Option.bind_eq_some_iff.mp computed
  obtain ⟨colored, -, computed⟩ := Option.bind_eq_some_iff.mp computed
  obtain ⟨_, -, computed⟩ := Option.bind_eq_some_iff.mp computed
  obtain ⟨_, same, computed⟩ := Option.bind_eq_some_iff.mp computed
  obtain ⟨rfl, rfl⟩ := Prod.mk.inj (Option.some.inj computed)
  rw [movePoints_length]
  exact (guard_holds same).symm

/-! The invariant. -/

/-- The job state that the main thread relies on. -/
def relies : MainPoint → Option JobState
  | .sensors | .testNone .. | .testComplete => none
  | .decide .. | .copyColor _ | .copyDepth _ | .checkNone _ | .checkStart _ | .storeStarted _ => some .none
  | .push => some .started
  | .checkNotNone | .testAgain | .swapXyzs | .swapRgbs | .checkReset | .storeNone => some .complete

def pushing : MainPoint → Nat
  | .push => 1
  | _ => 0

def busy : WorkerPoint → Nat
  | .waiting => 0
  | _ => 1

def underway : JobState → Nat
  | .started => 1
  | _ => 0

def unread : JobState → Nat
  | .none => 0
  | _ => 1

/-- Where the result of a complete job lies while the main thread takes it. -/
def result (viewer : Viewer) : MainPoint → List UInt32 × List UInt8
  | .swapRgbs => (viewer.pointcloudXyzs, viewer.rgbsRgbcloud)
  | .checkReset | .storeNone => (viewer.pointcloudXyzs, viewer.pointcloudRgbs)
  | _ => (viewer.xyzsRgbcloud, viewer.rgbsRgbcloud)

/-- What `start` has already copied of its arguments. -/
def Copied (color : ColorData) (depth : DepthData) : MainPoint → Prop
  | .copyDepth images => color = images.color
  | .checkNone images | .checkStart images | .storeStarted images => color = images.color ∧ depth = images.depth
  | _ => True

def infoOf (viewer : Viewer) : RgbdInfo := ⟨viewer.depth.streamMeta, viewer.color.streamMeta⟩

/-- What the worker has made of the images so far. -/
def Progress (geometry : Geometry) (viewer : Viewer) : WorkerPoint → Prop
  | .waiting | .preparing => True
  | .clearXyzs info => info = infoOf viewer
  | .lifting info idx => info = infoOf viewer ∧ idx ≤ pixels info.depth ∧
      (List.range idx).foldlM (liftPixel geometry info.depth viewer.depth.data) [] = some viewer.xyzsRgbcloud
  | .clearRgbs info => info = infoOf viewer ∧
      makeXyzsFromDepthImage geometry info.depth viewer.depth.data = some viewer.xyzsRgbcloud
  | .coloring info i => info = infoOf viewer ∧
      makeXyzsFromDepthImage geometry info.depth viewer.depth.data = some viewer.xyzsRgbcloud ∧
      viewer.xyzsRgbcloud.length % 3 = 0 ∧ i ≤ viewer.xyzsRgbcloud.length / 3 ∧
      (List.range i).foldlM (colorPoint geometry info.depth info.color viewer.color.data viewer.xyzsRgbcloud) [] =
        some viewer.rgbsRgbcloud
  | .moving info i => info = infoOf viewer ∧ ∃ lifted,
      makeXyzsFromDepthImage geometry info.depth viewer.depth.data = some lifted ∧
      makeRgbsFromXyzs geometry info.depth info.color viewer.color.data lifted = some viewer.rgbsRgbcloud ∧
      lifted.length % 3 = 0 ∧ viewer.rgbsRgbcloud.length = lifted.length ∧ i ≤ lifted.length / 3 ∧
      viewer.xyzsRgbcloud = (List.range i).foldl (movePoint geometry info.depth info.color) lifted
  | .checkComplete | .storeComplete =>
      pointcloud geometry viewer.color viewer.depth = some (viewer.xyzsRgbcloud, viewer.rgbsRgbcloud)

/-- A result is that of the last start before it was read. -/
def ResultOf (geometry : Geometry) (starts : List SensorImages) (entry : Nat × List UInt32 × List UInt8) : Prop :=
  ∃ images, (starts.take entry.1).getLast? = some images ∧ pointcloud geometry images.color images.depth = some entry.2

structure JobInvariant (geometry : Geometry) (viewer : Viewer) : Prop where
  unaborted : viewer.aborted = false
  relied : ∀ state, relies viewer.main = some state → viewer.jobState = state
  single : viewer.queued + busy viewer.worker + pushing viewer.main = underway viewer.jobState
  copied : Copied viewer.color viewer.depth viewer.main
  latest : viewer.jobState ≠ .none → viewer.starts.getLast? = some ⟨viewer.color, viewer.depth⟩
  progress : Progress geometry viewer viewer.worker
  ready : viewer.jobState = .complete → pointcloud geometry viewer.color viewer.depth = some (result viewer viewer.main)
  numbered : ∀ entry ∈ viewer.results, entry.1 + unread viewer.jobState ≤ viewer.starts.length
  ascending : (viewer.results.map Prod.fst).Pairwise (· < ·)
  results : ∀ entry ∈ viewer.results, ResultOf geometry viewer.starts entry

theorem JobInvariant.initial (color : ColorData) (depth : DepthData) :
    JobInvariant geometry { color, depth } := by
  refine ⟨rfl, ?_, rfl, trivial, ?_, trivial, ?_, ?_, List.Pairwise.nil, ?_⟩
  · intro state relied
    cases relied
  · intro started
    exact absurd rfl started
  · intro complete
    cases complete
  · intro entry member
    cases member
  · intro entry member
    cases member

theorem underway_idle {state : JobState} (idle : state ≠ .started) : underway state = 0 := by
  cases state with
  | none => rfl
  | complete => rfl
  | started => exact absurd rfl idle

section
variable {viewer : Viewer}

/-- While no job is underway the worker waits. -/
theorem JobInvariant.waiting (invariant : JobInvariant geometry viewer) (idle : viewer.jobState ≠ .started) :
    viewer.worker = .waiting := by
  have single := invariant.single
  have none := underway_idle idle
  rw [none] at single
  cases worker : viewer.worker with
  | waiting => rfl
  | _ =>
    rw [worker] at single
    simp only [busy] at single
    omega

theorem JobInvariant.started (invariant : JobInvariant geometry viewer)
    (work : viewer.worker ≠ .waiting ∨ 0 < viewer.queued) : viewer.jobState = .started := by
  by_contra idle
  have waiting := invariant.waiting idle
  have single := invariant.single
  have none := underway_idle idle
  rcases work with busy | queued
  · exact busy waiting
  · omega

/-- The main thread goes on without touching anything. -/
theorem JobInvariant.goto (invariant : JobInvariant geometry viewer) (point : MainPoint)
    (relied : ∀ state, relies point = some state → viewer.jobState = state)
    (push : pushing point = pushing viewer.main) (copied : Copied viewer.color viewer.depth point)
    (place : viewer.jobState = .complete → result viewer point = result viewer viewer.main) :
    JobInvariant geometry { viewer with main := point } := by
  refine ⟨invariant.unaborted, relied, ?_, copied, invariant.latest, ?_, ?_, invariant.numbered, invariant.ascending,
    invariant.results⟩
  · dsimp only
    rw [push]
    exact invariant.single
  · have progress := invariant.progress
    cases worker : viewer.worker <;> rw [worker] at progress <;> exact progress
  · intro complete
    have ready := invariant.ready complete
    rw [← place complete] at ready
    exact ready

/-- The worker goes on within a job. -/
theorem JobInvariant.work (invariant : JobInvariant geometry viewer) (started : viewer.jobState = .started)
    (worker : WorkerPoint) (queued : Nat) (xyzsRgbcloud : List UInt32) (rgbsRgbcloud : List UInt8)
    (single : queued + busy worker = viewer.queued + busy viewer.worker)
    (progress : Progress geometry { viewer with worker, queued, xyzsRgbcloud, rgbsRgbcloud } worker) :
    JobInvariant geometry { viewer with worker, queued, xyzsRgbcloud, rgbsRgbcloud } := by
  refine ⟨invariant.unaborted, invariant.relied, ?_, invariant.copied, invariant.latest, progress, ?_, invariant.numbered,
    invariant.ascending, invariant.results⟩
  · dsimp only
    rw [single]
    exact invariant.single
  · intro complete
    dsimp only at complete
    rw [started] at complete
    cases complete

/-- The main thread changes what nobody else looks at while no job is underway. -/
theorem JobInvariant.touch (invariant : JobInvariant geometry viewer) (idle : viewer.jobState ≠ .started) {after : Viewer}
    (unaborted : after.aborted = false) (jobState : after.jobState = viewer.jobState) (starts : after.starts = viewer.starts)
    (results : after.results = viewer.results) (worker : after.worker = viewer.worker) (queued : after.queued = viewer.queued)
    (push : pushing after.main = pushing viewer.main)
    (relied : ∀ state, relies after.main = some state → viewer.jobState = state)
    (copied : Copied after.color after.depth after.main)
    (ready : viewer.jobState = .complete → after.color = viewer.color ∧ after.depth = viewer.depth ∧
      result after after.main = result viewer viewer.main) : JobInvariant geometry after := by
  have waiting := invariant.waiting idle
  refine ⟨unaborted, ?_, ?_, copied, ?_, ?_, ?_, ?_, ?_, ?_⟩
  · rw [jobState]
    exact relied
  · rw [queued, worker, push, jobState]
    exact invariant.single
  · intro begun
    rw [jobState] at begun
    cases state : viewer.jobState with
    | none => exact absurd state begun
    | started => exact absurd state idle
    | complete =>
      obtain ⟨color, depth, -⟩ := ready state
      rw [starts, color, depth]
      exact invariant.latest begun
  · rw [worker, waiting]
    trivial
  · intro complete
    rw [jobState] at complete
    obtain ⟨color, depth, same⟩ := ready complete
    rw [color, depth, same]
    exact invariant.ready complete
  · rw [results, jobState, starts]
    exact invariant.numbered
  · rw [results]
    exact invariant.ascending
  · rw [results, starts]
    exact invariant.results

end

/-! The main thread. -/

theorem check_eq {viewer next : Viewer} {holds : Bool} (passed : holds = true) : viewer.check holds next = next := by
  simp [Viewer.check, passed]

/-- A start is counted, and leaves the earlier results with the images that they had. -/
theorem ResultOf.append {starts : List SensorImages} {entry : Nat × List UInt32 × List UInt8}
    (resulted : ResultOf geometry starts entry) (inside : entry.1 ≤ starts.length) (images : SensorImages) :
    ResultOf geometry (starts ++ [images]) entry := by
  obtain ⟨last, same, computed⟩ := resulted
  refine ⟨last, ?_, computed⟩
  rw [List.take_append_of_le_length inside]
  exact same

theorem JobInvariant.start {viewer : Viewer} {images : SensorImages} (invariant : JobInvariant geometry viewer)
    (point : viewer.main = .storeStarted images) :
    JobInvariant geometry { viewer with jobState := .started, main := .push, starts := viewer.starts ++ [images] } := by
  obtain ⟨color, depth⟩ : viewer.color = images.color ∧ viewer.depth = images.depth := by
    have copied := invariant.copied
    rwa [point] at copied
  have none : viewer.jobState = .none := invariant.relied .none (by simp [point, relies])
  have waiting := invariant.waiting (by simp [none])
  have single := invariant.single
  rw [none, point] at single
  refine ⟨invariant.unaborted, ?_, ?_, trivial, ?_, ?_, ?_, ?_, invariant.ascending, ?_⟩
  · intro state relied
    exact Option.some.inj relied
  · simp only [pushing, underway] at single ⊢
    omega
  · intro _
    simp [color, depth]
  · dsimp only
    rw [waiting]
    trivial
  · intro complete
    cases complete
  · intro entry member
    have earlier := invariant.numbered entry member
    simp only [none, unread] at earlier
    simp only [unread, List.length_append, List.length_singleton]
    omega
  · intro entry member
    have earlier := invariant.numbered entry member
    exact (invariant.results entry member).append (by omega) _

theorem JobInvariant.push {viewer : Viewer} (invariant : JobInvariant geometry viewer) (point : viewer.main = .push) :
    JobInvariant geometry { viewer with queued := viewer.queued + 1, main := .testComplete } := by
  have started : viewer.jobState = .started := invariant.relied .started (by simp [point, relies])
  have single := invariant.single
  rw [point] at single
  refine ⟨invariant.unaborted, ?_, ?_, trivial, invariant.latest, ?_, ?_, invariant.numbered, invariant.ascending,
    invariant.results⟩
  · intro state relied
    cases relied
  · simp only [pushing] at single ⊢
    omega
  · have progress := invariant.progress
    cases worker : viewer.worker <;> rw [worker] at progress <;> exact progress
  · intro complete
    dsimp only at complete
    rw [started] at complete
    cases complete

/-- Reading a result makes room for the next start, which gets a number of its own. -/
theorem JobInvariant.read {viewer : Viewer} (invariant : JobInvariant geometry viewer) (point : viewer.main = .storeNone) :
    JobInvariant geometry { viewer with
      jobState := .none
      main := .sensors
      results := viewer.results ++ [(viewer.starts.length, viewer.pointcloudXyzs, viewer.pointcloudRgbs)] } := by
  have complete : viewer.jobState = .complete := invariant.relied .complete (by simp [point, relies])
  have waiting := invariant.waiting (by simp [complete])
  have single := invariant.single
  rw [complete, point] at single
  have earlier : ∀ entry ∈ viewer.results, entry.1 < viewer.starts.length := by
    intro entry member
    have numbered := invariant.numbered entry member
    simp only [complete, unread] at numbered
    omega
  refine ⟨invariant.unaborted, ?_, ?_, trivial, ?_, ?_, ?_, ?_, ?_, ?_⟩
  · intro state relied
    cases relied
  · simp only [pushing, underway] at single ⊢
    omega
  · intro begun
    exact absurd rfl begun
  · dsimp only
    rw [waiting]
    trivial
  · intro complete
    cases complete
  · intro entry member
    rcases List.mem_append.mp member with older | newest
    · exact Nat.le_of_lt (earlier entry older)
    · obtain rfl := List.mem_singleton.mp newest
      exact Nat.le_refl _
  · simp only [List.map_append, List.map_singleton, List.pairwise_append]
    refine ⟨invariant.ascending, List.pairwise_singleton _ _, ?_⟩
    intro number member last held
    obtain ⟨entry, older, rfl⟩ := List.mem_map.mp member
    obtain rfl := List.mem_singleton.mp held
    exact earlier entry older
  · intro entry member
    rcases List.mem_append.mp member with older | newest
    · exact invariant.results entry older
    · obtain rfl := List.mem_singleton.mp newest
      refine ⟨⟨viewer.color, viewer.depth⟩, ?_, ?_⟩
      · dsimp only
        rw [List.take_length]
        exact invariant.latest (by simp [complete])
      · have ready := invariant.ready complete
        rw [point] at ready
        exact ready

theorem JobInvariant.mainStep {viewer after : Viewer} (moved : viewer.mainStep = some after)
    (invariant : JobInvariant geometry viewer) : JobInvariant geometry after := by
  have relied := invariant.relied
  cases point : viewer.main with
  | sensors => simp [Viewer.mainStep, point] at moved
  | testNone site images =>
    simp only [Viewer.mainStep, point, Option.some.injEq] at moved
    subst moved
    split
    next none => exact invariant.goto _ (by simp [relies, none]) (by simp [point, pushing]) trivial (by simp [none])
    next => exact invariant.goto _ (by simp [relies]) (by simp [point, pushing]) trivial (by simp [point, result])
  | decide site images =>
    have none : viewer.jobState = .none := relied .none (by simp [point, relies])
    simp only [Viewer.mainStep, point] at moved
    obtain ⟨wanted, _, rfl⟩ := Option.map_eq_some_iff.mp moved
    cases wanted with
    | true => exact invariant.goto _ (by simp [relies, none]) (by simp [point, pushing]) trivial (by simp [none])
    | false => exact invariant.goto _ (by simp [relies]) (by simp [point, pushing]) trivial (by simp [point, result])
  | copyColor images =>
    have none : viewer.jobState = .none := relied .none (by simp [point, relies])
    simp only [Viewer.mainStep, point, Option.some.injEq] at moved
    subst moved
    exact invariant.touch (by simp [none]) invariant.unaborted rfl rfl rfl rfl rfl (by simp [point, pushing])
      (by simp [relies, none]) rfl (by simp [none])
  | copyDepth images =>
    have none : viewer.jobState = .none := relied .none (by simp [point, relies])
    have copied := invariant.copied
    rw [point] at copied
    simp only [Viewer.mainStep, point, Option.some.injEq] at moved
    subst moved
    exact invariant.touch (by simp [none]) invariant.unaborted rfl rfl rfl rfl rfl (by simp [point, pushing])
      (by simp [relies, none]) ⟨copied, rfl⟩ (by simp [none])
  | checkNone images | checkStart images =>
    have none : viewer.jobState = .none := relied .none (by simp [point, relies])
    have copied := invariant.copied
    rw [point] at copied
    simp only [Viewer.mainStep, point, Option.some.injEq, check_eq (decide_eq_true none)] at moved
    subst moved
    exact invariant.goto _ (by simp [relies, none]) (by simp [point, pushing]) copied (by simp [none])
  | storeStarted images =>
    simp only [Viewer.mainStep, point, Option.some.injEq] at moved
    subst moved
    exact invariant.start point
  | push =>
    simp only [Viewer.mainStep, point, Option.some.injEq] at moved
    subst moved
    exact invariant.push point
  | testComplete =>
    simp only [Viewer.mainStep, point, Option.some.injEq] at moved
    subst moved
    split
    next complete =>
      exact invariant.goto _ (by simp [relies, complete]) (by simp [point, pushing]) trivial (by simp [point, result])
    next => exact invariant.goto _ (by simp [relies]) (by simp [point, pushing]) trivial (by simp [point, result])
  | checkNotNone =>
    have complete : viewer.jobState = .complete := relied .complete (by simp [point, relies])
    have passed : viewer.jobState ≠ .none := by simp [complete]
    simp only [Viewer.mainStep, point, Option.some.injEq, check_eq (decide_eq_true passed)] at moved
    subst moved
    exact invariant.goto _ (by simp [relies, complete]) (by simp [point, pushing]) trivial (by simp [point, result])
  | testAgain =>
    have complete : viewer.jobState = .complete := relied .complete (by simp [point, relies])
    simp only [Viewer.mainStep, point, Option.some.injEq] at moved
    subst moved
    rw [if_pos complete]
    exact invariant.goto _ (by simp [relies, complete]) (by simp [point, pushing]) trivial (by simp [point, result])
  | swapXyzs | swapRgbs =>
    have complete : viewer.jobState = .complete := relied .complete (by simp [point, relies])
    simp only [Viewer.mainStep, point, Option.some.injEq] at moved
    subst moved
    exact invariant.touch (by simp [complete]) invariant.unaborted rfl rfl rfl rfl rfl (by simp [point, pushing])
      (by simp [relies, complete]) trivial (by simp [point, result])
  | checkReset =>
    have complete : viewer.jobState = .complete := relied .complete (by simp [point, relies])
    simp only [Viewer.mainStep, point, Option.some.injEq, check_eq (decide_eq_true complete)] at moved
    subst moved
    exact invariant.goto _ (by simp [relies, complete]) (by simp [point, pushing]) trivial (by simp [point, result])
  | storeNone =>
    simp only [Viewer.mainStep, point, Option.some.injEq] at moved
    subst moved
    exact invariant.read point

/-! The worker. -/

/-- The last store hands the clouds to the main thread. -/
theorem JobInvariant.complete {viewer : Viewer} (invariant : JobInvariant geometry viewer)
    (point : viewer.worker = .storeComplete) :
    JobInvariant geometry { viewer with jobState := .complete, worker := .waiting } := by
  have started : viewer.jobState = .started := invariant.started (.inl (by simp [point]))
  have single := invariant.single
  have computed := invariant.progress
  rw [started, point] at single
  rw [point] at computed
  simp only [busy, underway] at single
  -- the closure has been pushed, and the main thread is at no point that relies on a state
  have free : relies viewer.main = none := by
    cases held : relies viewer.main with
    | none => rfl
    | some state =>
      obtain rfl : viewer.jobState = state := invariant.relied state held
      rw [started] at held
      cases main : viewer.main <;> simp [main, relies] at held
      simp only [main, pushing] at single
      omega
  have place : result viewer viewer.main = (viewer.xyzsRgbcloud, viewer.rgbsRgbcloud) := by
    cases main : viewer.main <;> simp [main, relies, result] at free ⊢
  refine ⟨invariant.unaborted, ?_, ?_, invariant.copied, ?_, trivial, ?_, ?_, invariant.ascending, invariant.results⟩
  · intro state relied
    rw [free] at relied
    cases relied
  · simp only [busy, underway]
    omega
  · intro _
    exact invariant.latest (by simp [started])
  · intro _
    exact computed.trans (congrArg some place.symm)
  · intro entry member
    have earlier := invariant.numbered entry member
    rw [started] at earlier
    exact earlier

/-- What a step of the worker does where the job state is as it expects. -/
inductive WorkerMove (geometry : Geometry) (viewer : Viewer) : Viewer → Prop where
  | takes (point : viewer.worker = .waiting) (queued : viewer.queued ≠ 0) :
    WorkerMove geometry viewer { viewer with queued := viewer.queued - 1, worker := .preparing }
  | prepares (point : viewer.worker = .preparing) :
    WorkerMove geometry viewer { viewer with worker := .clearXyzs (infoOf viewer) }
  | clearsXyzs (info : RgbdInfo) (point : viewer.worker = .clearXyzs info) :
    WorkerMove geometry viewer { viewer with xyzsRgbcloud := [], worker := .lifting info 0 }
  | lifts (info : RgbdInfo) (idx : Nat) (xyzsRgbcloud : List UInt32) (point : viewer.worker = .lifting info idx)
    (more : idx < pixels info.depth)
    (next : liftPixel geometry info.depth viewer.depth.data viewer.xyzsRgbcloud idx = some xyzsRgbcloud) :
    WorkerMove geometry viewer { viewer with xyzsRgbcloud, worker := .lifting info (idx + 1) }
  | lifted (info : RgbdInfo) (idx : Nat) (point : viewer.worker = .lifting info idx) (last : ¬ idx < pixels info.depth) :
    WorkerMove geometry viewer { viewer with worker := .clearRgbs info }
  | clearsRgbs (info : RgbdInfo) (point : viewer.worker = .clearRgbs info) (whole : viewer.xyzsRgbcloud.length % 3 = 0) :
    WorkerMove geometry viewer { viewer with rgbsRgbcloud := [], worker := .coloring info 0 }
  | colors (info : RgbdInfo) (i : Nat) (rgbsRgbcloud : List UInt8) (point : viewer.worker = .coloring info i)
    (more : i < viewer.xyzsRgbcloud.length / 3)
    (next : colorPoint geometry info.depth info.color viewer.color.data viewer.xyzsRgbcloud viewer.rgbsRgbcloud i =
      some rgbsRgbcloud) :
    WorkerMove geometry viewer { viewer with rgbsRgbcloud, worker := .coloring info (i + 1) }
  | colored (info : RgbdInfo) (i : Nat) (point : viewer.worker = .coloring info i)
    (last : ¬ i < viewer.xyzsRgbcloud.length / 3)
    (counted : viewer.rgbsRgbcloud.length = 3 * (viewer.xyzsRgbcloud.length / 3))
    (same : viewer.rgbsRgbcloud.length = viewer.xyzsRgbcloud.length) :
    WorkerMove geometry viewer { viewer with worker := .moving info 0 }
  | moves (info : RgbdInfo) (i : Nat) (point : viewer.worker = .moving info i)
    (more : i < viewer.xyzsRgbcloud.length / 3) :
    WorkerMove geometry viewer
      { viewer with
        xyzsRgbcloud := movePoint geometry info.depth info.color viewer.xyzsRgbcloud i
        worker := .moving info (i + 1) }
  | moved (info : RgbdInfo) (i : Nat) (point : viewer.worker = .moving info i)
    (last : ¬ i < viewer.xyzsRgbcloud.length / 3) :
    WorkerMove geometry viewer { viewer with worker := .checkComplete }
  | checks (point : viewer.worker = .checkComplete) :
    WorkerMove geometry viewer { viewer with worker := .storeComplete }
  | completes (point : viewer.worker = .storeComplete) :
    WorkerMove geometry viewer { viewer with jobState := .complete, worker := .waiting }

theorem worker_move {viewer after : Viewer} (invariant : JobInvariant geometry viewer)
    (moved : viewer.workerStep geometry = some after) : WorkerMove geometry viewer after := by
  cases point : viewer.worker with
  | waiting =>
    simp only [Viewer.workerStep, point, ite_eq_iff] at moved
    obtain ⟨-, none⟩ | ⟨queued, same⟩ := moved
    · cases none
    · obtain rfl := Option.some.inj same
      exact .takes point queued
  | preparing =>
    simp only [Viewer.workerStep, point, Option.some.injEq] at moved
    subst moved
    exact .prepares point
  | clearXyzs info =>
    simp only [Viewer.workerStep, point, Option.some.injEq] at moved
    subst moved
    exact .clearsXyzs info point
  | lifting info idx =>
    simp only [Viewer.workerStep, point] at moved
    split at moved
    next more =>
      obtain ⟨xyzs, next, rfl⟩ := Option.map_eq_some_iff.mp moved
      exact .lifts info idx xyzs point more next
    next last =>
      obtain rfl := Option.some.inj moved
      exact .lifted info idx point last
  | clearRgbs info =>
    simp only [Viewer.workerStep, point] at moved
    split at moved
    next whole =>
      obtain rfl := Option.some.inj moved
      exact .clearsRgbs info point whole
    next => cases moved
  | coloring info i =>
    simp only [Viewer.workerStep, point] at moved
    split at moved
    next more =>
      obtain ⟨rgbs, next, rfl⟩ := Option.map_eq_some_iff.mp moved
      exact .colors info i rgbs point more next
    next last =>
      split at moved
      next counted =>
        obtain rfl := Option.some.inj moved
        exact .colored info i point last counted.1 counted.2.1
      next => cases moved
  | moving info i =>
    simp only [Viewer.workerStep, point] at moved
    split at moved
    next more =>
      obtain rfl := Option.some.inj moved
      exact .moves info i point more
    next last =>
      obtain rfl := Option.some.inj moved
      exact .moved info i point last
  | checkComplete =>
    have started := invariant.started (.inl (by simp [point]))
    simp only [Viewer.workerStep, point, Option.some.injEq, check_eq (decide_eq_true started)] at moved
    subst moved
    exact .checks point
  | storeComplete =>
    simp only [Viewer.workerStep, point, Option.some.injEq] at moved
    subst moved
    exact .completes point

/-- The worker leaves the main thread and the images alone. -/
theorem WorkerMove.frame {viewer after : Viewer} (move : WorkerMove geometry viewer after) :
    after.main = viewer.main ∧ after.color = viewer.color ∧ after.depth = viewer.depth := by
  cases move <;> exact ⟨rfl, rfl, rfl⟩

theorem JobInvariant.workerStep {viewer after : Viewer} (moved : viewer.workerStep geometry = some after)
    (invariant : JobInvariant geometry viewer) : JobInvariant geometry after := by
  have progress := invariant.progress
  have started : viewer.worker ≠ .waiting → viewer.jobState = .started := fun busy => invariant.started (.inl busy)
  cases worker_move invariant moved with
  | takes point queued =>
    exact invariant.work (invariant.started (.inr (by omega))) .preparing _ _ _ (by simp only [point, busy]; omega) trivial
  | prepares point =>
    exact invariant.work (started (by simp [point])) (.clearXyzs _) _ _ _ (by simp [point, busy]) rfl
  | clearsXyzs info point =>
    rw [point] at progress
    exact invariant.work (started (by simp [point])) (.lifting info 0) _ _ _ (by simp [point, busy])
      ⟨progress, Nat.zero_le _, rfl⟩
  | lifts info idx xyzs point more next =>
    rw [point] at progress
    obtain ⟨taken, _, lifted⟩ := progress
    have longer : (List.range (idx + 1)).foldlM (liftPixel geometry info.depth viewer.depth.data) [] = some xyzs := by
      rw [foldlM_range_succ, lifted]
      exact next
    exact invariant.work (started (by simp [point])) (.lifting info (idx + 1)) _ _ _ (by simp [point, busy])
      ⟨taken, more, longer⟩
  | lifted info idx point last =>
    rw [point] at progress
    obtain ⟨taken, inside, lifted⟩ := progress
    obtain rfl : idx = pixels info.depth := by omega
    exact invariant.work (started (by simp [point])) (.clearRgbs info) _ _ _ (by simp [point, busy]) ⟨taken, lifted⟩
  | clearsRgbs info point whole =>
    rw [point] at progress
    obtain ⟨taken, lifted⟩ := progress
    exact invariant.work (started (by simp [point])) (.coloring info 0) _ _ _ (by simp [point, busy])
      ⟨taken, lifted, whole, Nat.zero_le _, rfl⟩
  | colors info i rgbs point more next =>
    rw [point] at progress
    obtain ⟨taken, lifted, whole, _, colored⟩ := progress
    have longer : (List.range (i + 1)).foldlM
        (colorPoint geometry info.depth info.color viewer.color.data viewer.xyzsRgbcloud) [] = some rgbs := by
      rw [foldlM_range_succ, colored]
      exact next
    exact invariant.work (started (by simp [point])) (.coloring info (i + 1)) _ _ _ (by simp [point, busy])
      ⟨taken, lifted, whole, more, longer⟩
  | colored info i point last counted same =>
    rw [point] at progress
    obtain ⟨taken, lifted, whole, inside, colored⟩ := progress
    obtain rfl : i = viewer.xyzsRgbcloud.length / 3 := by omega
    have made : makeRgbsFromXyzs geometry info.depth info.color viewer.color.data viewer.xyzsRgbcloud =
        some viewer.rgbsRgbcloud := by
      have numbers : 3 * (viewer.xyzsRgbcloud.length / 3) = viewer.xyzsRgbcloud.length := by omega
      simp [makeRgbsFromXyzs, guard, whole, colored, same, numbers]
    exact invariant.work (started (by simp [point])) (.moving info 0) _ _ _ (by simp [point, busy])
      ⟨taken, viewer.xyzsRgbcloud, lifted, made, whole, same, Nat.zero_le _, rfl⟩
  | moves info i point more =>
    rw [point] at progress
    obtain ⟨taken, points, lifted, made, whole, same, inside, sofar⟩ := progress
    have length : viewer.xyzsRgbcloud.length = points.length := by rw [sofar, movePoints_length]
    have longer : movePoint geometry info.depth info.color viewer.xyzsRgbcloud i =
        (List.range (i + 1)).foldl (movePoint geometry info.depth info.color) points := by
      rw [List.range_succ, List.foldl_append, ← sofar]
      rfl
    exact invariant.work (started (by simp [point])) (.moving info (i + 1)) _ _ _ (by simp [point, busy])
      ⟨taken, points, lifted, made, whole, same, by omega, longer⟩
  | moved info i point last =>
    rw [point] at progress
    obtain ⟨taken, points, lifted, made, whole, same, inside, sofar⟩ := progress
    have length : viewer.xyzsRgbcloud.length = points.length := by rw [sofar, movePoints_length]
    obtain rfl : i = points.length / 3 := by omega
    have computed : pointcloud geometry viewer.color viewer.depth = some (viewer.xyzsRgbcloud, viewer.rgbsRgbcloud) := by
      subst taken
      simp only [infoOf] at lifted made sofar
      simp [pointcloud, guard, lifted, made, whole, same, sofar]
    exact invariant.work (started (by simp [point])) .checkComplete _ _ _ (by simp [point, busy]) computed
  | checks point =>
    rw [point] at progress
    exact invariant.work (started (by simp [point])) .storeComplete _ _ _ (by simp [point, busy]) progress
  | completes point => exact invariant.complete point

/-! Runs. -/

theorem JobInvariant.step {before after : Viewer} {event : ViewerEvent} (moved : ViewerStep geometry before event after)
    (invariant : JobInvariant geometry before) : JobInvariant geometry after := by
  have live : ¬ before.aborted = true := by simp [invariant.unaborted]
  unfold ViewerStep Viewer.next at moved
  rw [if_neg live] at moved
  split at moved
  next point =>
    obtain rfl := Option.some.inj moved
    exact invariant.goto _ (by simp [relies]) (by simp [point, pushing]) trivial (by simp [point, result])
  next point =>
    obtain rfl := Option.some.inj moved
    exact invariant.goto _ (by simp [relies]) (by simp [point, pushing]) trivial (by simp [point, result])
  next => exact invariant.mainStep moved
  next => exact invariant.workerStep moved
  next => cases moved

/-- What the main thread and the worker owe to each other. -/
structure HandedOver (geometry : Geometry) (viewer : Viewer) : Prop where
  unaborted : viewer.aborted = false
  worker : viewer.worker ≠ .waiting → viewer.jobState = .started
  kept : viewer.jobState = .started → ∀ event after, ViewerStep geometry viewer event after → event = .worker ∨
    (after.color = viewer.color ∧ after.depth = viewer.depth ∧
      after.xyzsRgbcloud = viewer.xyzsRgbcloud ∧ after.rgbsRgbcloud = viewer.rgbsRgbcloud)
  untouched : viewer.jobState = .started → viewer.main ≠ .swapXyzs ∧ viewer.main ≠ .swapRgbs
  results : ∀ entry ∈ viewer.results, ∃ images, (viewer.starts.take entry.1).getLast? = some images ∧
    pointcloud geometry images.color images.depth = some entry.2 ∧ entry.2.1.length = entry.2.2.length
  once : (viewer.results.map Prod.fst).Pairwise (· < ·)

/-- While a job is underway, no step of the main thread changes its images or its clouds. -/
theorem JobInvariant.kept {viewer after : Viewer} {event : ViewerEvent} (invariant : JobInvariant geometry viewer)
    (started : viewer.jobState = .started) (moved : ViewerStep geometry viewer event after) :
    event = .worker ∨ (after.color = viewer.color ∧ after.depth = viewer.depth ∧
      after.xyzsRgbcloud = viewer.xyzsRgbcloud ∧ after.rgbsRgbcloud = viewer.rgbsRgbcloud) := by
  have relied := invariant.relied
  rw [started] at relied
  have live : ¬ viewer.aborted = true := by simp [invariant.unaborted]
  unfold ViewerStep Viewer.next at moved
  rw [if_neg live] at moved
  split at moved
  next =>
    obtain rfl := Option.some.inj moved
    exact .inr ⟨rfl, rfl, rfl, rfl⟩
  next =>
    obtain rfl := Option.some.inj moved
    exact .inr ⟨rfl, rfl, rfl, rfl⟩
  next =>
    right
    cases point : viewer.main with
    | sensors => simp [Viewer.mainStep, point] at moved
    | testNone | push | testComplete =>
      simp only [Viewer.mainStep, point, Option.some.injEq] at moved
      subst moved
      exact ⟨rfl, rfl, rfl, rfl⟩
    | _ => simp [point, relies] at relied
  next => exact .inl rfl
  next => cases moved

/-- In every interleaving no CHECK on the job state fails, the images and the clouds belong to the
worker while a job is underway, and each start gives its own result, once. -/
theorem job_handed_over {color : ColorData} {depth : DepthData} {events : List ViewerEvent} {viewer : Viewer}
    (run : ViewerRun geometry color depth events viewer) : HandedOver geometry viewer := by
  have invariant : JobInvariant geometry viewer :=
    Transitions.Run.keeps run (fun _ _ _ moved => JobInvariant.step moved) (JobInvariant.initial color depth)
  refine ⟨invariant.unaborted, fun busy => invariant.started (.inl busy), ?_, ?_, ?_, invariant.ascending⟩
  · intro started event after moved
    exact invariant.kept started moved
  · intro started
    constructor
    · intro point
      cases started.symm.trans (invariant.relied .complete (by simp [point, relies]))
    · intro point
      cases started.symm.trans (invariant.relied .complete (by simp [point, relies]))
  · intro entry member
    obtain ⟨images, last, computed⟩ := invariant.results entry member
    exact ⟨images, last, computed, pointcloud_lengths computed⟩

/-- Images of one pixel, far away and red. -/
private def onePixel : SensorImages :=
  let streamMeta : StreamMeta :=
    { id := ⟨⟨.replicate 24 0, 0⟩, .invalid, 0⟩, deviceName := ⟨.replicate 24 0, 0⟩, format := ⟨0⟩, fps := 30,
      intrinsics := ⟨1, 1, 0, 0, 0, 0⟩, extrinsics := .replicate 16 0, depthScale := 1 }
  { color := ⟨[], 7, 0, streamMeta, 0, [255, 0, 0]⟩, depth := ⟨[], 7, 0, streamMeta, 0, [9]⟩ }

private def straight : Geometry where
  lift _ xidx yidx zi := some (UInt32.ofNat xidx, UInt32.ofNat yidx, zi.toUInt32)
  project _ _ xyz := (xyz.1.toNat, xyz.2.1.toNat)
  txApply _ _ xyz := xyz

private def oneJob : List ViewerEvent :=
  .sensor onePixel :: List.replicate 8 .main ++ .worker :: .main :: List.replicate 11 .worker ++
    .rest [] onePixel :: List.replicate 8 .main

theorem job_handed_over_once : ∃ viewer, ViewerRun straight onePixel.color onePixel.depth oneJob viewer ∧
    HandedOver straight viewer ∧ viewer.results = [(1, [0, 0, 9], [255, 0, 0])] := by
  have executed : (execute (Viewer.next straight) { color := onePixel.color, depth := onePixel.depth } oneJob).map
      Viewer.results = some [(1, [0, 0, 9], [255, 0, 0])] := by decide +kernel
  obtain ⟨viewer, reached, read⟩ := Option.map_eq_some_iff.mp executed
  have run : ViewerRun straight onePixel.color onePixel.depth oneJob viewer := Run.of_execute reached
  exact ⟨viewer, run, job_handed_over run, read⟩

end AxbyCore.Realsense.Proofs
