import AxbyCore.Realsense.PointCloudJob

/-! The end of the main loop of log_viewer/log_viewer.cpp, where the point-cloud job is
destroyed while its worker may still be busy. The job state is the last member of the job,
so that it is destroyed first, and `~JobState` of concurrency/job_state.cpp waits. -/

namespace AxbyCore.Realsense

/-- Where the main thread is: in its loop, in the loop of `~JobState`, or behind the destruction of the members. -/
inductive Teardown where
  | looping
  | waiting
  | destroyed
  deriving DecidableEq, Repr

structure ClosingViewer where
  viewer : Viewer
  teardown : Teardown := .looping

/-- `leave` is at the top of the main loop, and `test` is one test of the loop of `~JobState`. -/
inductive ClosingEvent where
  | viewer (event : ViewerEvent)
  | leave
  | test

def ViewerEvent.isWorker : ViewerEvent → Bool
  | .worker => true
  | _ => false

def ClosingEvent.isWorker : ClosingEvent → Bool
  | .viewer event => event.isWorker
  | _ => false

/-- The worker knows nothing of the destruction: it would go on with members that are gone. -/
def ClosingViewer.next (geometry : Geometry) (closing : ClosingViewer) : ClosingEvent → Option ClosingViewer
  | .viewer event =>
    if closing.teardown ≠ .looping ∧ !event.isWorker then none
    else (closing.viewer.next geometry event).map fun viewer => { closing with viewer }
  | .leave =>
    match closing.teardown, closing.viewer.main with
    | .looping, .sensors => if closing.viewer.aborted then none else some { closing with teardown := .waiting }
    | _, _ => none
  | .test =>
    if closing.teardown = .waiting ∧ !closing.viewer.aborted then
      some (if closing.viewer.jobState = .started then closing else { closing with teardown := .destroyed })
    else none

def ClosingStep (geometry : Geometry) (before : ClosingViewer) (event : ClosingEvent) (after : ClosingViewer) : Prop :=
  before.next geometry event = some after

/-- A run from a new job. -/
def ClosingRun (geometry : Geometry) (color : ColorData) (depth : DepthData) (events : List ClosingEvent)
    (closing : ClosingViewer) : Prop :=
  Transitions.Run (ClosingStep geometry) { viewer := { color, depth } } events closing

end AxbyCore.Realsense
