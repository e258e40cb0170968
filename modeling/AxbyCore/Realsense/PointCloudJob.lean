import AxbyCore.Library.Transitions
import AxbyCore.Realsense.PointCloud

/-! `PointCloudJob` of realsense_streaming/pointcloud_job.cpp between the main loop of
log_viewer/log_viewer.cpp and the worker of its thread pool. A step is one access to
what the threads share, or one pass of a loop of the worker. -/

namespace AxbyCore.Realsense

/-- The values of `JobState::state`. -/
inductive JobState where
  | none
  | started
  | complete
  deriving DecidableEq, Repr

/-- The images of a sensor, in the hands of the main thread. -/
structure SensorImages where
  color : ColorData
  depth : DepthData

/-- Where the loop may start a job: in the loop over the sensors, for the selected one when it has
an update, or after it, with the serial that is selected, which may be empty. -/
inductive StartSite where
  | updated
  | rest (selectedSerial : Bytes)

/-- Where the main thread is. `sensors` is the part of a frame that has nothing to do with the job. -/
inductive MainPoint where
  | sensors
  | testNone (site : StartSite) (images : SensorImages)
  | decide (site : StartSite) (images : SensorImages)
  | copyColor (images : SensorImages)
  | copyDepth (images : SensorImages)
  | checkNone (images : SensorImages)
  | checkStart (images : SensorImages)
  | storeStarted (images : SensorImages)
  | push
  | testComplete
  | checkNotNone
  | testAgain
  | swapXyzs
  | swapRgbs
  | checkReset
  | storeNone

/-- What the job takes by value from the images when it begins. -/
structure RgbdInfo where
  depth : StreamMeta
  color : StreamMeta

/-- Where the worker is. -/
inductive WorkerPoint where
  | waiting
  | preparing
  | clearXyzs (info : RgbdInfo)
  | lifting (info : RgbdInfo) (idx : Nat)
  | clearRgbs (info : RgbdInfo)
  | coloring (info : RgbdInfo) (i : Nat)
  | moving (info : RgbdInfo) (i : Nat)
  | checkComplete
  | storeComplete

/-- The members of the job and of the pool, and the outputs of the main loop. `aborted` tells
whether a CHECK on the job state has failed. `starts` has the images with which `start` was called,
and `results` what `read_results` gave, each with how many starts there had been. -/
structure Viewer where
  color : ColorData
  depth : DepthData
  xyzsRgbcloud : List UInt32 := []
  rgbsRgbcloud : List UInt8 := []
  jobState : JobState := .none
  queued : Nat := 0
  pointcloudXyzs : List UInt32 := []
  pointcloudRgbs : List UInt8 := []
  main : MainPoint := .sensors
  worker : WorkerPoint := .waiting
  aborted : Bool := false
  starts : List SensorImages := []
  results : List (Nat × List UInt32 × List UInt8) := []

/-- `sensor` is the selected sensor with an update, and `rest` the end of the loop over the sensors. -/
inductive ViewerEvent where
  | sensor (images : SensorImages)
  | rest (selectedSerial : Bytes) (images : SensorImages)
  | main
  | worker

def SensorImages.haveData (images : SensorImages) : Bool := !images.color.data.isEmpty && !images.depth.data.isEmpty

/-- What the loop asks besides `is_none()`; it reads `color_` and `depth_` for it. -/
def Viewer.wantsStart (viewer : Viewer) (images : SensorImages) : StartSite → Option Bool
  | .updated => some images.haveData
  | .rest selectedSerial =>
    if selectedSerial.isEmpty then some false
    else do
      let haveNewDevice ← viewer.color.streamMeta.id.serialNumber.ne selectedSerial
      let haveNewDepth := viewer.depth.sequenceId != images.depth.sequenceId
      let haveNewColor := viewer.color.sequenceId != images.color.sequenceId
      return images.haveData && (haveNewDevice || (haveNewDepth && haveNewColor))

/-- The thread goes on when a CHECK on the job state holds. -/
def Viewer.check (viewer : Viewer) (holds : Bool) (next : Viewer) : Viewer :=
  if holds then next else { viewer with aborted := true }

/-- The next access of the main thread; nothing if the loop compares with a serial number that does not end within its
buffer. -/
def Viewer.mainStep (viewer : Viewer) : Option Viewer :=
  match viewer.main with
  | .sensors => none
  | .testNone site images =>
    some { viewer with main := if viewer.jobState = .none then .decide site images else .testComplete }
  | .decide site images =>
    (viewer.wantsStart images site).map fun wanted =>
      { viewer with main := if wanted then .copyColor images else .testComplete }
  | .copyColor images => some { viewer with color := images.color, main := .copyDepth images }
  | .copyDepth images => some { viewer with depth := images.depth, main := .checkNone images }
  | .checkNone images => some (viewer.check (viewer.jobState = .none) { viewer with main := .checkStart images })
  | .checkStart images => some (viewer.check (viewer.jobState = .none) { viewer with main := .storeStarted images })
  | .storeStarted images =>
    some { viewer with jobState := .started, main := .push, starts := viewer.starts ++ [images] }
  | .push => some { viewer with queued := viewer.queued + 1, main := .testComplete }
  | .testComplete => some { viewer with main := if viewer.jobState = .complete then .checkNotNone else .sensors }
  | .checkNotNone => some (viewer.check (viewer.jobState ≠ .none) { viewer with main := .testAgain })
  | .testAgain => some { viewer with main := if viewer.jobState = .complete then .swapXyzs else .sensors }
  | .swapXyzs =>
    some { viewer with xyzsRgbcloud := viewer.pointcloudXyzs, pointcloudXyzs := viewer.xyzsRgbcloud, main := .swapRgbs }
  | .swapRgbs =>
    some { viewer with rgbsRgbcloud := viewer.pointcloudRgbs, pointcloudRgbs := viewer.rgbsRgbcloud, main := .checkReset }
  | .checkReset => some (viewer.check (viewer.jobState = .complete) { viewer with main := .storeNone })
  | .storeNone =>
    some { viewer with
      jobState := .none
      main := .sensors
      results := viewer.results ++ [(viewer.starts.length, viewer.pointcloudXyzs, viewer.pointcloudRgbs)] }

/-- The next step of the worker; nothing when another CHECK of the job fails. -/
def Viewer.workerStep (geometry : Geometry) (viewer : Viewer) : Option Viewer :=
  match viewer.worker with
  | .waiting => if viewer.queued = 0 then none else some { viewer with queued := viewer.queued - 1, worker := .preparing }
  | .preparing => some { viewer with worker := .clearXyzs ⟨viewer.depth.streamMeta, viewer.color.streamMeta⟩ }
  | .clearXyzs info => some { viewer with xyzsRgbcloud := [], worker := .lifting info 0 }
  | .lifting info idx =>
    if idx < pixels info.depth then
      (liftPixel geometry info.depth viewer.depth.data viewer.xyzsRgbcloud idx).map fun xyzsRgbcloud =>
        { viewer with xyzsRgbcloud, worker := .lifting info (idx + 1) }
    else some { viewer with worker := .clearRgbs info }
  | .clearRgbs info =>
    if viewer.xyzsRgbcloud.length % 3 = 0 then some { viewer with rgbsRgbcloud := [], worker := .coloring info 0 }
    else none
  | .coloring info i =>
    let numPoints := viewer.xyzsRgbcloud.length / 3
    if i < numPoints then
      (colorPoint geometry info.depth info.color viewer.color.data viewer.xyzsRgbcloud viewer.rgbsRgbcloud i).map
        fun rgbsRgbcloud => { viewer with rgbsRgbcloud, worker := .coloring info (i + 1) }
    else if viewer.rgbsRgbcloud.length = 3 * numPoints ∧ viewer.rgbsRgbcloud.length = viewer.xyzsRgbcloud.length ∧
        viewer.xyzsRgbcloud.length % 3 = 0 then some { viewer with worker := .moving info 0 }
    else none
  | .moving info i =>
    if i < viewer.xyzsRgbcloud.length / 3 then
      some { viewer with
        xyzsRgbcloud := movePoint geometry info.depth info.color viewer.xyzsRgbcloud i
        worker := .moving info (i + 1) }
    else some { viewer with worker := .checkComplete }
  | .checkComplete => some (viewer.check (viewer.jobState = .started) { viewer with worker := .storeComplete })
  | .storeComplete => some { viewer with jobState := .complete, worker := .waiting }

/-- A failed CHECK ends the process. -/
def Viewer.next (geometry : Geometry) (viewer : Viewer) (event : ViewerEvent) : Option Viewer :=
  if viewer.aborted then none
  else
    match event, viewer.main with
    | .sensor images, .sensors => some { viewer with main := .testNone .updated images }
    | .rest selectedSerial images, .sensors => some { viewer with main := .testNone (.rest selectedSerial) images }
    | .main, _ => viewer.mainStep
    | .worker, _ => viewer.workerStep geometry
    | _, _ => none

def ViewerStep (geometry : Geometry) (before : Viewer) (event : ViewerEvent) (after : Viewer) : Prop :=
  Viewer.next geometry before event = some after

/-- A run from a new job, whose images are still empty. -/
def ViewerRun (geometry : Geometry) (color : ColorData) (depth : DepthData) (events : List ViewerEvent) (viewer : Viewer) :
    Prop :=
  Transitions.Run (ViewerStep geometry) { color, depth } events viewer

end AxbyCore.Realsense
