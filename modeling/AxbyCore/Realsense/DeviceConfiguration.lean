import AxbyCore.Realsense.DepthStream
import AxbyCore.Serialization.SmallString

/-! The start of realsense_streaming/server.cpp: the search of `get_device_configurations` of
realsense_streaming/util.cpp for a profile of each kind of stream, the tables by unique id
that `main` makes of what it finds, and the sensors that it opens. What librealsense tells of
the devices is data. -/

namespace AxbyCore.Realsense
open Serialization (SmallString)

/-- The values of `rs2_format` and `rs2_stream` that the code knows. -/
inductive RsFormat where
  | z16
  | rgb8
  | motionXyz32f
  | other
  deriving DecidableEq, Repr

inductive RsStream where
  | depth
  | color
  | accel
  | gyro
  | other
  deriving DecidableEq, Repr

def rsToStreamType : RsStream → StreamType
  | .depth => .depth
  | .color => .color
  | .accel => .accel
  | .gyro => .gyro
  | .other => .invalid

def rsToStreamFormat : RsFormat → StreamFormat
  | .z16 => ⟨1⟩
  | .rgb8 => ⟨2⟩
  | .motionXyz32f => ⟨3⟩
  | .other => ⟨0⟩

structure VideoProfile where
  width : Int32
  height : Int32
  intrinsics : Intrinsics
  deriving DecidableEq

/-- `video` and `isMotion` tell what `as<video_stream_profile>()` and `as<motion_stream_profile>()` give. -/
structure StreamProfile where
  uniqueId : Int32
  format : RsFormat
  streamType : RsStream
  streamIndex : Int32
  fps : Int32
  video : Option VideoProfile
  isMotion : Bool
  deriving DecidableEq

/-- `depthScale` is there if the sensor is a depth sensor. -/
structure Sensor where
  profiles : List StreamProfile
  depthScale : Option UInt32
  deriving DecidableEq

structure Device where
  name : Bytes
  serialNumber : Bytes
  sensors : List Sensor
  deriving DecidableEq

structure DesiredSettings where
  colorWidth : Int32 := 640
  colorHeight : Int32 := 480
  colorFps : Int32 := 30
  depthWidth : Int32 := 640
  depthHeight : Int32 := 480
  depthFps : Int32 := 30
  gyroFps : Int32 := 200
  accelFps : Int32 := 200

/-- The four kinds of stream that a device is to have. -/
inductive StreamKind where
  | color
  | depth
  | accel
  | gyro
  deriving DecidableEq, Repr

def StreamKind.all : List StreamKind := [.color, .depth, .accel, .gyro]

/-- `is_color_candidate` and the other three; no profile is a candidate of two kinds. -/
def StreamKind.isCandidate (profile : StreamProfile) : StreamKind → Bool
  | .color => profile.format == .rgb8 && profile.streamType == .color
  | .depth => profile.format == .z16 && profile.streamType == .depth
  | .accel => profile.format == .motionXyz32f && profile.streamType == .accel
  | .gyro => profile.format == .motionXyz32f && profile.streamType == .gyro

/-- The comparisons with the desired settings, unless the CHECK on the profile fails. -/
def videoMatches (width height fps : Int32) (profile : StreamProfile) : Option Bool :=
  profile.video.map fun video => video.width == width && video.height == height && profile.fps == fps

def motionMatches (fps : Int32) (profile : StreamProfile) : Option Bool :=
  if profile.isMotion then some (profile.fps == fps) else none

def DesiredSettings.matches (desired : DesiredSettings) (profile : StreamProfile) : StreamKind → Option Bool
  | .color => videoMatches desired.colorWidth desired.colorHeight desired.colorFps profile
  | .depth => videoMatches desired.depthWidth desired.depthHeight desired.depthFps profile
  | .accel => motionMatches desired.accelFps profile
  | .gyro => motionMatches desired.gyroFps profile

/-- The members of the stream meta that all kinds have. -/
def commonMeta (device : Device) (profile : StreamProfile) : Option StreamMeta := do
  let serialNumber ← SmallString.ofString device.serialNumber
  let deviceName ← SmallString.ofString device.name
  return {
    id := { serialNumber, type := rsToStreamType profile.streamType, index := profile.streamIndex }
    deviceName
    format := rsToStreamFormat profile.format
    fps := UInt16.ofInt profile.fps.toInt
    intrinsics := { width := 0, height := 0, ppx := 0, ppy := 0, fx := 0, fy := 0 }
    extrinsics := Vector.replicate 16 0
    depthScale := 0 }

/-- The stream meta of a kind; a depth profile must be one of a depth sensor. -/
def makeStreamMeta (device : Device) (sensor : Sensor) (profile : StreamProfile) (kind : StreamKind) : Option StreamMeta := do
  let streamMeta ← commonMeta device profile
  match kind with
  | .color =>
    let video ← profile.video
    return { streamMeta with intrinsics := video.intrinsics }
  | .depth =>
    let video ← profile.video
    let depthScale ← sensor.depthScale
    return { streamMeta with intrinsics := video.intrinsics, depthScale }
  | .accel | .gyro => return streamMeta

/-- The profile, sensor index and stream meta of a kind in a `DeviceConfiguration`. -/
structure SelectedProfile where
  profile : StreamProfile
  sensorIdx : Nat
  streamMeta : StreamMeta
  deriving DecidableEq

/-- The members of a `DeviceConfiguration` while it is filled in; a profile may still be missing. -/
abbrev Selection := StreamKind → Option SelectedProfile

/-- One of the four blocks for a candidate; nothing if a CHECK fails. -/
def selectProfile (desired : DesiredSettings) (device : Device) (sensor : Sensor) (sensorIdx : Nat)
    (profile : StreamProfile) (kind : StreamKind) (selection : Selection) : Option Selection :=
  -- already have a profile of this kind
  if (selection kind).isSome then some selection
  else do
    if ← desired.matches profile kind then
      let streamMeta ← makeStreamMeta device sensor profile kind
      return Function.update selection kind (some { profile, sensorIdx, streamMeta })
    else return selection

/-- A stream profile of a sensor of a device. -/
structure ProfilePlace where
  device : Device
  sensorIdx : Nat
  sensor : Sensor
  profile : StreamProfile
  deriving DecidableEq

/-- The body of the loop over the profiles. -/
def visitProfile (desired : DesiredSettings) (selection : Selection) (place : ProfilePlace) : Option Selection :=
  match StreamKind.all.find? fun kind => kind.isCandidate place.profile with
  | none => some selection
  | some kind => selectProfile desired place.device place.sensor place.sensorIdx place.profile kind selection

/-- The profiles in the order of the two loops. -/
def Device.places (device : Device) : List ProfilePlace :=
  device.sensors.zipIdx.flatMap fun (sensor, sensorIdx) =>
    sensor.profiles.map fun profile => { device, sensorIdx, sensor, profile }

structure DeviceConfiguration where
  device : Device
  selected : StreamKind → SelectedProfile

section
variable (extrinsicsTo : StreamProfile → StreamProfile → Vector UInt32 16)

/-- The transform of a kind; `extrinsicsTo` is `get_extrinsics_to` and `tx_from_rot_trans`. -/
def makeExtrinsics (profile : StreamKind → StreamProfile) : StreamKind → Vector UInt32 16
  | .color => extrinsicsTo (profile .color) (profile .color)
  | .depth => extrinsicsTo (profile .depth) (profile .color)
  | .accel => extrinsicsTo (profile .accel) (profile .accel)
  | .gyro => extrinsicsTo (profile .gyro) (profile .gyro)

/-- The end of the loop over the devices: the configuration, if every kind has a profile. -/
def finishConfiguration (device : Device) (selection : Selection) : Option DeviceConfiguration := do
  let color ← selection .color
  let depth ← selection .depth
  let accel ← selection .accel
  let gyro ← selection .gyro
  let found : StreamKind → SelectedProfile
    | .color => color
    | .depth => depth
    | .accel => accel
    | .gyro => gyro
  return {
    device
    selected := fun kind =>
      let extrinsics := makeExtrinsics extrinsicsTo (fun kind => (found kind).profile) kind
      { found kind with streamMeta := { (found kind).streamMeta with extrinsics } } }

/-- One pass of the loop over the devices; nothing if a CHECK fails. -/
def configureDevice (desired : DesiredSettings) (out : List DeviceConfiguration) (device : Device) :
    Option (List DeviceConfiguration) :=
  if device.sensors.length < 65535 then do
    let selection ← device.places.foldlM (visitProfile desired) fun _ => none
    return out ++ (finishConfiguration extrinsicsTo device selection).toList
  else none

def getDeviceConfigurations (desired : DesiredSettings) (devices : List Device) : Option (List DeviceConfiguration) :=
  devices.foldlM (configureDevice extrinsicsTo desired) []

end

/-- `make_sensor_idx_to_profiles`, with nothing for an index that is not in the map. -/
def DeviceConfiguration.sensorIdxToProfiles (config : DeviceConfiguration) (sensorIdx : Nat) : Option (List StreamProfile) :=
  match ([.accel, .gyro, .color, .depth].filter fun kind => (config.selected kind).sensorIdx == sensorIdx : List StreamKind) with
  | [] => none
  | kinds => some (kinds.map fun kind => (config.selected kind).profile)

/-- A sensor that was opened, and the profiles it was opened with. -/
structure OpenSensor where
  device : Device
  sensorIdx : Nat
  profiles : List StreamProfile

/-- What `main` has when all sensors are open. -/
structure StreamingServer where
  configs : List DeviceConfiguration
  uidToStreamMeta : Int32 → Option StreamMeta
  openSensors : List OpenSensor

/-- The assignments to `uid_to_stream_meta` for a configuration. -/
def DeviceConfiguration.metas (config : DeviceConfiguration) : List (Int32 × StreamMeta) :=
  [.accel, .color, .depth, .gyro].map fun kind =>
    ((config.selected kind).profile.uniqueId, (config.selected kind).streamMeta)

def makeUidToStreamMeta (configs : List DeviceConfiguration) : Int32 → Option StreamMeta :=
  (configs.flatMap DeviceConfiguration.metas).foldl
    (fun uidToStreamMeta entry => Function.update uidToStreamMeta entry.1 (some entry.2)) fun _ => none

/-- The loop that opens the sensors of a configuration; `at` throws for a sensor without a profile. -/
def openConfiguration (openSensors : List OpenSensor) (config : DeviceConfiguration) : Option (List OpenSensor) :=
  (List.range config.device.sensors.length).foldlM (fun openSensors sensorIdx => do
    let profiles ← config.sensorIdxToProfiles sensorIdx
    return openSensors ++ [{ device := config.device, sensorIdx, profiles }]) openSensors

/-- `main` up to the start of the sensors; nothing if a CHECK fails or a lookup throws. -/
def startServer (extrinsicsTo : StreamProfile → StreamProfile → Vector UInt32 16) (desired : DesiredSettings)
    (devices : List Device) : Option StreamingServer := do
  let configs ← getDeviceConfigurations extrinsicsTo desired devices
  let openSensors ← configs.foldlM openConfiguration []
  return { configs, uidToStreamMeta := makeUidToStreamMeta configs, openSensors }

end AxbyCore.Realsense
