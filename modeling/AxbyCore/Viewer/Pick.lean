import AxbyCore.Viewer.Orbit

/-! The picking of viewer/viewer.cpp: what is drawn around the mouse into the pick buffer, and
the vertex that is read off it. -/

namespace AxbyCore.Viewer
open Math Matrix

/-- The row and the column of a pixel. `PICK_BUFFER_WIDTH_PX` and `PICK_BUFFER_HEIGHT_PX` are 30. -/
@[ext]
structure Pixel where
  h : Fin 30
  w : Fin 30
  deriving DecidableEq, Repr

/-- The buffers as they have been downloaded. -/
structure PickBuffers (K : Type) where
  pickBufferCpu : Vector UInt32 (30 * 30 * 2)
  pickWorldXyzsCpu : Vector K (30 * 30 * 3)

structure PickInfo (K : Type) where
  idHash : UInt32
  index : UInt32
  worldXyz : K × K × K

section
variable {K : Type}

namespace PickBuffers
variable (buffers : PickBuffers K) (pixel : Pixel)

def groupId : UInt32 := buffers.pickBufferCpu.get ⟨2 * (30 * pixel.h + pixel.w) + 0, by omega⟩

def vertexId : UInt32 := buffers.pickBufferCpu.get ⟨2 * (30 * pixel.h + pixel.w) + 1, by omega⟩

/-- The world position that was drawn at a pixel. -/
def worldXyz : K × K × K :=
  (buffers.pickWorldXyzsCpu.get ⟨3 * (30 * pixel.h + pixel.w), by omega⟩,
   buffers.pickWorldXyzsCpu.get ⟨3 * (30 * pixel.h + pixel.w) + 1, by omega⟩,
   buffers.pickWorldXyzsCpu.get ⟨3 * (30 * pixel.h + pixel.w) + 2, by omega⟩)

end PickBuffers

/-- The local variables of `update_pick_info`, where no distance is the infinite one. -/
structure Closest (D : Type) where
  closestDistance : Option D
  closestGroupId : UInt32
  closestVertexId : UInt32
  closestPixel : Pixel

section
variable {D : Type} [LinearOrder D]

def Closest.start : Closest D where
  closestDistance := none
  closestGroupId := 0
  closestVertexId := 0
  closestPixel := ⟨⟨0, by decide⟩, ⟨0, by decide⟩⟩

/-- The body of the loops. The norm of a vector of two coordinates is Eigen's. -/
def visit [Field K] (norm : K → K → D) (buffers : PickBuffers K) (closest : Closest D) (pixel : Pixel) : Closest D :=
  if buffers.groupId pixel ≠ 0 then
    let distance := norm ((pixel.w.val : K) / (30 : Nat)) ((pixel.h.val : K) / (30 : Nat))
    if closest.closestDistance.all (fun closestDistance => distance < closestDistance) then
      { closestDistance := some distance
        closestGroupId := buffers.groupId pixel
        closestVertexId := buffers.vertexId pixel
        closestPixel := pixel }
    else closest
  else closest

/-- The pixels in the order of the loops. -/
def pixels : List Pixel :=
  (List.finRange 30).flatMap fun h => (List.finRange 30).map fun w => { h := h, w := w }

def updatePickInfo [Field K] (norm : K → K → D) (wantCaptureMouse : Bool) (buffers : PickBuffers K) : PickInfo K :=
  if wantCaptureMouse then { idHash := 0, index := 0, worldXyz := (0, 0, 0) }
  else
    let closest := pixels.foldl (visit norm buffers) Closest.start
    if closest.closestGroupId ≠ 0 then
      { idHash := closest.closestGroupId
        index := closest.closestVertexId
        worldXyz := buffers.worldXyz closest.closestPixel }
    else { idHash := 0, index := 0, worldXyz := (0, 0, 0) }

end

variable [Field K]

def roiScale : K := 5 / 100

/-- The mouse position in normalized device coordinates. -/
def roiCenter (mousePos : K × K) (width height : Nat) : K × K :=
  (2 * (mousePos.1 / width - 1 / 2), -2 * (mousePos.2 / height - 1 / 2))

/-- Maps the region of interest to the whole buffer. -/
def mvpModifier (roiCenter : K × K) : Homography K :=
  !![1 / roiScale, 0, 0, 1 / roiScale * -roiCenter.1;
     0, 1 / roiScale, 0, 1 / roiScale * -roiCenter.2;
     0, 0, 1, 0;
     0, 0, 0, 1]

/-- The matrix that `update_pick_buffer` draws with. -/
def pickMvp (roiCenter : K × K) (originalMvp : Homography K) : Homography K := mvpModifier roiCenter * originalMvp

end
end AxbyCore.Viewer
