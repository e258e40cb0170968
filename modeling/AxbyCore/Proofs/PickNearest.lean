import AxbyCore.Viewer.Pick
import Mathlib.Data.List.MinMax
import Mathlib.Analysis.Real.Sqrt
import Mathlib.Tactic.NormNum

/-! The vertex that is picked is the one nearest to a corner of the pick buffer. The mouse is
at the centre. -/

namespace AxbyCore.Proofs.PickNearest
open Math Viewer Matrix

section
variable {K : Type} [Field K]

/-- Where a normalized device coordinate lies in the pick buffer, in pixels. -/
def windowCoordinate (ndc : K) : K := (ndc + 1) / 2 * (30 : Nat)

theorem mvpModifier_across (roi : K × K) (clip : Fin 4 → K) :
    (mvpModifier roi *ᵥ clip) 0 = 1 / roiScale * (clip 0 - roi.1 * clip 3) := by
  simp [mvpModifier, mulVec, dotProduct, Fin.sum_univ_four]
  ring

theorem mvpModifier_up (roi : K × K) (clip : Fin 4 → K) :
    (mvpModifier roi *ᵥ clip) 1 = 1 / roiScale * (clip 1 - roi.2 * clip 3) := by
  simp [mvpModifier, mulVec, dotProduct, Fin.sum_univ_four]
  ring

/-- What is under the mouse is drawn into the pixel at the centre. -/
theorem mouse_at_centre [CharZero K] {roi : K × K} {originalMvp : Homography K} {point : Fin 4 → K}
    (seen : (originalMvp *ᵥ point) 3 ≠ 0) (across : (originalMvp *ᵥ point) 0 / (originalMvp *ᵥ point) 3 = roi.1)
    (up : (originalMvp *ᵥ point) 1 / (originalMvp *ᵥ point) 3 = roi.2) :
    windowCoordinate ((pickMvp roi originalMvp *ᵥ point) 0 / (pickMvp roi originalMvp *ᵥ point) 3) = 15 ∧
    windowCoordinate ((pickMvp roi originalMvp *ᵥ point) 1 / (pickMvp roi originalMvp *ᵥ point) 3) = 15 := by
  have column : (originalMvp *ᵥ point) 0 = roi.1 * (originalMvp *ᵥ point) 3 := (div_eq_iff seen).mp across
  have row : (originalMvp *ᵥ point) 1 = roi.2 * (originalMvp *ᵥ point) 3 := (div_eq_iff seen).mp up
  have middle : windowCoordinate (0 : K) = 15 := by norm_num [windowCoordinate]
  have clip : pickMvp roi originalMvp *ᵥ point = mvpModifier roi *ᵥ originalMvp *ᵥ point := by rw [pickMvp, mulVec_mulVec]
  have first : (pickMvp roi originalMvp *ᵥ point) 0 = 0 := by
    rw [clip, mvpModifier_across, column, sub_self, mul_zero]
  have second : (pickMvp roi originalMvp *ᵥ point) 1 = 0 := by
    rw [clip, mvpModifier_up, row, sub_self, mul_zero]
  rw [first, second, zero_div, middle]
  exact ⟨rfl, rfl⟩

end

section
variable {K D : Type} [LinearOrder D]

def occupied (buffers : PickBuffers K) : List Pixel := pixels.filter fun pixel => buffers.groupId pixel ≠ 0

/-- The square of the distance to the pixel that the mouse is at. -/
def centreDistance (pixel : Pixel) : Int := ((pixel.w.val : Int) - 15) ^ 2 + ((pixel.h.val : Int) - 15) ^ 2

def NearestToCentre (buffers : PickBuffers K) (pixel : Pixel) : Prop :=
  pixel ∈ occupied buffers ∧ ∀ other ∈ occupied buffers, centreDistance pixel ≤ centreDistance other

/-- What is reported of a pixel. -/
def infoAt (buffers : PickBuffers K) (pixel : Pixel) : PickInfo K where
  idHash := buffers.groupId pixel
  index := buffers.vertexId pixel
  worldXyz := buffers.worldXyz pixel

theorem infoAt_idHash (buffers : PickBuffers K) (pixel : Pixel) : (infoAt buffers pixel).idHash = buffers.groupId pixel := rfl

theorem mem_pixels (pixel : Pixel) : pixel ∈ pixels :=
  List.mem_flatMap.mpr ⟨pixel.h, List.mem_finRange _, List.mem_map.mpr ⟨pixel.w, List.mem_finRange _, rfl⟩⟩

/-- Where a pixel stands in the order of the loops. -/
def position (pixel : Pixel) : Nat := 30 * pixel.h + pixel.w

theorem position_injective : Function.Injective position := by
  intro first second same
  simp only [position] at same
  apply Pixel.ext <;> apply Fin.ext <;> omega

theorem pixels_ordered : pixels.Pairwise fun first second => position first < position second := by
  refine List.pairwise_flatMap.mpr ⟨fun h _ => ?_, ?_⟩
  · refine List.pairwise_map.mpr ((List.pairwise_lt_finRange 30).imp fun {w w'} less => ?_)
    exact Nat.add_lt_add_left less _
  · refine (List.pairwise_lt_finRange 30).imp fun {h h'} less first inRow second inRow' => ?_
    obtain ⟨w, -, rfl⟩ := List.mem_map.mp inRow
    obtain ⟨w', -, rfl⟩ := List.mem_map.mp inRow'
    simp only [position]
    omega

theorem mem_occupied {buffers : PickBuffers K} {pixel : Pixel} :
    pixel ∈ occupied buffers ↔ buffers.groupId pixel ≠ 0 := by
  simp [occupied, mem_pixels]

/-- Of what is least, a list in order has the first. -/
theorem first_of_argmin {A : Type} {f : A → D} (rank : A → Nat) {list : List A}
    (ordered : list.Pairwise fun first second => rank first ≤ rank second) {least : A}
    (found : list.argmin f = some least) {other : A} (there : other ∈ list) :
    f least < f other ∨ f least = f other ∧ rank least ≤ rank other := by
  induction list generalizing least other with
  | nil => exact absurd there List.not_mem_nil
  | cons head tail ih =>
    obtain ⟨before, ordered⟩ := List.pairwise_cons.mp ordered
    rw [List.argmin_cons] at found
    cases best : tail.argmin f with
    | none =>
      obtain rfl : tail = [] := List.argmin_eq_none.mp best
      obtain rfl : other = head := List.mem_singleton.mp there
      obtain rfl : other = least := by simpa [best] using found
      exact Or.inr ⟨rfl, le_rfl⟩
    | some second =>
      simp only [best] at found
      split at found
      next farther =>
        obtain rfl : second = least := Option.some.inj found
        obtain rfl | inTail := List.mem_cons.mp there
        · exact Or.inl farther
        · exact ih ordered best inTail
      next nearer =>
        obtain rfl : head = least := Option.some.inj found
        obtain rfl | inTail := List.mem_cons.mp there
        · exact Or.inr ⟨rfl, le_rfl⟩
        · have least : f head ≤ f other := (not_lt.mp nearer).trans (List.le_of_mem_argmin inTail best)
          exact least.lt_or_eq.imp_right fun same => ⟨same, before other inTail⟩

variable [Field K]

/-- What is compared: the norm of the coordinates, which are those from the first pixel. -/
def cornerDistance (norm : K → K → D) (pixel : Pixel) : D :=
  norm ((pixel.w.val : K) / (30 : Nat)) ((pixel.h.val : K) / (30 : Nat))

/-- The local variables when a pixel is held. -/
def held (norm : K → K → D) (buffers : PickBuffers K) : Option Pixel → Closest D
  | none => Closest.start
  | some pixel =>
    { closestDistance := some (cornerDistance norm pixel)
      closestGroupId := buffers.groupId pixel
      closestVertexId := buffers.vertexId pixel
      closestPixel := pixel }

theorem visit_occupied (norm : K → K → D) {buffers : PickBuffers K} {pixel : Pixel} (there : buffers.groupId pixel ≠ 0)
    (best : Option Pixel) : visit norm buffers (held norm buffers best) pixel =
      held norm buffers (List.argAux (fun first second => cornerDistance norm first < cornerDistance norm second) best pixel) := by
  cases best with
  | none => simp [visit, held, Closest.start, there, List.argAux, cornerDistance]
  | some other =>
    simp only [visit, held, there, List.argAux, ne_eq, not_false_eq_true, ↓reduceIte, Option.all_some, decide_eq_true_eq]
    split
    next nearer => rw [if_pos (by exact nearer)]; rfl
    next farther => rw [if_neg (by exact farther)]

theorem foldl_visit (norm : K → K → D) (buffers : PickBuffers K) (visited : List Pixel) (best : Option Pixel) :
    visited.foldl (visit norm buffers) (held norm buffers best) =
      held norm buffers ((visited.filter fun pixel => buffers.groupId pixel ≠ 0).foldl
        (List.argAux fun first second => cornerDistance norm first < cornerDistance norm second) best) := by
  induction visited generalizing best with
  | nil => rfl
  | cons pixel visited ih =>
    by_cases there : buffers.groupId pixel ≠ 0
    · rw [List.foldl_cons, visit_occupied norm there, ih, List.filter_cons_of_pos (by simpa using there), List.foldl_cons]
    · have passed : visit norm buffers (held norm buffers best) pixel = held norm buffers best := if_neg there
      rw [List.foldl_cons, passed, ih, List.filter_cons_of_neg (by simpa using there)]

/-- The loops find the first of the occupied pixels that are nearest to the corner. -/
theorem updatePickInfo_eq (norm : K → K → D) (buffers : PickBuffers K) :
    updatePickInfo norm false buffers =
      match (occupied buffers).argmin (cornerDistance norm) with
      | none => { idHash := 0, index := 0, worldXyz := (0, 0, 0) }
      | some pixel => infoAt buffers pixel := by
  have loops := foldl_visit norm buffers pixels none
  have found : pixels.foldl (visit norm buffers) (held norm buffers none) =
      held norm buffers ((occupied buffers).argmin (cornerDistance norm)) := loops
  simp only [held] at found
  simp only [updatePickInfo, Bool.false_eq_true, ↓reduceIte, found]
  cases nearest : (occupied buffers).argmin (cornerDistance norm) with
  | none => simp [Closest.start]
  | some pixel =>
    have there := mem_occupied.mp (List.argmin_mem nearest)
    simp [there, infoAt]

/-- A vertex is reported if there is any, and it is one that is nearest to the mouse. -/
structure PicksNearest (norm : K → K → D) (buffers : PickBuffers K) : Prop where
  reports : (updatePickInfo norm false buffers).idHash ≠ 0 ↔ ∃ pixel, buffers.groupId pixel ≠ 0
  nearest : (updatePickInfo norm false buffers).idHash ≠ 0 →
    ∃ pixel, NearestToCentre buffers pixel ∧ updatePickInfo norm false buffers = infoAt buffers pixel

/-- An occupied pixel is the nearest to the corner, and the first of the buffer among those that are as near. -/
def FirstAtCorner (norm : K → K → D) (buffers : PickBuffers K) (pixel : Pixel) : Prop :=
  buffers.groupId pixel ≠ 0 ∧ ∀ other, buffers.groupId other ≠ 0 →
    cornerDistance norm pixel < cornerDistance norm other ∨
    cornerDistance norm pixel = cornerDistance norm other ∧ position pixel ≤ position other

/-- The pixel at the corner carries what a pixel nearest to the mouse carries. -/
def CornerWillDo (norm : K → K → D) (buffers : PickBuffers K) : Prop :=
  ∀ corner, FirstAtCorner norm buffers corner →
    ∃ pixel, NearestToCentre buffers pixel ∧ infoAt buffers pixel = infoAt buffers corner

theorem argmin_first {norm : K → K → D} {buffers : PickBuffers K} {pixel : Pixel}
    (nearest : (occupied buffers).argmin (cornerDistance norm) = some pixel) : FirstAtCorner norm buffers pixel := by
  refine ⟨mem_occupied.mp (List.argmin_mem nearest), fun other there => ?_⟩
  have ordered : (occupied buffers).Pairwise fun first second => position first ≤ position second :=
    List.Pairwise.filter _ (pixels_ordered.imp Nat.le_of_lt)
  exact first_of_argmin position ordered nearest (mem_occupied.mpr there)

theorem FirstAtCorner.unique {norm : K → K → D} {buffers : PickBuffers K} {first second : Pixel}
    (h : FirstAtCorner norm buffers first) (h' : FirstAtCorner norm buffers second) : first = second := by
  apply position_injective
  obtain nearer | ⟨-, before⟩ := h.2 second h'.1
  · obtain farther | ⟨same, -⟩ := h'.2 first h.1
    · exact absurd nearer farther.asymm
    · exact absurd nearer same.symm.not_lt
  · obtain farther | ⟨same, after⟩ := h'.2 first h.1
    · obtain nearer | ⟨same, -⟩ := h.2 second h'.1
      · exact absurd nearer farther.asymm
      · exact absurd farther same.symm.not_lt
    · exact Nat.le_antisymm before after

theorem reports_iff (norm : K → K → D) (buffers : PickBuffers K) :
    (updatePickInfo norm false buffers).idHash ≠ 0 ↔ ∃ pixel, buffers.groupId pixel ≠ 0 := by
  rw [updatePickInfo_eq]
  cases nearest : (occupied buffers).argmin (cornerDistance norm) with
  | none =>
    have empty := List.argmin_eq_none.mp nearest
    refine iff_of_false (fun zero => zero rfl) ?_
    rintro ⟨pixel, there⟩
    exact List.not_mem_nil (empty ▸ mem_occupied.mpr there)
  | some pixel =>
    have there := mem_occupied.mp (List.argmin_mem nearest)
    exact iff_of_true there ⟨pixel, there⟩

theorem exists_corner (norm : K → K → D) {buffers : PickBuffers K} {any : Pixel} (there : buffers.groupId any ≠ 0) :
    ∃ pixel, FirstAtCorner norm buffers pixel := by
  cases nearest : (occupied buffers).argmin (cornerDistance norm) with
  | none => exact absurd (mem_occupied.mpr there) (List.argmin_eq_none.mp nearest ▸ List.not_mem_nil)
  | some pixel => exact ⟨pixel, argmin_first nearest⟩

/-- What is reported is what the pixel at the corner carries. -/
theorem updatePickInfo_corner {norm : K → K → D} {buffers : PickBuffers K} {corner : Pixel}
    (atCorner : FirstAtCorner norm buffers corner) : updatePickInfo norm false buffers = infoAt buffers corner := by
  rw [updatePickInfo_eq]
  cases nearest : (occupied buffers).argmin (cornerDistance norm) with
  | none => exact absurd (mem_occupied.mpr atCorner.1) (List.argmin_eq_none.mp nearest ▸ List.not_mem_nil)
  | some pixel => rw [atCorner.unique (argmin_first nearest)]

theorem corner_of_picks {norm : K → K → D} {buffers : PickBuffers K} (picks : PicksNearest norm buffers) :
    CornerWillDo norm buffers := by
  intro corner atCorner
  have reported : (updatePickInfo norm false buffers).idHash ≠ 0 := picks.reports.mpr ⟨corner, atCorner.1⟩
  obtain ⟨pixel, central, same⟩ := picks.nearest reported
  exact ⟨pixel, central, same.symm.trans (updatePickInfo_corner atCorner)⟩

theorem picks_nearest_iff (norm : K → K → D) (buffers : PickBuffers K) :
    PicksNearest norm buffers ↔ CornerWillDo norm buffers := by
  refine ⟨corner_of_picks, fun corner => ⟨reports_iff norm buffers, fun reported => ?_⟩⟩
  obtain ⟨there, occupiedThere⟩ := (reports_iff norm buffers).mp reported
  obtain ⟨picked, atCorner⟩ := exists_corner norm occupiedThere
  obtain ⟨pixel, central, same⟩ := corner picked atCorner
  exact ⟨pixel, central, (updatePickInfo_corner atCorner).trans same.symm⟩

end

/-- One vertex drawn towards the corner and another under the mouse. -/
def twoVertices : PickBuffers ℝ where
  pickBufferCpu := Vector.ofFn fun i => if i.val = 2 * (30 * 5 + 5) then 1 else if i.val = 2 * (30 * 15 + 15) then 2 else 0
  pickWorldXyzsCpu := Vector.replicate _ 0

def towardsCorner : Pixel := ⟨5, 5⟩

def underMouse : Pixel := ⟨15, 15⟩

theorem twoVertices_groupId (pixel : Pixel) : twoVertices.groupId pixel =
    if pixel = towardsCorner then 1 else if pixel = underMouse then 2 else 0 := by
  have corner : 2 * (30 * pixel.h.val + pixel.w.val) = 2 * (30 * 5 + 5) ↔ pixel = towardsCorner := by
    rw [Pixel.ext_iff, Fin.ext_iff, Fin.ext_iff]
    change _ ↔ pixel.h.val = 5 ∧ pixel.w.val = 5
    omega
  have mouse : 2 * (30 * pixel.h.val + pixel.w.val) = 2 * (30 * 15 + 15) ↔ pixel = underMouse := by
    rw [Pixel.ext_iff, Fin.ext_iff, Fin.ext_iff]
    change _ ↔ pixel.h.val = 15 ∧ pixel.w.val = 15
    omega
  have drawn := Vector.getElem_ofFn (f := fun i : Fin (30 * 30 * 2) =>
    if i.val = 2 * (30 * 5 + 5) then (1 : UInt32) else if i.val = 2 * (30 * 15 + 15) then 2 else 0)
    (i := 2 * (30 * pixel.h.val + pixel.w.val)) (by omega)
  simp only [corner, mouse] at drawn
  exact drawn

noncomputable def euclidean (x y : ℝ) : ℝ := √(x ^ 2 + y ^ 2)

theorem towardsCorner_nearer :
    cornerDistance euclidean towardsCorner < cornerDistance euclidean underMouse := by
  apply Real.sqrt_lt_sqrt <;> norm_num [towardsCorner, underMouse]

theorem twoVertices_corner : FirstAtCorner euclidean twoVertices towardsCorner := by
  refine ⟨by simp [twoVertices_groupId], fun other there => ?_⟩
  by_cases corner : other = towardsCorner
  · exact Or.inr ⟨congrArg _ corner.symm, Nat.le_of_eq (congrArg _ corner.symm)⟩
  · have mouse : other = underMouse := by
      by_contra elsewhere
      exact there (by rw [twoVertices_groupId, if_neg corner, if_neg elsewhere])
    exact Or.inl (mouse ▸ towardsCorner_nearer)

theorem nearest_underMouse {pixel : Pixel} (central : centreDistance pixel ≤ 0) : pixel = underMouse := by
  have across : 0 ≤ ((pixel.w.val : Int) - 15) ^ 2 := sq_nonneg _
  have down : 0 ≤ ((pixel.h.val : Int) - 15) ^ 2 := sq_nonneg _
  have noneAcross : ((pixel.w.val : Int) - 15) ^ 2 = 0 := le_antisymm (by simp only [centreDistance] at central; omega) across
  have noneDown : ((pixel.h.val : Int) - 15) ^ 2 = 0 := le_antisymm (by simp only [centreDistance] at central; omega) down
  have column : (pixel.w.val : Int) = 15 := sub_eq_zero.mp (pow_eq_zero_iff two_ne_zero |>.mp noneAcross)
  have row : (pixel.h.val : Int) = 15 := sub_eq_zero.mp (pow_eq_zero_iff two_ne_zero |>.mp noneDown)
  exact Pixel.ext (Fin.ext (by exact_mod_cast row)) (Fin.ext (by exact_mod_cast column))

theorem not_picks_nearest : ¬ PicksNearest euclidean twoVertices := by
  intro picks
  obtain ⟨pixel, ⟨-, least⟩, same⟩ := corner_of_picks picks towardsCorner twoVertices_corner
  have apart : underMouse ≠ towardsCorner := by decide
  have second : twoVertices.groupId underMouse = 2 := by rw [twoVertices_groupId, if_neg apart, if_pos rfl]
  have there : underMouse ∈ occupied twoVertices := mem_occupied.mpr (second.trans_ne (by decide))
  have centre : centreDistance underMouse = 0 := by decide
  have central : centreDistance pixel ≤ 0 := centre ▸ least underMouse there
  obtain rfl : pixel = underMouse := nearest_underMouse central
  have groups := congrArg PickInfo.idHash same
  rw [infoAt_idHash, infoAt_idHash, second, twoVertices_groupId, if_pos rfl] at groups
  exact absurd groups (by decide)

end AxbyCore.Proofs.PickNearest
