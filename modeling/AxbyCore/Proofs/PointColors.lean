import AxbyCore.Proofs.DepthCoordinates

/-! Colours of points. Coordinates are truncated before they are compared to the borders, so
what projects just outside the left and upper ones gets a colour too. -/

namespace AxbyCore.Proofs.PointColors
open AxbyCore.Rgbd Deprojection DepthCoordinates Homography MachineInt Matrix

/-- The points that the loop takes from a list. -/
def triplesOf {α : Type} : List α → List (α × α × α)
  | x :: y :: z :: rest => (x, y, z) :: triplesOf rest
  | _ => []

theorem triplesOf_flat {α : Type} (points : List (α × α × α)) : triplesOf (points.flatMap flat) = points := by
  induction points with
  | nil => rfl
  | cons point points ih =>
    rw [List.flatMap_cons]
    change (point.1, point.2.1, point.2.2) :: triplesOf (points.flatMap flat) = _
    rw [ih]

section
variable {α β : Type} {f : α → List β} {size : Nat}

theorem flatMap_length (each : ∀ item, (f item).length = size) (items : List α) :
    (items.flatMap f).length = size * items.length := by
  induction items with
  | nil => rfl
  | cons item items ih => rw [List.flatMap_cons, List.length_append, each, ih, List.length_cons, Nat.mul_succ, Nat.add_comm]

/-- Where an item begins among the pieces of a list. -/
theorem flatMap_getElem (each : ∀ item, (f item).length = size) {items : List α} {i : Nat} {item : α}
    (held : items[i]? = some item) {j : Nat} (inside : j < size) :
    (items.flatMap f)[size * i + j]? = (f item)[j]? := by
  induction items generalizing i with
  | nil => cases held
  | cons first items ih =>
    rw [List.flatMap_cons]
    cases i with
    | zero =>
      obtain rfl : first = item := by simpa using held
      rw [Nat.mul_zero, Nat.zero_add]
      exact List.getElem?_append_left ((each first).symm ▸ inside)
    | succ i =>
      have later : size * (i + 1) + j = (f first).length + (size * i + j) := by
        rw [each]
        ring
      rw [later, List.getElem?_append_right (Nat.le_add_right ..), Nat.add_sub_cancel_left]
      exact ih (by simpa using held)

end

theorem flat_length {α : Type} (point : α × α × α) : (flat point).length = 3 := rfl

theorem flatMap_flat_length {α : Type} (points : List (α × α × α)) : (points.flatMap flat).length = 3 * points.length :=
  flatMap_length flat_length points

theorem flatMap_flat_getElem {α : Type} {points : List (α × α × α)} {i : Nat} {point : α × α × α}
    (held : points[i]? = some point) :
    (points.flatMap flat)[3 * i]? = some point.1 ∧ (points.flatMap flat)[3 * i + 1]? = some point.2.1 ∧
      (points.flatMap flat)[3 * i + 2]? = some point.2.2 := by
  have number (j : Nat) (inside : j < 3) := flatMap_getElem flat_length held inside
  exact ⟨number 0 (by decide), number 1 (by decide), number 2 (by decide)⟩

/-- A loop whose iterations push triples pushes triples. -/
theorem pushAll_triples {α ε : Type} {body : ε → Outcome (List α)}
    (each : ∀ item pushed, body item = .done pushed → ∃ points, pushed = List.flatMap flat points) {items : List ε}
    {pushed : List α} (returned : Outcome.pushAll body items = .done pushed) : ∃ points, pushed = List.flatMap flat points := by
  obtain ⟨pieces, all, rfl⟩ := Outcome.pushAll_eq_done.mp returned
  clear returned
  induction all with
  | nil => exact ⟨[], rfl⟩
  | cons first _ ih =>
    obtain ⟨points, rfl⟩ := each _ _ first
    obtain ⟨others, rest⟩ := ih
    refine ⟨points ++ others, ?_⟩
    rw [List.flatMap_append, List.flatten_cons, rest]

section
variable {K : Type} [Field K] [LinearOrder K]

theorem depthPixel_triples {M : Homography K} {info : DepthImageInfo K} {options : XyzsFromDepthOptions K} {xidx yidx : Nat}
    {pushed : List K} (returned : depthPixel M info options yidx xidx = .done pushed) :
    ∃ points, pushed = List.flatMap flat points := by
  obtain ⟨zi, _, rest⟩ := Outcome.bind_eq_done.mp returned
  split at rest
  · split at rest
    · cases rest
      exact ⟨[], rfl⟩
    · cases rest
      exact ⟨[(0, 0, 0)], rfl⟩
  · dsimp only at rest
    split at rest
    · cases rest
      exact ⟨[], rfl⟩
    · split at rest
      · cases rest
        exact ⟨[], rfl⟩
      · obtain ⟨xy, _, last⟩ := Outcome.bind_eq_done.mp rest
        cases last
        exact ⟨[(xy.1, xy.2, _)], rfl⟩

theorem makeXyzs_triples {inverse : Homography K → Homography K} {info : DepthImageInfo K} {options : XyzsFromDepthOptions K}
    {xyzs : List K} (produced : makeXyzsFromDepthImage inverse info options = .done xyzs) :
    ∃ points, xyzs = List.flatMap flat points := by
  obtain ⟨_, _, loops⟩ := Outcome.bind_eq_done.mp produced
  apply pushAll_triples _ loops
  intro yidx row inRow
  apply pushAll_triples _ inRow
  intro xidx pushed inPixel
  exact depthPixel_triples inPixel

end

section
variable {K : Type} (info : RgbImageInfo K)

def pixelColor (xidx yidx : Nat) : UInt8 × UInt8 × UInt8 :=
  let flatIdx := 3 * (yidx * info.width + xidx)
  (info.rgbImage[flatIdx]?.getD 0, info.rgbImage[flatIdx + 1]?.getD 0, info.rgbImage[flatIdx + 2]?.getD 0)

variable {info}

theorem color_read {xidx yidx : Nat} (column : xidx < info.width) (row : yidx < info.height) {channel : Nat}
    (three : channel < 3) :
    3 * (yidx * info.width + xidx) + channel < info.rgbImage.length ∧
      Outcome.read info.rgbImage[3 * (yidx * info.width + xidx) + channel]? =
        .done (info.rgbImage[3 * (yidx * info.width + xidx) + channel]?.getD 0) := by
  have inside : 3 * (yidx * info.width + xidx) + channel < info.rgbImage.length := by
    have pixel := flatIndex_lt column row
    rw [info.whole]
    omega
  refine ⟨inside, ?_⟩
  rw [List.getElem?_eq_getElem inside]
  rfl

theorem colorAt_outside {ix iy : Int}
    (outside : ix < 0 ∨ (info.width : Int) ≤ ix ∨ iy < 0 ∨ (info.height : Int) ≤ iy) :
    colorAt info ix iy = .done [0, 0, 0] := by
  unfold colorAt
  rw [if_pos outside]
  rfl

theorem colorAt_done_iff {xidx yidx : Nat} (column : xidx < info.width) (row : yidx < info.height) {pushed : List UInt8} :
    colorAt info xidx yidx = .done pushed ↔
      3 * (yidx * info.width + xidx) + 2 < 2 ^ 31 ∧ pushed = flat (pixelColor info xidx yidx) := by
  have index : (3 * ((yidx : Int) * info.width + xidx)).toNat = 3 * (yidx * info.width + xidx) := by
    rw [← Nat.cast_mul]
    omega
  obtain ⟨checked, red⟩ := color_read column row (show 0 < 3 by decide)
  obtain ⟨_, green⟩ := color_read column row (show 1 < 3 by decide)
  obtain ⟨_, blue⟩ := color_read column row (show 2 < 3 by decide)
  rw [Nat.add_zero] at checked red
  unfold colorAt
  rw [if_neg (by omega), index]
  dsimp only
  rw [Outcome.check_of checked, red, green, blue]
  simp only [Outcome.done_bind, Outcome.require_bind_eq_done]
  constructor
  · rintro ⟨_, fits, same⟩
    cases same
    exact ⟨fits, rfl⟩
  · rintro ⟨fits, rfl⟩
    exact ⟨by omega, fits, rfl⟩

end

section
variable {K : Type} [Field K] [LinearOrder K] [IsStrictOrderedRing K] [FloorRing K]

theorem truncate_of_gt {value : K} (above : -1 < value) : truncate value = (⌊value⌋₊ : Int) := by
  rcases le_or_gt 0 value with nonneg | negative
  · exact truncate_nonneg nonneg
  · unfold truncate
    rw [if_neg (not_le.mpr negative), Nat.floor_of_nonpos negative.le]
    exact Int.ceil_eq_zero_iff.mpr ⟨above, negative.le⟩

/-- The truncated value is an index exactly if it is not below by one or more. -/
theorem truncate_index {value : K} {limit : Nat} :
    (0 ≤ truncate value ∧ truncate value < limit) ↔ -1 < value ∧ ⌊value⌋₊ < limit := by
  by_cases above : -1 < value
  · rw [truncate_of_gt above]
    simp [above]
  · have negative : truncate value ≤ -1 := by
      unfold truncate
      rw [if_neg (by linarith)]
      apply Int.ceil_le.mpr
      push_cast
      exact not_lt.mp above
    apply iff_of_false
    · omega
    · exact fun both => above both.1

variable (H : Homography K) (info : RgbImageInfo K) (point : K × K × K)

/-- The image coordinates of a point. -/
def pointU : K := imageX H point.1 point.2.1 point.2.2

def pointV : K := imageY H point.1 point.2.1 point.2.2

/-- The truncated image coordinates are those of a pixel. -/
structure Framed : Prop where
  left : -1 < pointU H point
  right : ⌊pointU H point⌋₊ < info.width
  top : -1 < pointV H point
  bottom : ⌊pointV H point⌋₊ < info.height

/-- The projection of the point lies in the image. -/
def Inside : Prop := (0 ≤ pointU H point ∧ pointU H point < info.width) ∧ 0 ≤ pointV H point ∧ pointV H point < info.height

/-- The colour that a point should have: that of the pixel that it projects into, or zeros. -/
def PointColor (color : UInt8 × UInt8 × UInt8) : Prop :=
  weight H point.1 point.2.1 point.2.2 ≠ 0 ∧
    (Inside H info point → color = pixelColor info ⌊pointU H point⌋₊ ⌊pointV H point⌋₊) ∧
    (¬ Inside H info point → color = (0, 0, 0))

/-- The call returns with the colours of the points, in order. -/
def ColorsPoints (xyzs : List K) (outcome : Outcome (List UInt8)) : Prop :=
  ∃ colors : List (UInt8 × UInt8 × UInt8), outcome = .done (colors.flatMap flat) ∧
    List.Forall₂ (PointColor H info) (triplesOf xyzs) colors

open Classical in
/-- The colour that a point gets. -/
noncomputable def colored : UInt8 × UInt8 × UInt8 :=
  if Framed H info point then pixelColor info ⌊pointU H point⌋₊ ⌊pointV H point⌋₊ else (0, 0, 0)

/-- The point has a projection, and the ints hold what is computed from it. -/
structure Colorable : Prop where
  seen : weight H point.1 point.2.1 point.2.2 ≠ 0
  column : FitsInt32 (truncate (pointU H point))
  row : FitsInt32 (truncate (pointV H point))
  index : Framed H info point → 3 * (⌊pointV H point⌋₊ * info.width + ⌊pointU H point⌋₊) + 2 < 2 ^ 31

/-- A pixel that a point is taken to project into, but does not, is black. -/
def BlackBeside : Prop :=
  Framed H info point → (pointU H point < 0 ∨ pointV H point < 0) →
    pixelColor info ⌊pointU H point⌋₊ ⌊pointV H point⌋₊ = (0, 0, 0)

variable {H info point}

theorem framed_iff : Framed H info point ↔
    ¬ (truncate (pointU H point) < 0 ∨ (info.width : Int) ≤ truncate (pointU H point) ∨
      truncate (pointV H point) < 0 ∨ (info.height : Int) ≤ truncate (pointV H point)) := by
  have column := @truncate_index K _ _ _ _ (pointU H point) info.width
  have row := @truncate_index K _ _ _ _ (pointV H point) info.height
  constructor
  · rintro ⟨left, right, top, bottom⟩
    obtain ⟨first, second⟩ := column.mpr ⟨left, right⟩
    obtain ⟨third, fourth⟩ := row.mpr ⟨top, bottom⟩
    omega
  · intro inside
    obtain ⟨left, right⟩ := column.mp (by omega)
    obtain ⟨top, bottom⟩ := row.mp (by omega)
    exact ⟨left, right, top, bottom⟩

theorem colorPoint_done_iff (points : List (K × K × K)) (i : Nat) (point : K × K × K) (held : points[i]? = some point)
    (pushed : List UInt8) :
    colorPoint H info (points.flatMap flat) i = .done pushed ↔
      Colorable H info point ∧ pushed = flat (colored H info point) := by
  obtain ⟨x, y, z⟩ := flatMap_flat_getElem held
  unfold colorPoint
  rw [x, y, z]
  change (do
    Outcome.require (weight H point.1 point.2.1 point.2.2 ≠ 0)
    let ix ← toInt (pointU H point)
    let iy ← toInt (pointV H point)
    colorAt info ix iy) = _ ↔ _
  rw [Outcome.require_bind_eq_done]
  simp only [Outcome.bind_eq_done, toInt_eq_done]
  have shaded : colorAt info (truncate (pointU H point)) (truncate (pointV H point)) = .done pushed ↔
      (Framed H info point → 3 * (⌊pointV H point⌋₊ * info.width + ⌊pointU H point⌋₊) + 2 < 2 ^ 31) ∧
        pushed = flat (colored H info point) := by
    unfold colored
    by_cases framed : Framed H info point
    · rw [truncate_of_gt framed.left, truncate_of_gt framed.top, colorAt_done_iff framed.right framed.bottom, if_pos framed]
      exact and_congr_left fun _ => (imp_iff_right framed).symm
    · rw [colorAt_outside (not_not.mp fun inside => framed (framed_iff.mpr inside)), if_neg framed]
      constructor
      · intro same
        cases same
        exact ⟨fun inside => absurd inside framed, rfl⟩
      · rintro ⟨_, rfl⟩
        rfl
  constructor
  · rintro ⟨seen, _, ⟨column, rfl⟩, _, ⟨row, rfl⟩, returned⟩
    obtain ⟨index, rfl⟩ := shaded.mp returned
    exact ⟨⟨seen, column, row, index⟩, rfl⟩
  · rintro ⟨able, rfl⟩
    exact ⟨able.seen, _, ⟨able.column, rfl⟩, _, ⟨able.row, rfl⟩, shaded.mpr ⟨able.index, rfl⟩⟩

theorem makeRgbs_done_iff {tx : Vector K 16} {points : List (K × K × K)} {out : List UInt8} :
    makeRgbsFromXyzs info tx (points.flatMap flat) = .done out ↔
      (∀ point ∈ points, Colorable (matrix4 info.hmImageCamera * matrix4 tx) info point) ∧
        out = (points.map (colored (matrix4 info.hmImageCamera * matrix4 tx) info)).flatMap flat := by
  have length := flatMap_flat_length points
  have many : (points.flatMap flat).length / 3 = points.length := by omega
  unfold makeRgbsFromXyzs
  rw [Outcome.check_of (by omega), Outcome.done_bind, many]
  dsimp only
  rw [Outcome.bind_eq_done]
  simp only [Outcome.pushAll_range_done_iff (colorPoint_done_iff points), Outcome.check_bind_eq_done]
  have all : (∀ (i : Nat) (point : K × K × K), points[i]? = some point →
      Colorable (matrix4 info.hmImageCamera * matrix4 tx) info point) ↔
      ∀ point ∈ points, Colorable (matrix4 info.hmImageCamera * matrix4 tx) info point := by
    simp only [List.mem_iff_getElem?, forall_exists_index]
    exact forall_comm
  rw [List.flatMap_map, ← all]
  have size := flatMap_flat_length (points.map (colored (matrix4 info.hmImageCamera * matrix4 tx) info))
  rw [List.flatMap_map, List.length_map] at size
  constructor
  · rintro ⟨_, ⟨able, rfl⟩, _, _, same⟩
    cases same
    exact ⟨able, rfl⟩
  · rintro ⟨able, rfl⟩
    exact ⟨_, ⟨able, rfl⟩, size, size.trans length.symm, rfl⟩

theorem Inside.framed (inside : Inside H info point) : Framed H info point := by
  obtain ⟨⟨left, right⟩, top, bottom⟩ := inside
  constructor
  · linarith
  · exact (Nat.floor_lt left).mpr right
  · linarith
  · exact (Nat.floor_lt top).mpr bottom

omit [IsStrictOrderedRing K] in
/-- Only coordinates between -1 and 0 are truncated to a pixel that the point does not project into. -/
theorem Framed.beside (framed : Framed H info point) (outside : ¬ Inside H info point) :
    pointU H point < 0 ∨ pointV H point < 0 := by
  by_contra neither
  obtain ⟨left, top⟩ := not_or.mp neither
  apply outside
  constructor
  · exact ⟨not_lt.mp left, (Nat.floor_lt (not_lt.mp left)).mp framed.right⟩
  · exact ⟨not_lt.mp top, (Nat.floor_lt (not_lt.mp top)).mp framed.bottom⟩

/-- The colour that a point gets is the one it should have exactly if there is none beside the image. -/
theorem colored_point (seen : weight H point.1 point.2.1 point.2.2 ≠ 0) :
    PointColor H info point (colored H info point) ↔ BlackBeside H info point := by
  unfold PointColor BlackBeside colored
  by_cases inside : Inside H info point
  · rw [if_pos inside.framed]
    apply iff_of_true
    · exact ⟨seen, fun _ => rfl, fun outside => absurd inside outside⟩
    · rintro _ (left | top)
      · exact absurd left (not_lt.mpr inside.1.1)
      · exact absurd top (not_lt.mpr inside.2.1)
  · by_cases framed : Framed H info point
    · rw [if_pos framed]
      constructor
      · intro colors _ _
        exact colors.2.2 inside
      · intro black
        exact ⟨seen, fun within => absurd within inside, fun _ => black framed (framed.beside inside)⟩
    · rw [if_neg framed]
      apply iff_of_true
      · exact ⟨seen, fun within => absurd within inside, fun _ => rfl⟩
      · exact fun within => absurd within framed

/-- The points of a depth image get the colours of the pixels that they project into exactly if
all have a projection, the ints hold, and the pixels beside which points project are black. -/
theorem points_colored {inverse : Homography K → Homography K} {depth : DepthImageInfo K} {options : XyzsFromDepthOptions K}
    {xyzs : List K} (produced : makeXyzsFromDepthImage inverse depth options = .done xyzs) (info : RgbImageInfo K)
    (tx : Vector K 16) :
    ColorsPoints (matrix4 info.hmImageCamera * matrix4 tx) info xyzs (makeRgbsFromXyzs info tx xyzs) ↔
      ∀ point ∈ triplesOf xyzs, Colorable (matrix4 info.hmImageCamera * matrix4 tx) info point ∧
        BlackBeside (matrix4 info.hmImageCamera * matrix4 tx) info point := by
  obtain ⟨points, rfl⟩ := makeXyzs_triples produced
  unfold ColorsPoints
  rw [triplesOf_flat]
  constructor
  · rintro ⟨colors, returned, all⟩ point member
    obtain ⟨able, same⟩ := makeRgbs_done_iff.mp returned
    obtain rfl := flatMap_flat_injective same
    have each := List.forall₂_same.mp (List.forall₂_map_right_iff.mp all) point member
    exact ⟨able point member, (colored_point (able point member).seen).mp each⟩
  · intro handled
    refine ⟨_, makeRgbs_done_iff.mpr ⟨fun point member => (handled point member).1, rfl⟩, ?_⟩
    apply List.forall₂_map_right_iff.mpr
    apply List.forall₂_same.mpr
    intro point member
    exact (colored_point (handled point member).1.seen).mpr (handled point member).2

end

/-- A depth image of one pixel without depth, for which the point (0, 0, 0) stands. -/
def noDepth : DepthImageInfo ℚ := ⟨1, 1, 1, [0], identity, rfl⟩

theorem noDepth_point (inverse : Homography ℚ → Homography ℚ) : makeXyzsFromDepthImage inverse noDepth {} = .done [0, 0, 0] := rfl

/-- An image of one pixel that is not black, under a camera. -/
def onePixel (camera : Vector ℚ 16) : RgbImageInfo ℚ := ⟨1, 1, [7, 8, 9], camera, rfl⟩

/-- A camera that sees half a pixel further to the right. -/
def shifted : Vector ℚ 16 := #v[1, 0, 0, 0, 0, 1, 0, 0, 0, 0, 1, 0, -1 / 2, 0, 0, 1]

/-- A camera that weighs by depth. -/
def pinhole : Vector ℚ 16 := #v[1, 0, 0, 0, 0, 1, 0, 0, 0, 0, 0, 1, 0, 0, 1, 0]

theorem points_colored_one :
    ColorsPoints (matrix4 identity * matrix4 identity) (onePixel identity) [0, 0, 0]
      (makeRgbsFromXyzs (onePixel identity) identity [0, 0, 0]) := by
  apply (points_colored (noDepth_point fun P => P⁻¹) (onePixel identity) identity).mpr
  intro point member
  obtain rfl : point = (0, 0, 0) := List.mem_singleton.mp member
  have one : matrix4 identity * matrix4 identity = 1 := by rw [matrix4_identity, one_mul]
  obtain ⟨seen, column, row⟩ := scaling_image (one_ne_zero : (1 : ℚ) ≠ 0) 0 0 0
  rw [one_smul] at seen column row
  change Colorable (matrix4 identity * matrix4 identity) _ _ ∧ BlackBeside (matrix4 identity * matrix4 identity) _ _
  rw [one]
  replace column : pointU (1 : Homography ℚ) (0, 0, 0) = 0 := column
  replace row : pointV (1 : Homography ℚ) (0, 0, 0) = 0 := row
  constructor
  · constructor
    · exact ne_of_eq_of_ne seen one_ne_zero
    · rw [column]
      decide +kernel
    · rw [row]
      decide +kernel
    · rw [column, row, Nat.floor_zero]
      exact fun _ => by decide
  · rintro _ (left | top)
    · exact absurd left (by rw [column]; exact lt_irrefl 0)
    · exact absurd top (by rw [row]; exact lt_irrefl 0)

/-- A point that projects half a pixel beside the image gets a colour, and one without depth may
have no projection. -/
theorem colored_beside :
    makeXyzsFromDepthImage (fun P => P⁻¹) noDepth {} = .done [0, 0, 0] ∧
      makeRgbsFromXyzs (onePixel shifted) identity [0, 0, 0] = .done [7, 8, 9] ∧
      ¬ ColorsPoints (matrix4 shifted * matrix4 identity) (onePixel shifted) [0, 0, 0]
        (makeRgbsFromXyzs (onePixel shifted) identity [0, 0, 0]) ∧
      makeRgbsFromXyzs (onePixel pinhole) identity [0, 0, 0] = .undefined := by
  have right : makeRgbsFromXyzs (onePixel shifted) identity [0, 0, 0] = .done [7, 8, 9] := by decide +kernel
  refine ⟨noDepth_point _, right, ?_, by decide +kernel⟩
  rw [right]
  rintro ⟨colors, returned, all⟩
  have column : pointU (matrix4 shifted * matrix4 identity) ((0, 0, 0) : ℚ × ℚ × ℚ) = -1 / 2 := by decide +kernel
  cases all with
  | cons first rest =>
    cases rest
    have outside : ¬ Inside (matrix4 shifted * matrix4 identity) (onePixel shifted) (0, 0, 0) := by
      rintro ⟨⟨left, _⟩, _⟩
      rw [column] at left
      norm_num at left
    have zeros := first.2.2 outside
    subst zeros
    revert returned
    decide +kernel

end AxbyCore.Proofs.PointColors
