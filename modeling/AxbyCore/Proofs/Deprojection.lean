import AxbyCore.Rgbd.Rgbd

/-! `xy_from_depth` inverts the projection by any homography, wherever its CHECKs pass, and
the point cloud of a depth image projects back to the pixels. -/

namespace AxbyCore.Proofs.Deprojection
open AxbyCore.Rgbd Homography Matrix

section
variable {K : Type} [Field K] {invP : Homography K} {ix iy z : K}

/-- The source solves for the depth that the image does not show, and for the multiple. -/
theorem solves (regular : denom invP z ≠ 0) (nonzero : tau invP ix iy z ≠ 0) :
    invP *ᵥ ![ix, iy, lambda invP ix iy z, 1] = tau invP ix iy z • ![alpha invP ix iy z, beta invP ix iy z, z, 1] := by
  have third : lambda invP ix iy z * denom invP z = z * rayA invP 3 ix iy - rayA invP 2 ix iy := div_mul_cancel₀ _ regular
  have row (i : Fin 4) :
      (invP *ᵥ ![ix, iy, lambda invP ix iy z, 1]) i = rayA invP i ix iy + rayB invP i * lambda invP ix iy z := by
    rw [mulVec_point]
    unfold rayA rayB
    ring
  funext i
  rw [row]
  fin_cases i
  · exact (mul_div_cancel₀ _ nonzero).symm
  · exact (mul_div_cancel₀ _ nonzero).symm
  · unfold denom at third
    change rayA invP 2 ix iy + rayB invP 2 * lambda invP ix iy z = tau invP ix iy z * z
    unfold tau
    linear_combination third
  · exact (mul_one _).symm

/-- There is no other solution. -/
theorem unique (regular : denom invP z ≠ 0) {w t x y : K} (nonzero : t ≠ 0)
    (solved : invP *ᵥ ![ix, iy, w, 1] = t • ![x, y, z, 1]) : alpha invP ix iy z = x ∧ beta invP ix iy z = y := by
  have row (i : Fin 4) : rayA invP i ix iy + rayB invP i * w = t * ![x, y, z, 1] i := by
    have applied := congrFun solved i
    rw [mulVec_point] at applied
    unfold rayA rayB
    rw [← smul_eq_mul t, ← Pi.smul_apply, ← applied]
    ring
  have first : rayA invP 0 ix iy + rayB invP 0 * w = t * x := row 0
  have second : rayA invP 1 ix iy + rayB invP 1 * w = t * y := row 1
  have third : rayA invP 2 ix iy + rayB invP 2 * w = t * z := row 2
  have fourth : rayA invP 3 ix iy + rayB invP 3 * w = t * 1 := row 3
  have depth : lambda invP ix iy z = w := by
    apply (div_eq_iff regular).mpr
    unfold denom
    linear_combination z * fourth - third
  have multiple : tau invP ix iy z = t := by
    unfold tau
    rw [depth, fourth, mul_one]
  constructor
  · apply (div_eq_iff (multiple ▸ nonzero)).mpr
    rw [depth, multiple, first, mul_comm]
  · apply (div_eq_iff (multiple ▸ nonzero)).mpr
    rw [depth, multiple, second, mul_comm]

end

section
variable {K : Type} (info : DepthImageInfo K)

def depthAt (xidx yidx : Nat) : UInt16 := info.depthImage[xidx + yidx * info.width]?.getD 0

def depthOf [Field K] (xidx yidx : Nat) : K := (depthAt info xidx yidx).toNat * info.depthScale

/-- The pixels in row-major order. -/
def pixels : List (Nat × Nat) :=
  (List.range info.height).flatMap fun yidx => (List.range info.width).map fun xidx => (xidx, yidx)

/-- The numbers of a triple as they lie in the output. -/
def flat (point : K × K × K) : List K := [point.1, point.2.1, point.2.2]

variable {info}

theorem mem_pixels {pixel : Nat × Nat} (member : pixel ∈ pixels info) : pixel.1 < info.width ∧ pixel.2 < info.height := by
  obtain ⟨yidx, row, inRow⟩ := List.mem_flatMap.mp member
  obtain ⟨xidx, column, rfl⟩ := List.mem_map.mp inRow
  exact ⟨List.mem_range.mp column, List.mem_range.mp row⟩

theorem flatIndex_lt {width height xidx yidx : Nat} (column : xidx < width) (row : yidx < height) :
    xidx + yidx * width < width * height :=
  calc xidx + yidx * width < width + yidx * width := Nat.add_lt_add_right column _
    _ = width * (yidx + 1) := by rw [Nat.mul_succ, Nat.mul_comm, Nat.add_comm]
    _ ≤ width * height := Nat.mul_le_mul_left _ row

theorem depth_read {xidx yidx : Nat} (inside : xidx + yidx * info.width < info.width * info.height) :
    Outcome.read info.depthImage[xidx + yidx * info.width]? = .done (depthAt info xidx yidx) := by
  rw [← info.whole] at inside
  unfold depthAt
  rw [List.getElem?_eq_getElem inside]
  rfl

theorem flatMap_if {α β : Type} (items : List α) (p : α → Prop) [DecidablePred p] (f : α → List β) :
    items.flatMap (fun item => if p item then f item else []) = (items.filter p).flatMap f := by
  induction items with
  | nil => rfl
  | cons item items ih =>
    by_cases holds : p item
    · simp [holds, ih]
    · simp [holds, ih]

end

section
variable {K : Type} [Field K] [LinearOrder K]

/-- The CHECKs of `xy_from_depth` pass. -/
structure Solvable (invP : Homography K) (ix iy z : K) : Prop where
  denom : epsilon < |denom invP z|
  tau : epsilon < |tau invP ix iy z|

theorem xyFromDepth_done {invP : Homography K} {ix iy z : K} (solvable : Solvable invP ix iy z) :
    xyFromDepth invP ix iy z = .done (alpha invP ix iy z, beta invP ix iy z) := by
  unfold xyFromDepth
  rw [Outcome.check_of solvable.denom, Outcome.done_bind, Outcome.check_of solvable.tau, Outcome.done_bind]
  rfl

theorem xyFromDepth_eq_done {invP : Homography K} {ix iy z : K} {xy : K × K} (returned : xyFromDepth invP ix iy z = .done xy) :
    Solvable invP ix iy z := by
  obtain ⟨_, denom, rest⟩ := Outcome.bind_eq_done.mp returned
  obtain ⟨_, tau, _⟩ := Outcome.bind_eq_done.mp rest
  exact ⟨Outcome.check_eq_done.mp denom, Outcome.check_eq_done.mp tau⟩

variable (info : DepthImageInfo K) (options : XyzsFromDepthOptions K)

/-- Missing depth is retained unless it is to be removed, and other depth between the bounds. -/
def Retained (xidx yidx : Nat) : Prop :=
  if depthAt info xidx yidx = 0 then options.removeZeros = false
  else (∀ min ∈ options.minDepth, min ≤ depthOf info xidx yidx) ∧ ∀ max ∈ options.maxDepth, depthOf info xidx yidx ≤ max

instance (xidx yidx : Nat) : Decidable (Retained info options xidx yidx) := by
  unfold Retained
  infer_instance

def retained : List (Nat × Nat) := (pixels info).filter fun pixel => Retained info options pixel.1 pixel.2

/-- The triple of a retained pixel: zeros for missing depth, or a point at the depth that
projects to the middle of the pixel. -/
def PixelPoint (pixel : Nat × Nat) (point : K × K × K) : Prop :=
  if depthAt info pixel.1 pixel.2 = 0 then point = (0, 0, 0)
  else point.2.2 = depthOf info pixel.1 pixel.2 ∧
    ProjectsTo (matrix4 info.hmImageCamera) point.1 point.2.1 point.2.2 (pixel.1 + 1 / 2) (pixel.2 + 1 / 2)

/-- The point that is computed for a pixel. -/
def computed (hmCameraImage : Homography K) (pixel : Nat × Nat) : K × K × K :=
  let z := depthOf info pixel.1 pixel.2
  if depthAt info pixel.1 pixel.2 = 0 then (0, 0, 0)
  else (alpha hmCameraImage (pixel.1 + 1 / 2) (pixel.2 + 1 / 2) z, beta hmCameraImage (pixel.1 + 1 / 2) (pixel.2 + 1 / 2) z, z)

variable {info options}

/-- A pixel pushes its point if it is retained, and nothing if it is not. -/
theorem depthPixel_done {hmCameraImage : Homography K} {xidx yidx : Nat} (column : xidx < info.width)
    (row : yidx < info.height) (solvable : Retained info options xidx yidx → depthAt info xidx yidx ≠ 0 →
      Solvable hmCameraImage (xidx + 1 / 2) (yidx + 1 / 2) (depthOf info xidx yidx)) :
    depthPixel hmCameraImage info options yidx xidx =
      .done (if Retained info options xidx yidx then flat (computed info hmCameraImage (xidx, yidx)) else []) := by
  unfold depthPixel
  dsimp only
  rw [depth_read (flatIndex_lt column row), Outcome.done_bind]
  by_cases missing : depthAt info xidx yidx = 0
  · simp only [Retained, computed, flat, missing, if_true]
    cases options.removeZeros with
    | true => rfl
    | false => rfl
  · rw [if_neg missing]
    change (if options.minDepth.any (fun min => depthOf info xidx yidx < min) = true then (Outcome.done [] : Outcome (List K))
      else if options.maxDepth.any (fun max => max < depthOf info xidx yidx) = true then Outcome.done [] else _) = _
    have retainedIff : Retained info options xidx yidx ↔
        ¬ options.minDepth.any (fun min => decide (depthOf info xidx yidx < min)) = true ∧
        ¬ options.maxDepth.any (fun max => decide (max < depthOf info xidx yidx)) = true := by
      unfold Retained
      rw [if_neg missing]
      simp [Option.any_eq_true]
    by_cases kept : Retained info options xidx yidx
    · obtain ⟨near, far⟩ := retainedIff.mp kept
      rw [if_neg near, if_neg far, if_pos kept]
      change (xyFromDepth hmCameraImage (xidx + 1 / 2) (yidx + 1 / 2) (depthOf info xidx yidx) >>= _) = _
      rw [xyFromDepth_done (solvable kept missing), Outcome.done_bind]
      simp only [computed, flat, missing, if_false]
      rfl
    · rw [if_neg kept]
      by_cases near : options.minDepth.any (fun min => decide (depthOf info xidx yidx < min)) = true
      · rw [if_pos near]
      · have far : options.maxDepth.any (fun max => decide (max < depthOf info xidx yidx)) = true := by
          by_contra within
          exact kept (retainedIff.mpr ⟨near, within⟩)
        rw [if_neg near, if_pos far]

theorem makeXyzs_points {inverse : Homography K → Homography K} {info : DepthImageInfo K}
    {options : XyzsFromDepthOptions K} (small : info.width * info.height < 2 ^ 31)
    (solvable : ∀ pixel ∈ retained info options, depthAt info pixel.1 pixel.2 ≠ 0 →
      Solvable (inverse (matrix4 info.hmImageCamera)) (pixel.1 + 1 / 2) (pixel.2 + 1 / 2) (depthOf info pixel.1 pixel.2)) :
    makeXyzsFromDepthImage inverse info options = .done
      (((retained info options).map (computed info (inverse (matrix4 info.hmImageCamera)))).flatMap flat) := by
  have each : ∀ pixel ∈ pixels info,
      depthPixel (inverse (matrix4 info.hmImageCamera)) info options pixel.2 pixel.1 =
        .done (if Retained info options pixel.1 pixel.2 then
          flat (computed info (inverse (matrix4 info.hmImageCamera)) pixel) else []) := by
    intro pixel member
    obtain ⟨column, row⟩ := mem_pixels member
    apply depthPixel_done column row
    intro kept
    exact solvable pixel (List.mem_filter.mpr ⟨member, decide_eq_true kept⟩)
  have loops := Outcome.pushAll_done _ each
  unfold pixels at loops
  simp only [Outcome.pushAll_flatMap, Outcome.pushAll_map] at loops
  unfold makeXyzsFromDepthImage
  rw [Outcome.require_of small, Outcome.done_bind, List.flatMap_map]
  apply loops.trans
  exact congrArg Outcome.done (flatMap_if (pixels info) (fun pixel => Retained info options pixel.1 pixel.2) _)

end

section
variable {K : Type} [Field K] [LinearOrder K] [IsStrictOrderedRing K]

theorem epsilon_pos : (0 : K) < epsilon := by
  unfold epsilon
  positivity

theorem nonzero_of_epsilon {value : K} (large : epsilon < |value|) : value ≠ 0 :=
  abs_pos.mp (lt_trans epsilon_pos large)

/-- At the image of a point and its depth, its other coordinates come back. -/
theorem xyFromDepth_image {M P : Homography K} (inverse : M * P = 1) {x y z : K} (seen : weight P x y z ≠ 0)
    (solvable : Solvable M (imageX P x y z) (imageY P x y z) z) :
    xyFromDepth M (imageX P x y z) (imageY P x y z) z = .done (x, y) := by
  obtain ⟨first, second⟩ := unique (nonzero_of_epsilon solvable.denom) (inv_ne_zero seen) (inverse_image inverse seen)
  rw [xyFromDepth_done solvable, first, second]

/-- What is returned for image coordinates and a depth projects to these coordinates. -/
theorem xyFromDepth_projects {M P : Homography K} (inverse : M * P = 1) {ix iy z : K} (solvable : Solvable M ix iy z) :
    ProjectsTo P (alpha M ix iy z) (beta M ix iy z) z ix iy := by
  apply projects_of_inverse inverse
  exact solves (nonzero_of_epsilon solvable.denom) (nonzero_of_epsilon solvable.tau)

theorem computed_point {info : DepthImageInfo K} {inverse : Homography K}
    (inverts : inverse * matrix4 info.hmImageCamera = 1) {pixel : Nat × Nat}
    (solvable : depthAt info pixel.1 pixel.2 ≠ 0 →
      Solvable inverse (pixel.1 + 1 / 2) (pixel.2 + 1 / 2) (depthOf info pixel.1 pixel.2)) :
    PixelPoint info pixel (computed info inverse pixel) := by
  unfold PixelPoint computed
  by_cases missing : depthAt info pixel.1 pixel.2 = 0
  · simp only [missing, if_true]
  · simp only [missing, if_false]
    exact ⟨trivial, xyFromDepth_projects inverts (solvable missing)⟩

/-- Wherever the CHECKs pass, `xy_from_depth` inverts the projection, and the output has the
points of the retained pixels in row-major order. -/
theorem deprojection_inverts {inverse : Homography K → Homography K}
    (inverts : ∀ P : Homography K, IsUnit P → inverse P * P = 1) :
    (∀ P : Homography K, IsUnit P → ∀ x y z, weight P x y z ≠ 0 →
      Solvable (inverse P) (imageX P x y z) (imageY P x y z) z →
      xyFromDepth (inverse P) (imageX P x y z) (imageY P x y z) z = .done (x, y)) ∧
    ∀ (info : DepthImageInfo K) (options : XyzsFromDepthOptions K), IsUnit (matrix4 info.hmImageCamera) →
      info.width * info.height < 2 ^ 31 →
      (∀ pixel ∈ retained info options, depthAt info pixel.1 pixel.2 ≠ 0 →
        Solvable (inverse (matrix4 info.hmImageCamera)) (pixel.1 + 1 / 2) (pixel.2 + 1 / 2)
          (depthOf info pixel.1 pixel.2)) →
      ∃ points, makeXyzsFromDepthImage inverse info options = .done (points.flatMap flat) ∧
        List.Forall₂ (PixelPoint info) (retained info options) points := by
  refine ⟨?_, ?_⟩
  · intro P unit x y z seen solvable
    exact xyFromDepth_image (inverts P unit) seen solvable
  · intro info options unit small solvable
    refine ⟨_, makeXyzs_points small solvable, ?_⟩
    apply List.forall₂_map_right_iff.mpr
    apply List.forall₂_same.mpr
    intro pixel member
    exact computed_point (inverts _ unit) (solvable pixel member)

end

section
variable {K : Type} [Field K] {c : K}

/-- A homography that scales by a number, and what it makes of a point. -/
theorem scaling_image (nonzero : c ≠ 0) (x y z : K) :
    weight (c • (1 : Homography K)) x y z = c ∧ imageX (c • (1 : Homography K)) x y z = x ∧
      imageY (c • (1 : Homography K)) x y z = y := by
  have weighs : weight (c • (1 : Homography K)) x y z = c := by simp [weight, smul_mulVec]
  refine ⟨weighs, ?_, ?_⟩
  · rw [imageX, weighs]
    simp [smul_mulVec, nonzero]
  · rw [imageY, weighs]
    simp [smul_mulVec, nonzero]

theorem scaling_denominators (c ix iy z : K) :
    denom (c • (1 : Homography K)) z = c ∧ tau (c • (1 : Homography K)) ix iy z = c := by
  simp [denom, tau, rayA, rayB]

end

def identity : Vector ℚ 16 := #v[1, 0, 0, 0, 0, 1, 0, 0, 0, 0, 1, 0, 0, 0, 0, 1]

theorem matrix4_identity : matrix4 identity = 1 := by
  ext row column
  fin_cases row <;> fin_cases column <;> rfl

/-! A camera with a focal length of two pixels, whose center is a pixel off the corner. -/

def pinhole : Vector ℚ 16 := #v[2, 0, 0, 0, 0, 2, 0, 0, 1, 1, 0, 1, 0, 0, 1, 0]

def pinholeInverse : Homography ℚ := !![1 / 2, 0, 0, -1 / 2; 0, 1 / 2, 0, -1 / 2; 0, 0, 0, 1; 0, 0, 1, 0]

theorem pinholeInverse_mul : pinholeInverse * matrix4 pinhole = 1 := by decide +kernel

/-- Every point in front of this camera can be solved for. -/
theorem pinhole_solvable (ix iy : ℚ) {z : ℚ} (near : 1 ≤ z) (far : z ≤ 1000) : Solvable pinholeInverse ix iy z := by
  have regular : denom pinholeInverse z = -z := by simp [denom, rayB, pinholeInverse]
  have inverse : tau pinholeInverse ix iy z = z⁻¹ := by
    rw [tau, lambda, regular]
    simp [rayA, rayB, pinholeInverse, neg_div_neg_eq]
  constructor
  · rw [regular, abs_neg, abs_of_pos (by linarith)]
    norm_num [epsilon]
    linarith
  · have small : (1000 : ℚ)⁻¹ ≤ z⁻¹ := inv_anti₀ (by linarith) far
    rw [inverse, abs_of_pos (by positivity)]
    norm_num [epsilon] at small ⊢
    linarith

/-- A wall in the first pixel, and nothing in the second. -/
def twoPixels : DepthImageInfo ℚ := ⟨2, 1, 1, [4, 0], pinhole, rfl⟩

theorem deprojection_inverts_pinhole :
    xyFromDepth (matrix4 pinhole)⁻¹ (imageX (matrix4 pinhole) 2 3 4) (imageY (matrix4 pinhole) 2 3 4) 4 = .done (2, 3) ∧
      ∃ points, makeXyzsFromDepthImage (·⁻¹) twoPixels {} = .done (points.flatMap flat) ∧
        List.Forall₂ (PixelPoint twoPixels) [(0, 0), (1, 0)] points := by
  have unit : IsUnit (matrix4 pinhole) := (isUnit_iff_isUnit_det _).mpr (isUnit_det_of_left_inverse pinholeInverse_mul)
  have inverse : (matrix4 pinhole)⁻¹ = pinholeInverse := inv_eq_left_inv pinholeInverse_mul
  have inverts : ∀ P : Homography ℚ, IsUnit P → P⁻¹ * P = 1 := fun P unit =>
    nonsing_inv_mul P ((isUnit_iff_isUnit_det P).mp unit)
  obtain ⟨point, image⟩ := deprojection_inverts inverts
  have every : retained twoPixels {} = [(0, 0), (1, 0)] := by decide +kernel
  constructor
  · apply point _ unit
    · decide +kernel
    · rw [inverse]
      exact pinhole_solvable _ _ (by norm_num) (by norm_num)
  · rw [← every]
    apply image twoPixels {} unit (by decide)
    intro pixel member seen
    have depth : depthOf twoPixels pixel.1 pixel.2 = 4 := by
      rw [every, List.mem_cons, List.mem_singleton] at member
      obtain rfl | rfl := member
      · decide +kernel
      · exact absurd rfl seen
    change Solvable (matrix4 pinhole)⁻¹ _ _ _
    rw [inverse, depth]
    exact pinhole_solvable _ _ (by norm_num) (by norm_num)

/-- Denominators that are small but not zero fail a CHECK, and the number of pixels of an image
may overflow an int. -/
theorem checks_fail :
    (∃ M P : Homography ℚ, M * P = 1 ∧ weight P 1 2 3 ≠ 0 ∧ denom M 3 ≠ 0 ∧ tau M (imageX P 1 2 3) (imageY P 1 2 3) 3 ≠ 0 ∧
      xyFromDepth M (imageX P 1 2 3) (imageY P 1 2 3) 3 = .checkFailed) ∧
    ∃ info : DepthImageInfo ℚ, matrix4 info.hmImageCamera = 1 ∧
      ∀ inverse options, makeXyzsFromDepthImage inverse info options = .undefined := by
  constructor
  · obtain ⟨seen, _, _⟩ := scaling_image (show (2 ^ 40 : ℚ) ≠ 0 by norm_num) 1 2 3
    refine ⟨(2 ^ 40 : ℚ)⁻¹ • 1, (2 ^ 40 : ℚ) • 1, ?_, ?_, ?_, ?_, ?_⟩
    · rw [smul_mul_smul_comm, one_mul, inv_mul_cancel₀ (by norm_num), one_smul]
    · rw [seen]
      norm_num
    · rw [(scaling_denominators _ 0 0 3).1]
      norm_num
    · rw [(scaling_denominators _ _ _ 3).2]
      norm_num
    · have small : ¬ epsilon < |denom ((2 ^ 40 : ℚ)⁻¹ • (1 : Homography ℚ)) 3| := by
        rw [(scaling_denominators _ 0 0 3).1]
        norm_num [epsilon]
      unfold xyFromDepth
      rw [Outcome.check_failed small, Outcome.checkFailed_bind]
  · refine ⟨⟨2 ^ 16, 2 ^ 15, 1, List.replicate (2 ^ 16 * 2 ^ 15) 0, identity, List.length_replicate⟩,
      matrix4_identity, ?_⟩
    intro inverse options
    unfold makeXyzsFromDepthImage
    rw [Outcome.require_undefined (by norm_num)]
    rfl

end AxbyCore.Proofs.Deprojection
