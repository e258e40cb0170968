import AxbyCore.Proofs.Deprojection
import Mathlib.Data.Rat.Floor

/-! Depth looked up at image coordinates. The test for the borders lets the right one
through, and what lies there is the first pixel of the next row, or a failed CHECK. -/

namespace AxbyCore.Proofs.DepthCoordinates
open AxbyCore.Rgbd Deprojection Homography MachineInt Matrix

section
variable {K : Type} [Field K] [LinearOrder K] [FloorRing K]

theorem toInt_eq_done {value : K} {whole : Int} :
    toInt value = .done whole ↔ FitsInt32 (truncate value) ∧ truncate value = whole := by
  unfold toInt
  rw [Outcome.bind_eq_done]
  constructor
  · rintro ⟨_, fits, equal⟩
    cases equal
    exact ⟨Outcome.require_eq_done.mp fits, rfl⟩
  · rintro ⟨fits, rfl⟩
    exact ⟨(), Outcome.require_of fits, rfl⟩

theorem truncate_nonneg {value : K} (nonneg : 0 ≤ value) : truncate value = (⌊value⌋₊ : Int) := by
  unfold truncate
  rw [if_pos nonneg, Int.natCast_floor_eq_floor nonneg]

end

theorem pixelIndex (column row width : Nat) : ((row : Int) * width + column).toNat = column + row * width := by
  rw [← Nat.cast_mul]
  omega

section
variable {K : Type} [Field K] [LinearOrder K] (M : Homography K) (info : DepthImageInfo K) (x y : K)

/-- The test for the borders lets the pair through. -/
def Passing : Prop := ¬ (x < 0 ∨ y < 0 ∨ toFloat info.width < x ∨ toFloat info.height < y)

instance : Decidable (Passing info x y) := inferInstanceAs (Decidable (¬ _))

variable {info x y} in
theorem Passing.nonneg (passing : Passing info x y) : 0 ≤ x ∧ 0 ≤ y := by
  constructor
  · exact not_lt.mp fun negative => passing (.inl negative)
  · exact not_lt.mp fun negative => passing (.inr (.inl negative))

variable [FloorRing K]

/-- The pair looks up a pixel of the image, and the CHECKs of `xy_from_depth` pass there. -/
structure Found : Prop where
  inside : ⌊x⌋₊ + ⌊y⌋₊ * info.width < info.width * info.height
  solvable : depthAt info ⌊x⌋₊ ⌊y⌋₊ ≠ 0 → Solvable M x y (depthOf info ⌊x⌋₊ ⌊y⌋₊)

/-- The triple for a pair that returns. -/
def lookedUp (pair : K × K) : K × K × K :=
  if Passing info pair.1 pair.2 ∧ depthAt info ⌊pair.1⌋₊ ⌊pair.2⌋₊ ≠ 0 then
    let z := depthOf info ⌊pair.1⌋₊ ⌊pair.2⌋₊
    (alpha M pair.1 pair.2 z, beta M pair.1 pair.2 z, z)
  else (0, 0, 0)

variable {M info x y}

theorem lookUp_stopped (stopped : ¬ Passing info x y) : lookUp M info x y = .done (flat (lookedUp M info (x, y))) := by
  unfold lookUp lookedUp
  rw [if_pos (not_not.mp stopped), if_neg fun both => stopped both.1]
  rfl

theorem lookUp_passing (passing : Passing info x y) (small : info.width * info.height < 2 ^ 31) (found : Found M info x y) :
    lookUp M info x y = .done (flat (lookedUp M info (x, y))) := by
  obtain ⟨nonnegX, nonnegY⟩ := passing.nonneg
  have inside := found.inside
  have row : ⌊y⌋₊ * info.width < 2 ^ 31 := by omega
  have wide : 0 < info.width := Nat.pos_of_mul_pos_right (Nat.lt_of_le_of_lt (Nat.zero_le _) inside)
  have rows : ⌊y⌋₊ ≤ ⌊y⌋₊ * info.width := Nat.le_mul_of_pos_right _ wide
  have intX : toInt x = .done (⌊x⌋₊ : Int) :=
    toInt_eq_done.mpr ⟨by rw [truncate_nonneg nonnegX]; unfold FitsInt32; omega, truncate_nonneg nonnegX⟩
  have intY : toInt y = .done (⌊y⌋₊ : Int) :=
    toInt_eq_done.mpr ⟨by rw [truncate_nonneg nonnegY]; unfold FitsInt32; omega, truncate_nonneg nonnegY⟩
  have product : FitsInt32 ((⌊y⌋₊ : Int) * info.width) := by
    unfold FitsInt32
    rw [← Nat.cast_mul]
    omega
  have sum : FitsInt32 ((⌊y⌋₊ : Int) * info.width + ⌊x⌋₊) := by
    unfold FitsInt32
    rw [← Nat.cast_mul]
    omega
  have checked : (⌊y⌋₊ : Int) * info.width + ⌊x⌋₊ < (info.width * info.height : Nat) := by
    rw [← Nat.cast_mul]
    omega
  unfold lookUp
  rw [if_neg passing]
  rw [intX, Outcome.done_bind, intY, Outcome.done_bind, Outcome.require_of product, Outcome.done_bind,
    Outcome.require_of sum, Outcome.done_bind]
  dsimp only
  rw [Outcome.check_of checked, Outcome.done_bind, pixelIndex, depth_read inside, Outcome.done_bind]
  unfold lookedUp
  by_cases missing : depthAt info ⌊x⌋₊ ⌊y⌋₊ = 0
  · rw [if_pos missing, if_neg fun both => both.2 missing]
    rfl
  · rw [if_neg missing, if_pos ⟨passing, missing⟩]
    change (xyFromDepth M x y (depthOf info ⌊x⌋₊ ⌊y⌋₊) >>= _) = _
    rw [xyFromDepth_done (found.solvable missing), Outcome.done_bind]
    rfl

theorem lookUp_found (passing : Passing info x y) {pushed : List K} (returned : lookUp M info x y = .done pushed) :
    Found M info x y := by
  obtain ⟨nonnegX, nonnegY⟩ := passing.nonneg
  unfold lookUp at returned
  rw [if_neg passing] at returned
  obtain ⟨ix, intX, returned⟩ := Outcome.bind_eq_done.mp returned
  obtain ⟨iy, intY, returned⟩ := Outcome.bind_eq_done.mp returned
  obtain rfl := (truncate_nonneg nonnegX).symm.trans (toInt_eq_done.mp intX).2
  obtain rfl := (truncate_nonneg nonnegY).symm.trans (toInt_eq_done.mp intY).2
  obtain ⟨_, _, returned⟩ := Outcome.bind_eq_done.mp returned
  obtain ⟨_, _, returned⟩ := Outcome.bind_eq_done.mp returned
  obtain ⟨_, checked, returned⟩ := Outcome.bind_eq_done.mp returned
  have below := Outcome.check_eq_done.mp checked
  have inside : ⌊x⌋₊ + ⌊y⌋₊ * info.width < info.width * info.height := by
    rw [← Nat.cast_mul] at below
    omega
  refine ⟨inside, ?_⟩
  intro present
  rw [pixelIndex, depth_read inside, Outcome.done_bind, if_neg present] at returned
  obtain ⟨xy, solved, _⟩ := Outcome.bind_eq_done.mp returned
  exact xyFromDepth_eq_done solved

theorem lookUp_done_iff (small : info.width * info.height < 2 ^ 31) {pushed : List K} :
    lookUp M info x y = .done pushed ↔
      (Passing info x y → Found M info x y) ∧ pushed = flat (lookedUp M info (x, y)) := by
  constructor
  · intro returned
    have found (passing : Passing info x y) : Found M info x y := lookUp_found passing returned
    refine ⟨found, ?_⟩
    have computed : lookUp M info x y = .done (flat (lookedUp M info (x, y))) := by
      by_cases passing : Passing info x y
      · exact lookUp_passing passing small (found passing)
      · exact lookUp_stopped passing
    rw [computed] at returned
    cases returned
    rfl
  · rintro ⟨found, rfl⟩
    by_cases passing : Passing info x y
    · exact lookUp_passing passing small (found passing)
    · exact lookUp_stopped passing

end

/-- The pairs that the loop takes from a list. -/
def pairsOf {α : Type} : List α → List (α × α)
  | x :: y :: rest => (x, y) :: pairsOf rest
  | _ => []

theorem pairsOf_length {α : Type} (coordinates : List α) : (pairsOf coordinates).length = coordinates.length / 2 := by
  induction coordinates using pairsOf.induct with
  | case1 x y rest ih =>
    simp only [pairsOf, List.length_cons, ih]
    omega
  | case2 coordinates short =>
    rcases coordinates with _ | ⟨x, _ | ⟨y, rest⟩⟩
    · simp [pairsOf]
    · simp [pairsOf]
    · exact absurd rfl (short x y rest)

theorem pairsOf_getElem {α : Type} {coordinates : List α} {i : Nat} {pair : α × α}
    (held : (pairsOf coordinates)[i]? = some pair) :
    coordinates[2 * i]? = some pair.1 ∧ coordinates[2 * i + 1]? = some pair.2 := by
  induction coordinates using pairsOf.induct generalizing i with
  | case1 x y rest ih =>
    cases i with
    | zero =>
      obtain rfl : (x, y) = pair := by simpa [pairsOf] using held
      exact ⟨rfl, rfl⟩
    | succ i =>
      obtain ⟨first, second⟩ := ih (by simpa [pairsOf] using held)
      exact ⟨first, second⟩
  | case2 coordinates short =>
    rcases coordinates with _ | ⟨x, _ | ⟨y, rest⟩⟩
    · cases held
    · cases held
    · exact absurd rfl (short x y rest)

theorem pairsOf_mem {α : Type} {coordinates : List α} {pair : α × α} (member : pair ∈ pairsOf coordinates) :
    pair.1 ∈ coordinates ∧ pair.2 ∈ coordinates := by
  obtain ⟨i, held⟩ := List.mem_iff_getElem?.mp member
  obtain ⟨first, second⟩ := pairsOf_getElem held
  exact ⟨List.mem_of_getElem? first, List.mem_of_getElem? second⟩

theorem flatMap_flat_injective {K : Type} {points others : List (K × K × K)} (same : points.flatMap flat = others.flatMap flat) :
    points = others := by
  induction points generalizing others with
  | nil =>
    cases others with
    | nil => rfl
    | cons other others => cases same
  | cons point points ih =>
    cases others with
    | nil => cases same
    | cons other others =>
      simp only [List.flatMap_cons, flat, List.cons_append, List.nil_append, List.cons.injEq] at same
      obtain ⟨x, y, z, rest⟩ := same
      rw [ih rest]
      congr 1
      exact Prod.ext x (Prod.ext y z)

section
variable {K : Type} [Field K] [LinearOrder K] [FloorRing K] {M : Homography K} {info : DepthImageInfo K}

theorem depthCoordinate_done_iff (small : info.width * info.height < 2 ^ 31) {coordinates : List K} (i : Nat) (pair : K × K)
    (held : (pairsOf coordinates)[i]? = some pair) (pushed : List K) :
    depthCoordinate M info coordinates i = .done pushed ↔
      (2 * i + 2 < 2 ^ 31 ∧ (Passing info pair.1 pair.2 → Found M info pair.1 pair.2)) ∧
        pushed = flat (lookedUp M info pair) := by
  obtain ⟨first, second⟩ := pairsOf_getElem held
  unfold depthCoordinate
  rw [first, second]
  change (lookUp M info pair.1 pair.2 >>= _) = _ ↔ _
  rw [Outcome.bind_eq_done]
  constructor
  · rintro ⟨piece, looked, rest⟩
    obtain ⟨_, counted, same⟩ := Outcome.bind_eq_done.mp rest
    cases same
    obtain ⟨found, rfl⟩ := (lookUp_done_iff small).mp looked
    exact ⟨⟨Outcome.require_eq_done.mp counted, found⟩, rfl⟩
  · rintro ⟨⟨counted, found⟩, rfl⟩
    refine ⟨_, (lookUp_done_iff small).mpr ⟨found, rfl⟩, ?_⟩
    rw [Outcome.require_of counted, Outcome.done_bind]
    rfl

/-- The loop returns exactly if it can count its steps and every pair returns. -/
theorem loop_done_iff (small : info.width * info.height < 2 ^ 31) {coordinates : List K} (even : coordinates.length % 2 = 0)
    {out : List K} :
    Outcome.pushAll (depthCoordinate M info coordinates) (List.range ((coordinates.length + 1) / 2)) = .done out ↔
      coordinates.length < 2 ^ 31 ∧
        (∀ pair ∈ pairsOf coordinates, Passing info pair.1 pair.2 → Found M info pair.1 pair.2) ∧
        out = ((pairsOf coordinates).map (lookedUp M info)).flatMap flat := by
  have length := pairsOf_length coordinates
  have many : (coordinates.length + 1) / 2 = (pairsOf coordinates).length := by omega
  rw [many, Outcome.pushAll_range_done_iff (depthCoordinate_done_iff small), List.flatMap_map, ← and_assoc]
  apply and_congr_left'
  constructor
  · intro each
    constructor
    · rcases Nat.eq_zero_or_pos (pairsOf coordinates).length with empty | positive
      · omega
      · have last := (each ((pairsOf coordinates).length - 1) _ (List.getElem?_eq_getElem (by omega))).1
        omega
    · intro pair member
      obtain ⟨i, held⟩ := List.mem_iff_getElem?.mp member
      exact (each i pair held).2
  · rintro ⟨counted, found⟩ i pair held
    have inside := (List.getElem?_eq_some_iff.mp held).1
    exact ⟨by omega, found pair (List.mem_of_getElem? held)⟩

end

section
variable {K : Type} [Field K] [LinearOrder K] [IsStrictOrderedRing K] [FloorRing K] (info : DepthImageInfo K)

/-- What a pair should give: a point at the depth of its pixel that projects to it, or zeros. -/
def CoordinatePoint (pair : K × K) (point : K × K × K) : Prop :=
  if (0 ≤ pair.1 ∧ pair.1 < info.width ∧ 0 ≤ pair.2 ∧ pair.2 < info.height) ∧ depthAt info ⌊pair.1⌋₊ ⌊pair.2⌋₊ ≠ 0 then
    point.2.2 = depthOf info ⌊pair.1⌋₊ ⌊pair.2⌋₊ ∧
      ProjectsTo (matrix4 info.hmImageCamera) point.1 point.2.1 point.2.2 pair.1 pair.2
  else point = (0, 0, 0)

/-- The call returns with the points of the pairs, in order. -/
def LooksUp (coordinates : List K) (outcome : Outcome (List K)) : Prop :=
  ∃ points : List (K × K × K), outcome = .done (points.flatMap flat) ∧
    List.Forall₂ (CoordinatePoint info) (pairsOf coordinates) points

/-- Behind the right border there is no depth, unless the point is the origin all the same. -/
def EmptyBehind (x y : K) : Prop :=
  (info.width : K) ≤ x → depthAt info ⌊x⌋₊ ⌊y⌋₊ ≠ 0 →
    info.depthScale = 0 ∧ ProjectsTo (matrix4 info.hmImageCamera) 0 0 0 x y

variable {info}

theorem depthOf_ne_zero {xidx yidx : Nat} (present : depthAt info xidx yidx ≠ 0) (zero : depthOf info xidx yidx = 0) :
    info.depthScale = 0 := by
  rcases mul_eq_zero.mp zero with absent | scale
  · exfalso
    apply present
    have none : (depthAt info xidx yidx).toNat = 0 := by exact_mod_cast absent
    exact UInt16.toNat_inj.mp none
  · exact scale

/-- A pair that returns has its point exactly if nothing is found behind the right border. -/
theorem lookedUp_point {M : Homography K} (inverse : M * matrix4 info.hmImageCamera = 1) {x y : K}
    (floatX : Binary32.IsFloat x) (floatY : Binary32.IsFloat y)
    (found : Passing info x y → Found M info x y) :
    CoordinatePoint info (x, y) (lookedUp M info (x, y)) ↔ (Passing info x y → EmptyBehind info x y) := by
  unfold CoordinatePoint lookedUp
  dsimp only
  by_cases passing : Passing info x y
  · obtain ⟨nonnegX, nonnegY⟩ := passing.nonneg
    obtain ⟨inside, solvable⟩ := found passing
    have above : y < info.height := by
      have row : ⌊y⌋₊ * info.width < info.width * info.height := by omega
      rw [Nat.mul_comm] at row
      exact (Nat.floor_lt nonnegY).mp (Nat.lt_of_mul_lt_mul_left row)
    by_cases missing : depthAt info ⌊x⌋₊ ⌊y⌋₊ = 0
    · rw [if_neg fun both => both.2 missing, if_neg fun both => both.2 missing]
      exact iff_of_true rfl fun _ _ present => absurd missing present
    · rw [if_pos (And.intro passing missing)]
      have projects := xyFromDepth_projects inverse (solvable missing)
      by_cases left : x < info.width
      · rw [if_pos ⟨⟨nonnegX, left, nonnegY, above⟩, missing⟩]
        exact iff_of_true ⟨rfl, projects⟩ fun _ right => absurd left (not_lt.mpr right)
      · rw [if_neg fun both => left both.1.2.1]
        constructor
        · intro origin _ _ _
          simp only [Prod.mk.injEq] at origin
          obtain ⟨first, second, third⟩ := origin
          rw [first, second, third] at projects
          exact ⟨depthOf_ne_zero missing third, projects⟩
        · intro empty
          obtain ⟨scale, origin⟩ := empty passing (not_lt.mp left) missing
          have zero : depthOf info ⌊x⌋₊ ⌊y⌋₊ = 0 := by rw [depthOf, scale, mul_zero]
          have solved := solvable missing
          rw [zero] at solved ⊢
          have back := xyFromDepth_image inverse origin.seen (by rw [origin.imageX, origin.imageY]; exact solved)
          rw [origin.imageX, origin.imageY, xyFromDepth_done solved] at back
          have pair := Outcome.done.inj back
          rw [Prod.mk.injEq] at pair
          rw [pair.1, pair.2]
  · have outside : ¬ (0 ≤ x ∧ x < info.width ∧ 0 ≤ y ∧ y < info.height) := by
      rintro ⟨nonnegX, left, nonnegY, above⟩
      apply passing
      rintro (negative | negative | right | below)
      · exact not_lt.mpr nonnegX negative
      · exact not_lt.mpr nonnegY negative
      · exact not_lt.mpr (floatX.le_round left.le) right
      · exact not_lt.mpr (floatY.le_round above.le) below
    rw [if_neg fun both => outside both.1, if_neg fun both => passing both.1]
    exact iff_of_true rfl fun passes => absurd passes passing

/-- The lookup does what it should exactly if the ints hold, and every pair that the test
lets through finds a pixel, which is one of the image or empty. -/
theorem coordinates_looked_up {inverse : Homography K → Homography K}
    (inverts : ∀ P : Homography K, IsUnit P → inverse P * P = 1) (unit : IsUnit (matrix4 info.hmImageCamera))
    {coordinates : List K} (even : coordinates.length % 2 = 0) (floats : ∀ value ∈ coordinates, Binary32.IsFloat value) :
    LooksUp info coordinates (makeXyzsFromDepthImageCoordinates inverse info coordinates) ↔
      info.width * info.height < 2 ^ 31 ∧ coordinates.length < 2 ^ 31 ∧
        ∀ pair ∈ pairsOf coordinates, Passing info pair.1 pair.2 →
          Found (inverse (matrix4 info.hmImageCamera)) info pair.1 pair.2 ∧ EmptyBehind info pair.1 pair.2 := by
  have point (pair : K × K) (member : pair ∈ pairsOf coordinates) :=
    @lookedUp_point K _ _ _ _ info _ (inverts _ unit) pair.1 pair.2 (floats _ (pairsOf_mem member).1)
      (floats _ (pairsOf_mem member).2)
  unfold LooksUp makeXyzsFromDepthImageCoordinates
  by_cases small : info.width * info.height < 2 ^ 31
  · rw [Outcome.require_of small, Outcome.done_bind]
    dsimp only
    constructor
    · rintro ⟨points, returned, all⟩
      obtain ⟨counted, found, same⟩ := (loop_done_iff small even).mp returned
      obtain rfl := flatMap_flat_injective same
      refine ⟨small, counted, ?_⟩
      intro pair member passing
      have each := List.forall₂_same.mp (List.forall₂_map_right_iff.mp all) pair member
      exact ⟨found pair member passing, (point pair member (found pair member)).mp each passing⟩
    · rintro ⟨_, counted, handled⟩
      refine ⟨_, (loop_done_iff small even).mpr ⟨counted, fun pair member passing => (handled pair member passing).1, rfl⟩, ?_⟩
      apply List.forall₂_map_right_iff.mpr
      apply List.forall₂_same.mpr
      intro pair member
      apply (point pair member fun passing => (handled pair member passing).1).mpr
      exact fun passing => (handled pair member passing).2
  · rw [Outcome.require_undefined small, Outcome.undefined_bind]
    apply iff_of_false
    · rintro ⟨points, returned, _⟩
      cases returned
    · exact fun conditions => small conditions.1

end

/-- An image of four pixels, of which the first of the second row has depth. -/
def fourPixels : DepthImageInfo ℚ := ⟨2, 2, 1, [0, 0, 5, 0], identity, rfl⟩

theorem coordinates_looked_up_pixel :
    LooksUp fourPixels [1 / 2, 1] (makeXyzsFromDepthImageCoordinates (fun P => P⁻¹) fourPixels [1 / 2, 1]) := by
  have camera : matrix4 fourPixels.hmImageCamera = 1 := matrix4_identity
  have inverts : ∀ P : Homography ℚ, IsUnit P → P⁻¹ * P = 1 := fun P unit =>
    nonsing_inv_mul P ((isUnit_iff_isUnit_det P).mp unit)
  have floats : ∀ value ∈ ([1 / 2, 1] : List ℚ), Binary32.IsFloat value := by
    intro value member
    rcases List.mem_cons.mp member with rfl | last
    · exact ⟨1, -1, by decide, by decide, by decide, by norm_num⟩
    · obtain rfl := List.mem_singleton.mp last
      exact ⟨1, 0, by decide, by decide, by decide, by norm_num⟩
  apply (coordinates_looked_up inverts (camera ▸ isUnit_one) (by decide) floats).mpr
  refine ⟨by decide, by decide, ?_⟩
  intro pair member _
  obtain rfl : pair = (1 / 2, 1) := List.mem_singleton.mp member
  have column : ⌊(1 / 2 : ℚ)⌋₊ = 0 := by norm_num
  have row : ⌊(1 : ℚ)⌋₊ = 1 := Nat.floor_one
  obtain ⟨first, second⟩ := scaling_denominators 1 (1 / 2) 1 (depthOf fourPixels 0 1)
  rw [one_smul] at first second
  constructor
  · constructor
    · simp only [column, row]
      decide
    · simp only [column, row]
      intro _
      rw [camera, inv_one]
      constructor
      · rw [first]
        norm_num [epsilon]
      · rw [second]
        norm_num [epsilon]
  · intro behind
    norm_num [fourPixels] at behind

/-- A pair on the right border gets the point of a pixel, and one on the lower border fails a CHECK. -/
theorem borders_pass :
    makeXyzsFromDepthImageCoordinates (fun _ => 1) fourPixels [2, 0] = .done [2, 0, 5] ∧
      makeXyzsFromDepthImageCoordinates (fun _ => 1) fourPixels [0, 2] = .checkFailed ∧
      ¬ LooksUp fourPixels [2, 0] (makeXyzsFromDepthImageCoordinates (fun _ => 1) fourPixels [2, 0]) := by
  have right : makeXyzsFromDepthImageCoordinates (fun _ => 1) fourPixels [2, 0] = .done [2, 0, 5] := by decide +kernel
  refine ⟨right, by decide +kernel, ?_⟩
  rw [right]
  rintro ⟨points, returned, all⟩
  cases all with
  | cons first rest =>
    cases rest
    have zeros := first
    rw [CoordinatePoint, if_neg fun both => absurd both.1.2.1 (by norm_num [fourPixels])] at zeros
    subst zeros
    revert returned
    decide +kernel

end AxbyCore.Proofs.DepthCoordinates
