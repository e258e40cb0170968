import AxbyCore.Library.WeightedMean
import AxbyCore.Proofs.PointColors
import AxbyCore.Rgbd.Lifting
import Mathlib.Analysis.SpecialFunctions.Exp

/-! Image points lifted into a scene. The depth is a mean of those of the points that project
near, and the point is the one of the ray at this depth. -/

namespace AxbyCore.Proofs.PointLifting
open AxbyCore.Rgbd Deprojection PointColors Homography Matrix

/-- The numbers of a pair as they lie in the input. -/
def flatPair {K : Type} (pair : K × K) : List K := [pair.1, pair.2]

theorem flatPair_length {K : Type} (pair : K × K) : (flatPair pair).length = 2 := rfl

theorem flatMap_flatPair_getElem {K : Type} {pairs : List (K × K)} {i : Nat} {pair : K × K} (held : pairs[i]? = some pair) :
    (pairs.flatMap flatPair)[2 * i]? = some pair.1 ∧ (pairs.flatMap flatPair)[2 * i + 1]? = some pair.2 := by
  have number (j : Nat) (inside : j < 2) := flatMap_getElem flatPair_length held inside
  exact ⟨number 0 (by decide), number 1 (by decide)⟩

section
variable {K : Type} [Field K] (P : Homography K) (scene : List (K × K × K))

def projection (point : K × K × K) : K × K :=
  (imageX P point.1 point.2.1 point.2.2, imageY P point.1 point.2.1 point.2.2)

/-- The data of the tree over the projections of the scene. -/
def sceneData : NanoFlannData K := ⟨(scene.map (projection P)).flatMap flatPair⟩

/-- How far from a query a point projects. -/
def distanceSquared (query : K × K) (point : K × K × K) : K :=
  (query.1 - (projection P point).1) * (query.1 - (projection P point).1) +
    (query.2 - (projection P point).2) * (query.2 - (projection P point).2)

def distances (query : K × K) : List K := scene.map (distanceSquared P query)

def sceneZ (entry : Nat × K) : K := (scene[entry.1]?.map fun point => point.2.2).getD 0

variable {P scene}

theorem evalMetric_distance {query : K × K} {i : Nat} {distance : K} (held : (distances P scene query)[i]? = some distance) :
    evalMetric (sceneData P scene) query i = .done distance := by
  unfold distances at held
  rw [List.getElem?_map] at held
  obtain ⟨point, known, rfl⟩ := Option.map_eq_some_iff.mp held
  have pixel : (scene.map (projection P))[i]? = some (projection P point) := by rw [List.getElem?_map, known]; rfl
  obtain ⟨x, y⟩ := flatMap_flatPair_getElem pixel
  have inside := (List.getElem?_eq_some_iff.mp x).1
  unfold evalMetric NanoFlannData.kdtreeGetPt sceneData
  rw [Nat.mul_comm i 2, Nat.add_zero, x, y, Outcome.check_of inside]
  rfl

variable [LinearOrder K]

theorem searches_scene {knnSearch : NanoFlannData K → K × K → Nat → List (Nat × K)} (searches : Searches knnSearch)
    (query : K × K) (count : Nat) :
    Nearest (distances P scene query) count (knnSearch (sceneData P scene) query count) := by
  apply searches
  · unfold distances NanoFlannData.kdtreeGetPointCount sceneData
    have length := flatMap_length flatPair_length (scene.map (projection P))
    rw [List.length_map] at length ⊢
    dsimp only
    omega
  · intro i distance held
    exact evalMetric_distance held

end

section
variable {K : Type} [Field K] [LinearOrder K] (exp : K → K) (scene : List (K × K × K))

/-- The neighbours that are near enough to count. -/
def validNeighbors (found : List (Nat × K)) : List (Nat × K) := found.filter fun entry => entry.2 ≤ maxDistSquared

def neighborWeight (entry : Nat × K) : K := exp (-entry.2 / maxDistSquared)

def estimatedZ (found : List (Nat × K)) : K := weightedMean (neighborWeight exp) (sceneZ scene) (validNeighbors found)

/-- What is written for a query that returns. -/
def lifted (M : Homography K) (query : K × K) (found : List (Nat × K)) : K × K × K :=
  if validNeighbors found = [] then (0, 0, 0)
  else
    let z := estimatedZ exp scene found
    (alpha M query.1 query.2 z, beta M query.1 query.2 z, z)

variable {exp scene}

theorem matchNeighbor_far {matched : Matched K} {neighbor : Nat × K} (far : ¬ neighbor.2 ≤ maxDistSquared) :
    matchNeighbor exp (scene.flatMap flat) matched neighbor = .done matched := by
  unfold matchNeighbor
  dsimp only
  rw [if_pos (not_le.mp far)]
  rfl

theorem matchNeighbor_valid {matched : Matched K} {neighbor : Nat × K} {point : K × K × K}
    (held : scene[neighbor.1]? = some point) (few : 3 * neighbor.1 < 2 ^ 32) (valid : neighbor.2 ≤ maxDistSquared) :
    matchNeighbor exp (scene.flatMap flat) matched neighbor = .done {
      numValid := matched.numValid + 1
      totalWeight := matched.totalWeight + neighborWeight exp neighbor
      matchedPointAcc := (matched.matchedPointAcc.1 + point.1 * neighborWeight exp neighbor,
        matched.matchedPointAcc.2.1 + point.2.1 * neighborWeight exp neighbor,
        matched.matchedPointAcc.2.2 + point.2.2 * neighborWeight exp neighbor) } := by
  obtain ⟨x, y, z⟩ := flatMap_flat_getElem held
  unfold matchNeighbor
  dsimp only
  rw [if_neg (not_lt.mpr valid), Nat.mod_eq_of_lt few, x, y, z]
  rfl

/-- The loop counts the neighbours near enough, and sums their weights and weighted depths. -/
theorem matching {found : List (Nat × K)} (known : ∀ entry ∈ found, entry.1 < scene.length ∧ 3 * entry.1 < 2 ^ 32)
    (matched : Matched K) :
    ∃ after : Matched K, found.foldlM (matchNeighbor exp (scene.flatMap flat)) matched = .done after ∧
      after.numValid = matched.numValid + (validNeighbors found).length ∧
      after.totalWeight = matched.totalWeight + ((validNeighbors found).map (neighborWeight exp)).sum ∧
      after.matchedPointAcc.2.2 = matched.matchedPointAcc.2.2 +
        ((validNeighbors found).map fun entry => sceneZ scene entry * neighborWeight exp entry).sum := by
  induction found generalizing matched with
  | nil => exact ⟨matched, rfl, by simp [validNeighbors], by simp [validNeighbors], by simp [validNeighbors]⟩
  | cons entry found ih =>
    obtain ⟨⟨inside, few⟩, rest⟩ := List.forall_mem_cons.mp known
    have held := List.getElem?_eq_getElem inside
    rw [List.foldlM_cons]
    by_cases valid : entry.2 ≤ maxDistSquared
    · rw [matchNeighbor_valid held few valid, Outcome.done_bind]
      have counts : validNeighbors (entry :: found) = entry :: validNeighbors found :=
        List.filter_cons_of_pos (by simpa using valid)
      have depth : sceneZ scene entry = scene[entry.1].2.2 := by
        unfold sceneZ
        rw [held]
        rfl
      obtain ⟨after, ran, number, total, sum⟩ := ih rest _
      refine ⟨after, ran, ?_, ?_, ?_⟩
      · rw [number, counts, List.length_cons, Nat.add_comm (validNeighbors found).length, ← Nat.add_assoc]
      · rw [total, counts, List.map_cons, List.sum_cons, add_assoc]
      · rw [sum, counts, List.map_cons, List.sum_cons, depth, add_assoc]
    · rw [matchNeighbor_far valid, Outcome.done_bind]
      have skips : validNeighbors (entry :: found) = validNeighbors found :=
        List.filter_cons_of_neg (by simpa using valid)
      rw [skips]
      exact ih rest matched

/-- A query returns exactly if the counter holds and the CHECKs of `xy_from_depth` pass. -/
theorem liftQuery_done_iff {M : Homography K} {knnSearch : K × K → Nat → List (Nat × K)} {queries : List (K × K)}
    (known : ∀ query, ∀ entry ∈ knnSearch query numNbrs, entry.1 < scene.length ∧ 3 * entry.1 < 2 ^ 32)
    (q : Nat) (query : K × K) (held : queries[q]? = some query) (pushed : List K) :
    liftQuery exp knnSearch M (scene.flatMap flat) (queries.flatMap flatPair) q = .done pushed ↔
      (3 * q < 2 ^ 31 ∧ (validNeighbors (knnSearch query numNbrs) ≠ [] →
        Solvable M query.1 query.2 (estimatedZ exp scene (knnSearch query numNbrs)))) ∧
      pushed = flat (lifted exp scene M query (knnSearch query numNbrs)) := by
  obtain ⟨x, y⟩ := flatMap_flatPair_getElem held
  obtain ⟨after, ran, number, total, sum⟩ := @matching _ _ _ exp _ _ (known query) ⟨0, 0, 0⟩
  rw [Nat.zero_add] at number
  have mean : after.matchedPointAcc.2.2 / after.totalWeight = estimatedZ exp scene (knnSearch query numNbrs) := by
    rw [sum, total]
    exact congrArg₂ (· / ·) (zero_add _) (zero_add _)
  unfold liftQuery
  rw [x, y]
  change (List.foldlM (matchNeighbor exp (scene.flatMap flat)) _ (knnSearch query numNbrs) >>= _) = _ ↔ _
  rw [ran, Outcome.done_bind, Outcome.require_bind_eq_done, and_assoc]
  apply and_congr_right
  intro _
  dsimp only
  rw [mean, number]
  unfold lifted
  by_cases empty : validNeighbors (knnSearch query numNbrs) = []
  · rw [empty, if_neg (by simp), if_pos rfl]
    constructor
    · intro returned
      cases returned
      exact ⟨fun nonempty => absurd rfl nonempty, rfl⟩
    · rintro ⟨_, rfl⟩
      rfl
  · rw [if_pos (List.length_pos_iff.mpr empty), if_neg empty]
    constructor
    · intro returned
      obtain ⟨xy, solved, last⟩ := Outcome.bind_eq_done.mp returned
      have solvable := xyFromDepth_eq_done solved
      rw [xyFromDepth_done solvable] at solved
      cases solved
      cases last
      exact ⟨fun _ => solvable, rfl⟩
    · rintro ⟨solvable, rfl⟩
      rw [xyFromDepth_done (solvable empty), Outcome.done_bind]
      rfl

theorem projectScenePoint_done_iff {P : Homography K} (i : Nat) (point : K × K × K) (held : scene[i]? = some point)
    (pushed : List K) :
    projectScenePoint P (scene.flatMap flat) i = .done pushed ↔
      (3 * i < 2 ^ 31 ∧ weight P point.1 point.2.1 point.2.2 ≠ 0) ∧ pushed = flatPair (projection P point) := by
  obtain ⟨x, y, z⟩ := flatMap_flat_getElem held
  unfold projectScenePoint
  rw [x, y, z, Outcome.require_bind_eq_done, and_assoc]
  apply and_congr_right
  intro _
  change (Outcome.require (weight P point.1 point.2.1 point.2.2 ≠ 0) >>= _) = _ ↔ _
  rw [Outcome.require_bind_eq_done]
  apply and_congr_right
  intro _
  constructor
  · intro returned
    cases returned
    rfl
  · rintro rfl
    rfl

/-- The call returns exactly if all points of the scene are projected and all queries return. -/
theorem liftXys_done_iff {knnSearch : NanoFlannData K → K × K → Nat → List (Nat × K)} (searches : Searches knnSearch)
    {inverse : Homography K → Homography K} {hm : Vector K 16} {queries : List (K × K)} {out : List K} :
    liftXysToXyzs exp knnSearch inverse hm (scene.flatMap flat) (queries.flatMap flatPair) = .done out ↔
      (∀ i point, scene[i]? = some point → 3 * i < 2 ^ 31 ∧ weight (matrix4 hm) point.1 point.2.1 point.2.2 ≠ 0) ∧
      (∀ q query, queries[q]? = some query → 3 * q < 2 ^ 31 ∧
        (validNeighbors (knnSearch (sceneData (matrix4 hm) scene) query numNbrs) ≠ [] →
          Solvable (inverse (matrix4 hm)) query.1 query.2
            (estimatedZ exp scene (knnSearch (sceneData (matrix4 hm) scene) query numNbrs)))) ∧
      out = (queries.map fun query => lifted exp scene (inverse (matrix4 hm)) query
        (knnSearch (sceneData (matrix4 hm) scene) query numNbrs)).flatMap flat := by
  have triples := flatMap_flat_length scene
  have pairs := flatMap_length flatPair_length queries
  have points : (scene.flatMap flat).length / 3 = scene.length := by omega
  have questions : (queries.flatMap flatPair).length / 2 = queries.length := by omega
  unfold liftXysToXyzs
  rw [Outcome.check_of (by omega), Outcome.done_bind, Outcome.check_of (by omega), Outcome.done_bind, points, questions]
  dsimp only
  rw [Outcome.bind_eq_done]
  simp only [Outcome.pushAll_range_done_iff projectScenePoint_done_iff]
  have data : (scene.flatMap fun point => flatPair (projection (matrix4 hm) point)) = (sceneData (matrix4 hm) scene).xy :=
    (List.flatMap_map ..).symm
  have run (projected : ∀ i point, scene[i]? = some point →
      3 * i < 2 ^ 31 ∧ weight (matrix4 hm) point.1 point.2.1 point.2.2 ≠ 0) :
      ∀ query, ∀ entry ∈ knnSearch (sceneData (matrix4 hm) scene) query numNbrs,
        entry.1 < scene.length ∧ 3 * entry.1 < 2 ^ 32 := by
    intro query entry member
    have measured := (searches_scene searches query numNbrs).measured entry member
    have inside := (List.getElem?_eq_some_iff.mp measured).1
    unfold distances at inside
    rw [List.length_map] at inside
    have small := (projected _ _ (List.getElem?_eq_getElem inside)).1
    exact ⟨inside, by omega⟩
  rw [List.flatMap_map]
  constructor
  · rintro ⟨_, ⟨projected, rfl⟩, returned⟩
    rw [data] at returned
    exact ⟨projected, (Outcome.pushAll_range_done_iff (liftQuery_done_iff (run projected))).mp returned⟩
  · rintro ⟨projected, handled⟩
    refine ⟨_, ⟨projected, rfl⟩, ?_⟩
    rw [data]
    exact (Outcome.pushAll_range_done_iff (liftQuery_done_iff (run projected))).mpr handled

end

section
variable {K : Type} [Field K] [LinearOrder K] (P : Homography K) (scene : List (K × K × K)) (query : K × K)

/-- A point of the scene projects within the distance that counts. -/
def AnyNear : Prop := ∃ point ∈ scene, distanceSquared P query point ≤ maxDistSquared

/-- The triple that a query should have: zeros if no point of the scene projects near, or a
point of its ray with a depth between two of those of the nearest that do. -/
def LiftedPoint (point : K × K × K) : Prop :=
  (¬ AnyNear P scene query → point = (0, 0, 0)) ∧
  (AnyNear P scene query → ProjectsTo P point.1 point.2.1 point.2.2 query.1 query.2 ∧
    ∃ found, Nearest (distances P scene query) 10 found ∧
      (∃ entry ∈ found, entry.2 ≤ maxDistSquared ∧ sceneZ scene entry ≤ point.2.2) ∧
      (∃ entry ∈ found, entry.2 ≤ maxDistSquared ∧ point.2.2 ≤ sceneZ scene entry))

variable {P scene query} {found : List (Nat × K)}

theorem valid_iff (nearest : Nearest (distances P scene query) numNbrs found) :
    validNeighbors found ≠ [] ↔ AnyNear P scene query := by
  constructor
  · intro nonempty
    obtain ⟨entry, valid⟩ := List.exists_mem_of_ne_nil _ nonempty
    obtain ⟨member, near⟩ := List.mem_filter.mp valid
    have measured := List.mem_of_getElem? (nearest.measured entry member)
    obtain ⟨point, inside, distance⟩ := List.mem_map.mp measured
    exact ⟨point, inside, distance ▸ of_decide_eq_true near⟩
  · rintro ⟨point, member, near⟩
    obtain ⟨entry, inside, within⟩ := nearest.within (by decide) (List.mem_map.mpr ⟨point, member, rfl⟩) near
    exact List.ne_nil_of_mem (List.mem_filter.mpr ⟨inside, decide_eq_true within⟩)

variable [IsStrictOrderedRing K] {exp : K → K}

theorem lifted_point (positive : ∀ x, 0 < exp x) {M : Homography K} (inverse : M * P = 1)
    (nearest : Nearest (distances P scene query) numNbrs found)
    (solvable : AnyNear P scene query → Solvable M query.1 query.2 (estimatedZ exp scene found)) :
    LiftedPoint P scene query (lifted exp scene M query found) := by
  unfold LiftedPoint lifted
  by_cases empty : validNeighbors found = []
  · have far : ¬ AnyNear P scene query := fun near => (valid_iff nearest).mpr near empty
    rw [if_pos empty]
    exact ⟨fun _ => rfl, fun near => absurd near far⟩
  · have near := (valid_iff nearest).mp empty
    rw [if_neg empty]
    refine ⟨fun far => absurd near far, fun _ => ⟨xyFromDepth_projects inverse (solvable near), found, nearest, ?_, ?_⟩⟩
    · obtain ⟨entry, valid, below⟩ := exists_le_weightedMean (fun _ _ => positive _) empty
      obtain ⟨member, within⟩ := List.mem_filter.mp valid
      exact ⟨entry, member, of_decide_eq_true within, below⟩
    · obtain ⟨entry, valid, above⟩ := exists_weightedMean_le (fun _ _ => positive _) empty
      obtain ⟨member, within⟩ := List.mem_filter.mp valid
      exact ⟨entry, member, of_decide_eq_true within, above⟩

end

/-- Queries are lifted in order if no counter overflows and the denominators of `xy_from_depth`
are large enough. -/
theorem points_lifted {inverse : Homography ℝ → Homography ℝ} (inverts : ∀ P : Homography ℝ, IsUnit P → inverse P * P = 1)
    {knnSearch : NanoFlannData ℝ → ℝ × ℝ → Nat → List (Nat × ℝ)} (searches : Searches knnSearch)
    {hm : Vector ℝ 16} (unit : IsUnit (matrix4 hm)) {scene : List (ℝ × ℝ × ℝ)} {queries : List (ℝ × ℝ)}
    (seen : ∀ point ∈ scene, weight (matrix4 hm) point.1 point.2.1 point.2.2 ≠ 0)
    (fewPoints : scene.length ≤ 715827883) (fewQueries : queries.length ≤ 715827883)
    (solvable : ∀ query ∈ queries, AnyNear (matrix4 hm) scene query → Solvable (inverse (matrix4 hm)) query.1 query.2
      (estimatedZ Real.exp scene (knnSearch (sceneData (matrix4 hm) scene) query numNbrs))) :
    ∃ points, liftXysToXyzs Real.exp knnSearch inverse hm (scene.flatMap flat) (queries.flatMap flatPair) =
        .done (points.flatMap flat) ∧
      List.Forall₂ (LiftedPoint (matrix4 hm) scene) queries points := by
  refine ⟨_, (liftXys_done_iff searches).mpr ⟨?_, ?_, rfl⟩, ?_⟩
  · intro i point held
    have inside := (List.getElem?_eq_some_iff.mp held).1
    exact ⟨by omega, seen point (List.mem_of_getElem? held)⟩
  · intro q query held
    have inside := (List.getElem?_eq_some_iff.mp held).1
    refine ⟨by omega, ?_⟩
    intro valid
    apply solvable query (List.mem_of_getElem? held)
    exact (valid_iff (searches_scene searches query numNbrs)).mp valid
  · apply List.forall₂_map_right_iff.mpr
    apply List.forall₂_same.mpr
    intro query member
    exact lifted_point Real.exp_pos (inverts _ unit) (searches_scene searches query numNbrs) (solvable query member)

section
variable {K : Type} [Field K]

/-- The distances of all points of a tree. -/
def allDistances (data : NanoFlannData K) (query : K × K) : List K :=
  (List.range data.kdtreeGetPointCount).map fun idx =>
    match evalMetric data query idx with
    | .done distance => distance
    | _ => 0

def scaled (c : K) : Vector K 16 := #v[c, 0, 0, 0, 0, c, 0, 0, 0, 0, c, 0, 0, 0, 0, c]

theorem matrix4_scaled (c : K) : matrix4 (scaled c) = c • 1 := by
  ext row column
  fin_cases row <;> fin_cases column <;> simp [matrix4, scaled]

theorem matrix4_scaled_inv {c : K} (nonzero : c ≠ 0) : (matrix4 (scaled c))⁻¹ = c⁻¹ • 1 := by
  apply inv_eq_left_inv
  rw [matrix4_scaled, smul_mul_smul_comm, one_mul, inv_mul_cancel₀ nonzero, one_smul]

theorem matrix4_scaled_unit {c : K} (nonzero : c ≠ 0) : IsUnit (matrix4 (scaled c)) := by
  apply (isUnit_iff_isUnit_det _).mpr
  rw [matrix4_scaled, det_smul, det_one, mul_one]
  exact (pow_ne_zero _ nonzero).isUnit

variable [LinearOrder K]

/-- A search that measures all distances keeps what a tree promises. -/
theorem exhaustive_searches : Searches fun (data : NanoFlannData K) query count =>
    exhaustiveSearch (allDistances data query) count := by
  intro data query count distances length measured
  have same : allDistances data query = distances := by
    apply List.ext_getElem
    · rw [allDistances, List.length_map, List.length_range, length]
    · intro i _ inside
      simp only [allDistances, List.getElem_map, List.getElem_range, measured i _ (List.getElem?_eq_getElem inside)]
  dsimp only
  rw [same]
  exact exhaustiveSearch_nearest distances count

end

/-- A scene of one point, which projects onto the query under a homography that scales. -/
theorem near_origin {c : ℝ} (nonzero : c ≠ 0) : AnyNear (matrix4 (scaled c)) [(0, 0, 1)] (0, 0) := by
  obtain ⟨_, x, y⟩ := scaling_image nonzero 0 0 1
  refine ⟨_, List.mem_singleton_self _, ?_⟩
  unfold distanceSquared projection
  rw [matrix4_scaled, x, y]
  norm_num [maxDistSquared, maxDist]

theorem points_lifted_one :
    ∃ points, liftXysToXyzs Real.exp (fun data query count => exhaustiveSearch (allDistances data query) count)
        (fun P => P⁻¹) (scaled 1) (List.flatMap flat [(0, 0, 1)]) (List.flatMap flatPair [(0, 0)]) =
        .done (points.flatMap flat) ∧
      List.Forall₂ (LiftedPoint (matrix4 (scaled 1)) [(0, 0, 1)]) [(0, 0)] points := by
  have nonzero : (1 : ℝ) ≠ 0 := one_ne_zero
  have inverts : ∀ P : Homography ℝ, IsUnit P → P⁻¹ * P = 1 := fun P unit =>
    nonsing_inv_mul P ((isUnit_iff_isUnit_det P).mp unit)
  apply points_lifted inverts exhaustive_searches (matrix4_scaled_unit nonzero) _ (by decide) (by decide)
  · intro query _ _
    rw [matrix4_scaled_inv nonzero]
    constructor
    · rw [(scaling_denominators _ 0 0 _).1]
      norm_num [epsilon]
    · rw [(scaling_denominators _ _ _ _).2]
      norm_num [epsilon]
  · intro point member
    obtain rfl := List.mem_singleton.mp member
    rw [matrix4_scaled, (scaling_image nonzero 0 0 1).1]
    exact nonzero

/-- Denominators that are small but not zero fail a CHECK, and the counter of the points of a
scene may overflow. -/
theorem lifting_fails :
    (∃ c : ℝ, IsUnit (matrix4 (scaled c)) ∧ weight (matrix4 (scaled c)) 0 0 1 ≠ 0 ∧
      (∀ z, denom (matrix4 (scaled c))⁻¹ z ≠ 0 ∧ tau (matrix4 (scaled c))⁻¹ 0 0 z ≠ 0) ∧
      ∀ out, liftXysToXyzs Real.exp (fun data query count => exhaustiveSearch (allDistances data query) count)
        (fun P => P⁻¹) (scaled c) (List.flatMap flat [(0, 0, 1)]) (List.flatMap flatPair [(0, 0)]) ≠ .done out) ∧
    ∀ out, liftXysToXyzs Real.exp (fun data query count => exhaustiveSearch (allDistances data query) count)
      (fun P => P⁻¹) (scaled 1) (List.flatMap flat (List.replicate 715827884 (0, 0, 1))) (List.flatMap flatPair []) ≠
        .done out := by
  constructor
  · have nonzero : (2 ^ 40 : ℝ) ≠ 0 := by norm_num
    refine ⟨2 ^ 40, matrix4_scaled_unit nonzero, ?_, ?_, ?_⟩
    · rw [matrix4_scaled, (scaling_image nonzero 0 0 1).1]
      exact nonzero
    · intro z
      rw [matrix4_scaled_inv nonzero, (scaling_denominators _ 0 0 z).1, (scaling_denominators _ 0 0 z).2]
      exact ⟨inv_ne_zero nonzero, inv_ne_zero nonzero⟩
    · intro out returned
      obtain ⟨_, handled, _⟩ := (liftXys_done_iff exhaustive_searches).mp returned
      have valid := (valid_iff (searches_scene exhaustive_searches (0, 0) numNbrs)).mpr (near_origin nonzero)
      have large := ((handled 0 (0, 0) rfl).2 valid).denom
      rw [matrix4_scaled_inv nonzero, (scaling_denominators _ 0 0 _).1] at large
      norm_num [epsilon] at large
  · intro out returned
    obtain ⟨projected, _, _⟩ := (liftXys_done_iff exhaustive_searches).mp returned
    have last : (List.replicate 715827884 ((0, 0, 1) : ℝ × ℝ × ℝ))[715827883]? = some (0, 0, 1) := by
      rw [List.getElem?_replicate, if_pos (by norm_num)]
    have counted := (projected 715827883 _ last).1
    norm_num at counted

end AxbyCore.Proofs.PointLifting
