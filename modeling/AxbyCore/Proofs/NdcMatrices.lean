import AxbyCore.Math.Camera

/-! Normalized device coordinates. The conversions of a matrix to them and back are inverse
to each other, whatever the matrix is, and map the pixels of its projections. -/

namespace AxbyCore.Proofs.NdcMatrices
open Math Math.CameraSpan Matrix

variable {K : Type}

/-- A span of the size of a matrix. -/
def IsMatrix (span : CameraSpan K) : Prop := span.size = 9 ∨ span.size = 16

theorem matrix_cases {span : CameraSpan K} (matrix : IsMatrix span) : (∃ M, span = .matrix3 M) ∨ ∃ M, span = .matrix4 M := by
  rcases span with _ | M | M | ⟨data, odd⟩
  · simp [IsMatrix, size] at matrix
  · exact .inl ⟨M, rfl⟩
  · exact .inr ⟨M, rfl⟩
  · rcases matrix with nine | sixteen
    · exact absurd nine odd.2.1
    · exact absurd sixteen odd.2.2

variable [Field K] {width height : Int}

def ndc3 (M : Matrix (Fin 3) (Fin 3) K) (width height : Int) : Matrix (Fin 3) (Fin 3) K :=
  of ![(2 / width : K) • M 0 - M 2, (2 / height : K) • M 1 - M 2, M 2]

def ndc4 (M : Homography K) (width height : Int) : Homography K :=
  of ![(2 / width : K) • M 0 - M 3, (2 / height : K) • M 1 - M 3, M 2, M 3]

def camera3 (M : Matrix (Fin 3) (Fin 3) K) (width height : Int) : Matrix (Fin 3) (Fin 3) K :=
  of ![(width / 2 : K) • M 0 + (width / 2 : K) • M 2, (height / 2 : K) • M 1 + (height / 2 : K) • M 2, M 2]

def camera4 (M : Homography K) (width height : Int) : Homography K :=
  of ![(width / 2 : K) • M 0 + (width / 2 : K) • M 3, (height / 2 : K) • M 1 + (height / 2 : K) • M 3, M 2, M 3]

/-- What the conversions write to a buffer of the same size. -/
theorem toNdc_three (wide : 0 < width) (high : 0 < height) (M out : Matrix (Fin 3) (Fin 3) K) :
    cameraMatrixToNdcMatrix (.matrix3 M) width height (.matrix3 out) = .done (.matrix3 (ndc3 M width height)) := by
  simp [cameraMatrixToNdcMatrix, Outcome.check_of, wide, high, size, ndc3, Outcome.pure_eq]

theorem toNdc_four (wide : 0 < width) (high : 0 < height) (M out : Homography K) :
    cameraMatrixToNdcMatrix (.matrix4 M) width height (.matrix4 out) = .done (.matrix4 (ndc4 M width height)) := by
  simp [cameraMatrixToNdcMatrix, Outcome.check_of, wide, high, size, ndc4, Outcome.pure_eq]

/-- What they do for one of the other size. -/
theorem toNdc_three_four (wide : 0 < width) (high : 0 < height) (M : Matrix (Fin 3) (Fin 3) K) (out : Homography K) :
    cameraMatrixToNdcMatrix (.matrix3 M) width height (.matrix4 out) =
      cameraMatrix3x3To4x4 (.matrix3 (ndc3 M width height)) (.matrix4 out) := by
  simp [cameraMatrixToNdcMatrix, Outcome.check_of, wide, high, size, ndc3]

theorem toNdc_four_three (wide : 0 < width) (high : 0 < height) (M : Homography K) (out : Matrix (Fin 3) (Fin 3) K) :
    cameraMatrixToNdcMatrix (.matrix4 M) width height (.matrix3 out) =
      cameraMatrix4x4To3x3 (.matrix4 (ndc4 M width height)) (.matrix3 out) := by
  simp [cameraMatrixToNdcMatrix, Outcome.check_of, wide, high, size, ndc4]

theorem toCamera_three (wide : 0 < width) (high : 0 < height) (M out : Matrix (Fin 3) (Fin 3) K) :
    ndcMatrixToCameraMatrix (.matrix3 M) width height (.matrix3 out) = .done (.matrix3 (camera3 M width height)) := by
  simp [ndcMatrixToCameraMatrix, Outcome.check_of, wide, high, size, camera3, Outcome.pure_eq]

theorem toCamera_four (wide : 0 < width) (high : 0 < height) (M out : Homography K) :
    ndcMatrixToCameraMatrix (.matrix4 M) width height (.matrix4 out) = .done (.matrix4 (camera4 M width height)) := by
  simp [ndcMatrixToCameraMatrix, Outcome.check_of, wide, high, size, camera4, Outcome.pure_eq]

/-- One coordinate, there and back. -/
theorem back_row {n : Nat} {extent : K} (nonzero : extent ≠ 0) (two : (2 : K) ≠ 0) (row weight : Fin n → K) :
    (extent / 2) • ((2 / extent) • row - weight) + (extent / 2) • weight = row := by
  have unit : extent / 2 * (2 / extent) = 1 := by field_simp
  rw [smul_sub, smul_smul, unit, one_smul, sub_add_cancel]

theorem forth_row {n : Nat} {extent : K} (nonzero : extent ≠ 0) (two : (2 : K) ≠ 0) (row weight : Fin n → K) :
    (2 / extent) • ((extent / 2) • row + (extent / 2) • weight) - weight = row := by
  have unit : 2 / extent * (extent / 2) = 1 := by field_simp
  rw [smul_add, smul_smul, smul_smul, unit, one_smul, one_smul, add_sub_cancel_right]

section
variable [CharZero K]

theorem cast_ne_zero {extent : Int} (positive : 0 < extent) : (extent : K) ≠ 0 := Int.cast_ne_zero.mpr positive.ne'

theorem camera3_ndc3 (wide : 0 < width) (high : 0 < height) (M : Matrix (Fin 3) (Fin 3) K) :
    camera3 (ndc3 M width height) width height = M := by
  funext i
  fin_cases i
  · exact back_row (cast_ne_zero wide) two_ne_zero (M 0) (M 2)
  · exact back_row (cast_ne_zero high) two_ne_zero (M 1) (M 2)
  · rfl

theorem camera4_ndc4 (wide : 0 < width) (high : 0 < height) (M : Homography K) :
    camera4 (ndc4 M width height) width height = M := by
  funext i
  fin_cases i
  · exact back_row (cast_ne_zero wide) two_ne_zero (M 0) (M 3)
  · exact back_row (cast_ne_zero high) two_ne_zero (M 1) (M 3)
  · rfl
  · rfl

theorem ndc3_camera3 (wide : 0 < width) (high : 0 < height) (M : Matrix (Fin 3) (Fin 3) K) :
    ndc3 (camera3 M width height) width height = M := by
  funext i
  fin_cases i
  · exact forth_row (cast_ne_zero wide) two_ne_zero (M 0) (M 2)
  · exact forth_row (cast_ne_zero high) two_ne_zero (M 1) (M 2)
  · rfl

theorem ndc4_camera4 (wide : 0 < width) (high : 0 < height) (M : Homography K) :
    ndc4 (camera4 M width height) width height = M := by
  funext i
  fin_cases i
  · exact forth_row (cast_ne_zero wide) two_ne_zero (M 0) (M 3)
  · exact forth_row (cast_ne_zero high) two_ne_zero (M 1) (M 3)
  · rfl
  · rfl

end

/-- The coordinates that a homogeneous point is projected to, the weight being the last. -/
def projected {n : Nat} (M : Matrix (Fin (n + 1)) (Fin (n + 1)) K) (point : Fin (n + 1) → K) : Fin n → K :=
  fun i => (M *ᵥ point) i.castSucc / (M *ᵥ point) (Fin.last n)

/-- What the normalized matrix makes of a point. -/
structure MapsPixel {n : Nat} (M N : Matrix (Fin (n + 3)) (Fin (n + 3)) K) (width height : Int) (point : Fin (n + 3) → K) :
    Prop where
  weight : (N *ᵥ point) (Fin.last _) = (M *ᵥ point) (Fin.last _)
  first : projected N point 0 = 2 * projected M point 0 / width - 1
  second : projected N point 1 = 2 * projected M point 1 / height - 1
  rest : ∀ i, i ≠ 0 → i ≠ 1 → projected N point i = projected M point i

theorem pixel_row {n : Nat} {scale extent : K} (row weight point : Fin n → K) (seen : weight ⬝ᵥ point ≠ 0)
    (scaled : scale = 2 / extent) :
    (scale • row - weight) ⬝ᵥ point / weight ⬝ᵥ point = 2 * (row ⬝ᵥ point / weight ⬝ᵥ point) / extent - 1 := by
  rw [sub_dotProduct, smul_dotProduct, smul_eq_mul, sub_div, div_self seen, scaled]
  ring

theorem ndc3_mapsPixel (M : Matrix (Fin 3) (Fin 3) K) (point : Fin 3 → K) (seen : (M *ᵥ point) 2 ≠ 0) :
    MapsPixel M (ndc3 M width height) width height point := by
  constructor
  · rfl
  · exact pixel_row (M 0) (M 2) point seen rfl
  · exact pixel_row (M 1) (M 2) point seen rfl
  · intro i first second
    fin_cases i
    · exact absurd rfl first
    · exact absurd rfl second

theorem ndc4_mapsPixel (M : Homography K) (point : Fin 4 → K) (seen : (M *ᵥ point) 3 ≠ 0) :
    MapsPixel M (ndc4 M width height) width height point := by
  constructor
  · rfl
  · exact pixel_row (M 0) (M 3) point seen rfl
  · exact pixel_row (M 1) (M 3) point seen rfl
  · intro i first second
    fin_cases i
    · exact absurd rfl first
    · exact absurd rfl second
    · rfl

/-- For every matrix of either size, with buffers of the same size. -/
theorem ndc_conversion [CharZero K] (wide : 0 < width) (high : 0 < height) :
    (∀ M out back : Matrix (Fin 3) (Fin 3) K,
      (cameraMatrixToNdcMatrix (.matrix3 M) width height (.matrix3 out) >>=
        (ndcMatrixToCameraMatrix · width height (.matrix3 back))) = .done (.matrix3 M) ∧
      (ndcMatrixToCameraMatrix (.matrix3 M) width height (.matrix3 out) >>=
        (cameraMatrixToNdcMatrix · width height (.matrix3 back))) = .done (.matrix3 M) ∧
      ∃ N, cameraMatrixToNdcMatrix (.matrix3 M) width height (.matrix3 out) = .done (.matrix3 N) ∧
        ∀ point, (M *ᵥ point) (Fin.last _) ≠ 0 → MapsPixel M N width height point) ∧
    (∀ M out back : Homography K,
      (cameraMatrixToNdcMatrix (.matrix4 M) width height (.matrix4 out) >>=
        (ndcMatrixToCameraMatrix · width height (.matrix4 back))) = .done (.matrix4 M) ∧
      (ndcMatrixToCameraMatrix (.matrix4 M) width height (.matrix4 out) >>=
        (cameraMatrixToNdcMatrix · width height (.matrix4 back))) = .done (.matrix4 M) ∧
      ∃ N, cameraMatrixToNdcMatrix (.matrix4 M) width height (.matrix4 out) = .done (.matrix4 N) ∧
        ∀ point, (M *ᵥ point) (Fin.last _) ≠ 0 → MapsPixel M N width height point) := by
  constructor
  · intro M out back
    refine ⟨?_, ?_, _, toNdc_three wide high M out, fun point seen => ndc3_mapsPixel M point seen⟩
    · rw [toNdc_three wide high, Outcome.done_bind, toCamera_three wide high, camera3_ndc3 wide high]
    · rw [toCamera_three wide high, Outcome.done_bind, toNdc_three wide high, ndc3_camera3 wide high]
  · intro M out back
    refine ⟨?_, ?_, _, toNdc_four wide high M out, fun point seen => ndc4_mapsPixel M point seen⟩
    · rw [toNdc_four wide high, Outcome.done_bind, toCamera_four wide high, camera4_ndc4 wide high]
    · rw [toCamera_four wide high, Outcome.done_bind, toNdc_four wide high, ndc4_camera4 wide high]

theorem ndc_conversion_small : (ndcMatrixToCameraMatrix (.matrix3 !![1, 2, 3; 4, 5, 6; 7, 8, (9 : Rat)]) 640 480 (.matrix3 0) >>=
    (cameraMatrixToNdcMatrix · 640 480 (.matrix3 0))) = .done (.matrix3 !![1, 2, 3; 4, 5, 6; 7, 8, 9]) :=
  ((ndc_conversion (by decide) (by decide)).1 _ 0 0).2.1

end AxbyCore.Proofs.NdcMatrices
