import AxbyCore.Proofs.NdcMatrices
import Mathlib.Tactic.NormNum

/-! The forms of a pinhole camera. They differ in the third row, which no projection shows,
but which a 3x3 form made from a 4x4 one has in the place of the row of the weight. -/

namespace AxbyCore.Proofs.CameraForms
open Math Math.CameraSpan Matrix NdcMatrices

variable {K : Type} [Field K]

/-- A form of the camera with these intrinsics, with the entry that scales depth. -/
inductive Form (fx fy ppx ppy depth : K) : CameraSpan K → Prop where
  | three : Form fx fy ppx ppy depth (.matrix3 !![fx, 0, ppx; 0, fy, ppy; 0, 0, depth])
  | four (shift : K) :
      Form fx fy ppx ppy depth (.matrix4 !![fx, 0, ppx, 0; 0, fy, ppy, 0; 0, 0, depth, shift; 0, 0, 1, 0])

variable {fx fy ppx ppy depth : K}

theorem shrink (shift : K) :
    (!![fx, 0, ppx, 0; 0, fy, ppy, 0; 0, 0, depth, shift; 0, 0, 1, 0] : Homography K).submatrix Fin.castSucc Fin.castSucc =
      !![fx, 0, ppx; 0, fy, ppy; 0, 0, depth] := by
  ext i j
  fin_cases i <;> fin_cases j <;> rfl

/-- The first conversion chooses the entry that scales depth. -/
theorem form_first {out : CameraSpan K} (matrix : IsMatrix out) (fx fy ppx ppy : K) :
    ∃ after, convertHmImageCamera (.intrinsics fx fy ppx ppy) out = .done after ∧
      Form fx fy ppx ppy (if out.size = 9 then 1 else alpha) after ∧ after.size = out.size := by
  rcases matrix_cases matrix with ⟨M, rfl⟩ | ⟨M, rfl⟩
  · exact ⟨_, rfl, .three, rfl⟩
  · exact ⟨_, rfl, .four _, rfl⟩

/-- A later one keeps it. -/
theorem form_convert {span out : CameraSpan K} (form : Form fx fy ppx ppy depth span) (matrix : IsMatrix out) :
    ∃ after, convertHmImageCamera span out = .done after ∧ Form fx fy ppx ppy depth after ∧ after.size = out.size := by
  rcases matrix_cases matrix with ⟨M, rfl⟩ | ⟨M, rfl⟩
  · cases form with
    | three => exact ⟨_, rfl, .three, rfl⟩
    | four shift => exact ⟨_, rfl, shrink shift ▸ .three, rfl⟩
  · cases form with
    | three => exact ⟨_, rfl, .four _, rfl⟩
    | four shift => exact ⟨_, rfl, .four _, rfl⟩

def convertChain (span : CameraSpan K) (chain : List (CameraSpan K)) : Outcome (CameraSpan K) :=
  chain.foldlM convertHmImageCamera span

theorem convertChain_cons {span out next after : CameraSpan K} {chain : List (CameraSpan K)}
    (converted : convertHmImageCamera span out = .done next) (size : next.size = out.size)
    (ran : convertChain next chain = .done after) (last : after.size = (chain.getLastD next).size) :
    convertChain span (out :: chain) = .done after ∧ after.size = (chain.getLastD out).size := by
  constructor
  · rw [convertChain, List.foldlM_cons, converted]
    exact ran
  · cases chain with
    | nil => exact last.trans size
    | cons other chain => exact last

theorem form_rest {span : CameraSpan K} (form : Form fx fy ppx ppy depth span) {chain : List (CameraSpan K)}
    (matrices : ∀ out ∈ chain, IsMatrix out) :
    ∃ after, convertChain span chain = .done after ∧ Form fx fy ppx ppy depth after ∧
      after.size = (chain.getLastD span).size := by
  induction chain generalizing span with
  | nil => exact ⟨span, rfl, form, rfl⟩
  | cons out chain ih =>
    obtain ⟨next, converted, kept, size⟩ := form_convert form (matrices out (List.mem_cons_self ..))
    obtain ⟨after, ran, final, last⟩ := ih kept fun other member => matrices other (List.mem_cons_of_mem _ member)
    obtain ⟨reached, width⟩ := convertChain_cons converted size ran last
    refine ⟨after, reached, final, ?_⟩
    rw [width, List.getLastD_cons]

/-- No transform of the body. -/
def noTransform : CameraSpan K := .other [] ⟨by simp, by simp, by simp⟩

theorem project_four {z : K} (seen : z ≠ 0) (shift x y : K) :
    cameraProjectImpl (!![fx, 0, ppx, 0; 0, fy, ppy, 0; 0, 0, depth, shift; 0, 0, 1, 0] : Homography K) 1 [x, y, z] 2 =
      .done [fx * x / z + ppx, fy * y / z + ppy] := by
  have u : fx * x / z + ppx = (fx * x + ppx * z) / z := by field_simp
  have v : fy * y / z + ppy = (fy * y + ppy * z) / z := by field_simp
  rw [u, v]
  simp [cameraProjectImpl, Outcome.check, Outcome.read, Homography.mulVec_point, Outcome.pure_eq]

theorem project_form {span : CameraSpan K} (form : Form fx fy ppx ppy depth span) {z : K} (seen : z ≠ 0) (x y : K) :
    cameraProject span noTransform [x, y, z] 2 = .done [fx * x / z + ppx, fy * y / z + ppy] := by
  cases form with
  | three => exact project_four seen _ x y
  | four shift => exact project_four seen shift x y

theorem project_intrinsics {z : K} (seen : z ≠ 0) (x y : K) :
    cameraProject (.intrinsics fx fy ppx ppy) noTransform [x, y, z] 2 = .done [fx * x / z + ppx, fy * y / z + ppy] :=
  project_four seen _ x y

/-- What the conversion to normalized coordinates subtracts is the last row: of a 4x4 form that of the weight,
and of a 3x3 form the one that scales depth. -/
def subtracted (depth : K) (span : CameraSpan K) : K := if span.size = 16 then 1 else depth

theorem ndc3_form (fx fy ppx ppy depth : K) (width height : Int) : ndc3 !![fx, 0, ppx; 0, fy, ppy; 0, 0, depth] width height =
    !![2 / width * fx, 0, 2 / width * ppx - depth; 0, 2 / height * fy, 2 / height * ppy - depth; 0, 0, depth] := by
  ext i j
  fin_cases i <;> fin_cases j <;> simp [ndc3]

theorem ndc4_form (fx fy ppx ppy depth shift : K) (width height : Int) :
    ndc4 !![fx, 0, ppx, 0; 0, fy, ppy, 0; 0, 0, depth, shift; 0, 0, 1, 0] width height =
      !![2 / width * fx, 0, 2 / width * ppx - 1, 0; 0, 2 / height * fy, 2 / height * ppy - 1, 0;
         0, 0, depth, shift; 0, 0, 1, 0] := by
  ext i j
  fin_cases i <;> fin_cases j <;> simp [ndc4]

/-- The result has a form again, whose intrinsics are the normalized ones if what is subtracted is the weight. -/
theorem ndc_form {span out : CameraSpan K} (form : Form fx fy ppx ppy depth span) (matrix : IsMatrix out)
    {width height : Int} (wide : 0 < width) (high : 0 < height) :
    ∃ ndc, cameraMatrixToNdcMatrix span width height out = .done ndc ∧
      Form (2 / width * fx) (2 / height * fy) (2 / width * ppx - subtracted depth span)
        (2 / height * ppy - subtracted depth span) depth ndc := by
  cases form with
  | three =>
    rcases matrix_cases matrix with ⟨M, rfl⟩ | ⟨M, rfl⟩
    · refine ⟨_, toNdc_three wide high _ M, ?_⟩
      rw [ndc3_form]
      exact .three
    · refine ⟨_, toNdc_three_four wide high _ M, ?_⟩
      rw [ndc3_form]
      exact .four _
  | four shift =>
    rcases matrix_cases matrix with ⟨M, rfl⟩ | ⟨M, rfl⟩
    · refine ⟨_, toNdc_four_three wide high _ M, ?_⟩
      rw [ndc4_form, shrink]
      exact .three
    · refine ⟨_, toNdc_four wide high _ M, ?_⟩
      rw [ndc4_form]
      exact .four shift

/-- The pixel of the point at the given coordinates. -/
def pixel (fx fy ppx ppy x y z : K) : List K := [fx * x / z + ppx, fy * y / z + ppy]

/-- The pixel in normalized device coordinates. -/
def ndcPixel (fx fy ppx ppy : K) (width height : Int) (x y z : K) : List K :=
  [2 * (fx * x / z + ppx) / width - 1, 2 * (fy * y / z + ppy) / height - 1]

/-- Projections through a chain of conversions show the pixel, and in normalized coordinates the normalized one. -/
structure Commutes (fx fy ppx ppy : K) (width height : Int) (chain : List (CameraSpan K)) : Prop where
  camera : ∀ x y z, z ≠ 0 → (do
    let hmImageCamera ← convertChain (.intrinsics fx fy ppx ppy) chain
    cameraProject hmImageCamera noTransform [x, y, z] 2) = .done (pixel fx fy ppx ppy x y z)
  ndc : chain ≠ [] → ∀ out, IsMatrix out → ∀ x y z, z ≠ 0 → (do
    let hmImageCamera ← convertChain (.intrinsics fx fy ppx ppy) chain
    let ndcImageCamera ← cameraMatrixToNdcMatrix hmImageCamera width height out
    cameraProject ndcImageCamera noTransform [x, y, z] 2) = .done (ndcPixel fx fy ppx ppy width height x y z)

/-- No 3x3 form is made from a 4x4 one at the end: the chain starts with a 3x3 form, or ends in a 4x4 one. -/
def KeepsWeight : List (CameraSpan K) → Prop
  | [] => True
  | first :: rest => first.size = 9 ∨ (rest.getLastD first).size = 16

theorem alpha_ne_one [CharZero K] : (alpha : K) ≠ 1 := by
  have ratio : (near / far : K) = 1 / 100000 := by norm_num [near, far]
  rw [alpha, ratio]
  norm_num

theorem form_chain {first : CameraSpan K} {rest : List (CameraSpan K)} (matrices : ∀ out ∈ first :: rest, IsMatrix out)
    (fx fy ppx ppy : K) : ∃ span, convertChain (.intrinsics fx fy ppx ppy) (first :: rest) = .done span ∧
      Form fx fy ppx ppy (if first.size = 9 then 1 else alpha) span ∧ span.size = (rest.getLastD first).size := by
  obtain ⟨start, converted, form, size⟩ := form_first (matrices first (List.mem_cons_self ..)) fx fy ppx ppy
  obtain ⟨span, ran, final, last⟩ := form_rest form fun out member => matrices out (List.mem_cons_of_mem _ member)
  obtain ⟨reached, width⟩ := convertChain_cons converted size ran last
  exact ⟨span, reached, final, width⟩

theorem ndcPixel_eq (fx fy ppx ppy x y z : K) (width height : Int) :
    ndcPixel fx fy ppx ppy width height x y z =
      [2 / width * fx * x / z + (2 / width * ppx - 1), 2 / height * fy * y / z + (2 / height * ppy - 1)] := by
  have coordinate (scale focal offset along extent : K) :
      2 * (focal * along / z + offset) / extent - 1 = 2 / extent * focal * along / z + (2 / extent * offset - 1) := by ring
  rw [ndcPixel, coordinate fx fx, coordinate fy fy]

/-- Whether what the last conversion subtracts is the weight. -/
theorem subtracted_eq_one [CharZero K] {first : CameraSpan K} {rest : List (CameraSpan K)} {span : CameraSpan K}
    (size : span.size = (rest.getLastD first).size) :
    subtracted (if first.size = 9 then 1 else (alpha : K)) span = 1 ↔ KeepsWeight (first :: rest) := by
  rw [subtracted, KeepsWeight, size]
  split
  next four => exact iff_of_true rfl (.inr four)
  next three =>
    split
    next nine => exact iff_of_true rfl (.inl nine)
    next sixteen => exact iff_of_false alpha_ne_one fun kept => kept.elim sixteen three

/-- The origin of the image shows what has been subtracted. -/
theorem keepsWeight [CharZero K] {width height : Int} (wide : 0 < width) (high : 0 < height) {chain : List (CameraSpan K)}
    (matrices : ∀ out ∈ chain, IsMatrix out) {fx fy ppx ppy : K} (commutes : Commutes fx fy ppx ppy width height chain) :
    KeepsWeight chain := by
  cases chain with
  | nil => trivial
  | cons first rest =>
    obtain ⟨span, ran, form, size⟩ := form_chain matrices fx fy ppx ppy
    have buffer : IsMatrix (.matrix3 0 : CameraSpan K) := .inl rfl
    have shown := commutes.ndc (List.cons_ne_nil first rest) _ buffer 0 0 1 one_ne_zero
    obtain ⟨ndc, converted, formed⟩ := ndc_form form buffer wide high
    simp only [ran, converted, Outcome.done_bind, project_form formed one_ne_zero, ndcPixel_eq] at shown
    apply (subtracted_eq_one size).mp
    simpa using (List.cons.inj (Outcome.done.inj shown)).1

theorem camera_forms_commute [CharZero K] {width height : Int} (wide : 0 < width) (high : 0 < height)
    {chain : List (CameraSpan K)} (matrices : ∀ out ∈ chain, IsMatrix out) (fx fy ppx ppy : K) :
    Commutes fx fy ppx ppy width height chain ↔ KeepsWeight chain := by
  refine ⟨keepsWeight wide high matrices, fun weight => ?_⟩
  cases chain with
  | nil => exact ⟨fun x y z seen => project_intrinsics seen x y, fun nonempty => absurd rfl nonempty⟩
  | cons first rest =>
    obtain ⟨span, ran, form, size⟩ := form_chain matrices fx fy ppx ppy
    have kept := (subtracted_eq_one size).mpr weight
    constructor
    · intro x y z seen
      rw [ran, Outcome.done_bind]
      exact project_form form seen x y
    · intro _ out matrix x y z seen
      obtain ⟨ndc, converted, formed⟩ := ndc_form form matrix wide high
      rw [ran, Outcome.done_bind, converted, Outcome.done_bind, project_form formed seen, ndcPixel_eq, kept]

theorem camera_forms_commute_small : Commutes (500 : Rat) 500 320 240 640 480 [.matrix3 0, .matrix4 0, .matrix3 0] := by
  apply (camera_forms_commute (by decide) (by decide) _ 500 500 320 240).mpr
  · exact .inl rfl
  · intro out member
    fin_cases member
    · exact .inl rfl
    · exact .inr rfl
    · exact .inl rfl

/-- A 3x3 form made from a 4x4 one has the scale of depth in the row of the weight. -/
theorem not_commutes : ¬ Commutes (500 : Rat) 500 320 240 640 480 [.matrix4 0, .matrix3 0] := by
  intro commutes
  have matrices : ∀ out ∈ [CameraSpan.matrix4 0, .matrix3 (0 : Matrix (Fin 3) (Fin 3) Rat)], IsMatrix out := by
    intro out member
    fin_cases member
    · exact .inr rfl
    · exact .inl rfl
  have kept := keepsWeight (by decide) (by decide) matrices commutes
  exact kept.elim (by decide) (by decide)

end AxbyCore.Proofs.CameraForms
