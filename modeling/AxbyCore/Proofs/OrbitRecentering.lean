import AxbyCore.Library.RotationAngle
import AxbyCore.Library.Transitions
import AxbyCore.Viewer.Orbit

/-! Moving the orbit point leaves the camera where it is. The movement is compensated with the
transpose of the orbit's rotation and seen through its inverse, and every mouse movement keeps
these the same. -/

namespace AxbyCore.Proofs.OrbitRecentering
open Viewer Math Math.Spatial Matrix RigidMotion Transitions

variable {K : Type} [Field K]

/-- Rotation matrices for unit axes, and the inverse of what has one. -/
structure Lawful (eigen : Eigen K) : Prop where
  rotation : ∀ angle axis, axis ⬝ᵥ axis = 1 → eigen.angleAxis angle axis * (eigen.angleAxis angle axis)ᵀ = 1
  inverse : ∀ M N, M * N = 1 → eigen.inverse M = N

/-- The pose of the orbit is orthonormal, with nothing in the last row. -/
structure Steady (orbit : OrbitState K) : Prop where
  orthonormal : orbit.txWorldOrbit.toBlocks₁₁ * orbit.txWorldOrbit.toBlocks₁₁ᵀ = 1
  pose : orbit.txWorldOrbit = affine orbit.txWorldOrbit.toBlocks₁₁ (translation orbit.txWorldOrbit)

theorem addTranslation_affine (R : Matrix3 K) (t movement : Vector3 K) :
    addTranslation (affine R t) movement = affine R (t + movement) := by
  rw [addTranslation, affine, affine, toBlocks_fromBlocks₁₁, toBlocks_fromBlocks₁₂, toBlocks_fromBlocks₂₁, toBlocks_fromBlocks₂₂,
    replicateCol_add]

theorem mulRotation_affine (R rotation : Matrix3 K) (t : Vector3 K) :
    mulRotation (affine R t) rotation = affine (R * rotation) t := by
  rw [mulRotation, affine, affine, toBlocks_fromBlocks₁₁, toBlocks_fromBlocks₁₂, toBlocks_fromBlocks₂₁, toBlocks_fromBlocks₂₂]

theorem steady_affine {R : Matrix3 K} (orthonormal : R * Rᵀ = 1) (t camOffset : Vector3 K) :
    Steady { txWorldOrbit := affine R t, camOffset := camOffset } := by
  constructor
  · simpa using orthonormal
  · simp

theorem Steady.exists_affine {orbit : OrbitState K} (steady : Steady orbit) :
    ∃ R t camOffset, R * Rᵀ = 1 ∧ orbit = { txWorldOrbit := affine R t, camOffset := camOffset } := by
  refine ⟨_, translation orbit.txWorldOrbit, orbit.camOffset, steady.orthonormal, ?_⟩
  rw [← steady.pose]

theorem steady_initial : Steady (initialOrbit : OrbitState K) := by
  rw [initialOrbit, ← affine_one]
  exact steady_affine (by simp) _ _

theorem steady_setTxCameraWorld {eigen : Eigen K} (lawful : Lawful eigen) (state : State K) {tx : Matrix4 K} (rigid : IsRigid tx) :
    Steady (setTxCameraWorld eigen state tx).orbitState := by
  obtain ⟨R, t, rotation, rfl⟩ := isRigid_iff.mp rigid
  have inverse := lawful.inverse _ _ (mul_back rotation.transpose_mul t)
  rw [setTxCameraWorld, inverse]
  exact steady_affine rotation.transpose.orthonormal _ _

theorem steady_mulRotation {orbit : OrbitState K} (steady : Steady orbit) {rotation : Matrix3 K}
    (orthonormal : rotation * rotationᵀ = 1) :
    Steady { orbit with txWorldOrbit := mulRotation orbit.txWorldOrbit rotation } := by
  rw [steady.pose, mulRotation_affine]
  exact steady_affine (Rotation.orthonormal_mul steady.orthonormal orthonormal) _ _

/-- Zooming and panning do not touch the pose. -/
theorem steady_camOffset {orbit : OrbitState K} (steady : Steady orbit) (camOffset : Vector3 K) :
    Steady { orbit with camOffset := camOffset } := ⟨steady.orthonormal, steady.pose⟩

theorem steady_mouse [LinearOrder K] {eigen : Eigen K} (lawful : Lawful eigen) (io : IoState K) {orbit : OrbitState K}
    (steady : Steady orbit) : Steady (updateOrbitFromMouse eigen io orbit) := by
  unfold updateOrbitFromMouse
  split
  next roll => exact steady_mulRotation steady (lawful.rotation _ _ (by simp))
  next =>
    split
    next zoom => exact steady_camOffset steady _
    next =>
      split
      next pan => exact steady_camOffset steady _
      next =>
        split
        next spin =>
          have first := lawful.rotation (io.mouseDelta 0 * (3 / 1000)) ![0, 1, 0] (by simp)
          have second := lawful.rotation (-io.mouseDelta 1 * (3 / 1000)) ![1, 0, 0] (by simp)
          exact steady_mulRotation steady (Rotation.orthonormal_mul first second)
        next => exact steady

/-- What re-centring does to the orbit. -/
theorem setPtWorldOrbit_affine (R : Matrix3 K) (t camOffset : Vector3 K) (x y z : K) :
    setPtWorldOrbit { txWorldOrbit := affine R t, camOffset := camOffset } [x, y, z] =
      .done { txWorldOrbit := affine R ![x, y, z], camOffset := camOffset + Rᵀ *ᵥ (![x, y, z] - t) } := by
  have moved : t + (![x, y, z] - t) = ![x, y, z] := add_sub_cancel ..
  simp only [setPtWorldOrbit, addTranslation_affine, affine_translation, affine_toBlocks₁₁, moved]
  rfl

theorem steady_setPtWorldOrbit {orbit after : OrbitState K} (steady : Steady orbit) {data : List K}
    (moved : setPtWorldOrbit orbit data = .done after) : Steady after := by
  obtain ⟨x, y, z, rfl⟩ : ∃ x y z, data = [x, y, z] := by
    unfold setPtWorldOrbit at moved
    split at moved
    next x y z => exact ⟨x, y, z, rfl⟩
    next => cases moved
  obtain ⟨R, t, camOffset, orthonormal, rfl⟩ := steady.exists_affine
  rw [setPtWorldOrbit_affine] at moved
  cases moved
  exact steady_affine orthonormal _ _

/-- The camera, seen from the orbit. -/
theorem txCameraWorld_affine {eigen : Eigen K} (lawful : Lawful eigen) {R : Matrix3 K} (orthonormal : R * Rᵀ = 1)
    (t camOffset : Vector3 K) :
    txCameraWorld eigen { txWorldOrbit := affine R t, camOffset := camOffset } = affine Rᵀ (-(Rᵀ *ᵥ t) + camOffset) := by
  have inverse := lawful.inverse _ _ (mul_back (mul_eq_one_comm.mp orthonormal) t)
  rw [txCameraWorld, inverse, back, addTranslation_affine]

/-- Re-centring moves the orbit point and not the camera. -/
theorem recentre {eigen : Eigen K} (lawful : Lawful eigen) {orbit : OrbitState K} (steady : Steady orbit) (x y z : K) :
    ∃ after, setPtWorldOrbit orbit [x, y, z] = .done after ∧ translation after.txWorldOrbit = ![x, y, z] ∧
      txCameraWorld eigen after = txCameraWorld eigen orbit := by
  obtain ⟨R, t, camOffset, orthonormal, rfl⟩ := steady.exists_affine
  refine ⟨_, setPtWorldOrbit_affine R t camOffset x y z, affine_translation .., ?_⟩
  have balance : -(Rᵀ *ᵥ ![x, y, z]) + (camOffset + Rᵀ *ᵥ (![x, y, z] - t)) = -(Rᵀ *ᵥ t) + camOffset := by
    rw [mulVec_sub]
    abel
  rw [txCameraWorld_affine lawful orthonormal, txCameraWorld_affine lawful orthonormal, balance]

/-- The view parameters are always computed. -/
theorem updateViewParamsFromOrbit_done (eigen : Eigen K) (state : State K) :
    ∃ after, updateViewParamsFromOrbit eigen state = .done after ∧
      after.viewParams.txCameraWorld = txCameraWorld eigen state.orbitState := ⟨_, rfl, rfl⟩

inductive Event (K : Type) where
  | mouse (io : IoState K)
  | setPtWorldOrbit (ptWorldOrbit : List K)

inductive Step [LinearOrder K] (eigen : Eigen K) : State K → Event K → State K → Prop where
  | mouse (state : State K) (io : IoState K) :
      Step eigen state (.mouse io) { state with orbitState := updateOrbitFromMouse eigen io state.orbitState }
  | setPtWorldOrbit (state : State K) (ptWorldOrbit : List K) {orbit : OrbitState K}
      (moved : setPtWorldOrbit state.orbitState ptWorldOrbit = .done orbit) :
      Step eigen state (.setPtWorldOrbit ptWorldOrbit) { state with orbitState := orbit }

/-- As `init` leaves the orbit, or after the camera has been placed by a rigid transform. -/
inductive Start (eigen : Eigen K) : State K → Prop where
  | init (state : State K) : Start eigen { state with orbitState := initialOrbit }
  | setTxCameraWorld (state : State K) {tx : Matrix4 K} (rigid : IsRigid tx) : Start eigen (setTxCameraWorld eigen state tx)

theorem steady_reachable [LinearOrder K] {eigen : Eigen K} (lawful : Lawful eigen) {state : State K}
    (reached : Reachable (Start eigen) (Step eigen) state) : Steady state.orbitState := by
  apply reached.invariant
  · intro start initially
    cases initially with
    | init state => exact steady_initial
    | setTxCameraWorld state rigid => exact steady_setTxCameraWorld lawful state rigid
  · intro before event after moved steady
    cases moved with
    | mouse io => exact steady_mouse lawful io steady
    | setPtWorldOrbit ptWorldOrbit moved => exact steady_setPtWorldOrbit steady moved

theorem orbit_recentering [LinearOrder K] {eigen : Eigen K} (lawful : Lawful eigen) {state : State K}
    (reached : Reachable (Start eigen) (Step eigen) state) :
    state.orbitState.txWorldOrbit.toBlocks₁₁ * state.orbitState.txWorldOrbit.toBlocks₁₁ᵀ = 1 ∧
    ∀ x y z, ∃ orbit before after, setPtWorldOrbit state.orbitState [x, y, z] = .done orbit ∧
      translation orbit.txWorldOrbit = ![x, y, z] ∧
      updateViewParamsFromOrbit eigen state = .done before ∧
      updateViewParamsFromOrbit eigen { state with orbitState := orbit } = .done after ∧
      after.viewParams.txCameraWorld = before.viewParams.txCameraWorld := by
  have steady := steady_reachable lawful reached
  refine ⟨steady.orthonormal, fun x y z => ?_⟩
  obtain ⟨orbit, moved, centred, still⟩ := recentre lawful steady x y z
  obtain ⟨before, viewed, first⟩ := updateViewParamsFromOrbit_done eigen state
  obtain ⟨after, reviewed, second⟩ := updateViewParamsFromOrbit_done eigen { state with orbitState := orbit }
  exact ⟨orbit, before, after, moved, centred, viewed, reviewed, second.trans (still.trans first.symm)⟩

/-- Rotations and inverses of real matrices. -/
noncomputable def realEigen : Eigen ℝ where
  angleAxis := fun angle axis => Rotation.exponential (Real.sin angle) (Real.cos angle) axis
  inverse := fun M => M⁻¹

theorem realEigen_lawful : Lawful realEigen where
  rotation := fun angle _ unit => Rotation.exponential_orthonormal (Real.sin_sq_add_cos_sq angle) unit
  inverse := fun _ _ product => inv_eq_right_inv product

/-- A window in which the orbit has been spun by a drag to the right. -/
noncomputable def spun : State ℝ where
  orbitState := updateOrbitFromMouse realEigen
    { mouseDelta := ![100, 0], mouseWheel := 0, mouseDown := ![false, true, false], keyCtrl := false } initialOrbit
  viewParams := { width := 640, height := 480, txCameraWorld := 1, ndcImageCamera := 1 }
  focalScale := 1

theorem spun_reachable : Reachable (Start realEigen) (Step realEigen) spun := by
  have still : Reachable (Start realEigen) (Step realEigen) { spun with orbitState := initialOrbit } := .start (.init spun)
  exact still.next (.mouse { spun with orbitState := initialOrbit } _)

theorem orbit_recentering_spun : ∃ orbit before after, setPtWorldOrbit spun.orbitState [1, 2, 3] = .done orbit ∧
    translation orbit.txWorldOrbit = ![1, 2, 3] ∧
    updateViewParamsFromOrbit realEigen spun = .done before ∧
    updateViewParamsFromOrbit realEigen { spun with orbitState := orbit } = .done after ∧
    after.viewParams.txCameraWorld = before.viewParams.txCameraWorld :=
  (orbit_recentering realEigen_lawful spun_reachable).2 1 2 3

end AxbyCore.Proofs.OrbitRecentering
