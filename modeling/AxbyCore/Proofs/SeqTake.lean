import AxbyCore.Seq.Seq
import Mathlib.Tactic.Common

/-! When `seq_take` gathers in bounds. Its CHECKs look at the first element of a group
only, and its products wrap. -/

namespace AxbyCore.Proofs.SeqTake

variable {α : Type}

section
variable {src : Seq α} {srcIdx outIdx : UInt64}

theorem position {first : UInt64} {i bound : Nat} (small : bound < 2 ^ 64) (within : first.toNat + i ≤ bound) :
    (first + UInt64.ofNat i).toNat = first.toNat + i := by
  rw [UInt64.toNat_add, UInt64.toNat_ofNat']
  omega

theorem product_toNat {stride index : UInt64} (small : stride.toNat * index.toNat < 2 ^ 64) :
    (stride * index).toNat = stride.toNat * index.toNat := by
  rw [UInt64.toNat_mul, Nat.mod_eq_of_lt small]

theorem product_ofNat {stride : UInt64} {count : Nat} (counted : count < 2 ^ 64) (small : stride.toNat * count < 2 ^ 64) :
    (stride * UInt64.ofNat count).toNat = stride.toNat * count := by
  have index := UInt64.toNat_ofNat_of_lt' counted
  rw [product_toNat (index.symm ▸ small), index]

/-- A group that lies in the source and in the output is copied. -/
theorem takeElements_inside {left i : Nat} {taking : Taking α} (source : srcIdx.toNat + i + left ≤ src.elements.length)
    (target : outIdx.toNat + i + left ≤ taking.out.length) (size : taking.out.length < 2 ^ 64) (few : i + left < 2 ^ 31) :
    ∃ out, takeElements src srcIdx outIdx left i taking = some {
        out
        reads := taking.reads ++ List.range' (srcIdx.toNat + i) left
        writes := taking.writes ++ List.range' (outIdx.toNat + i) left } ∧
      out.length = taking.out.length ∧
      (∀ j, i ≤ j → j < i + left → out[outIdx.toNat + j]? = src.elements[srcIdx.toNat + j]?) ∧
      ∀ p, p < outIdx.toNat + i ∨ outIdx.toNat + i + left ≤ p → out[p]? = taking.out[p]? := by
  induction left generalizing i taking with
  | zero => exact ⟨taking.out, by simp [takeElements], rfl, by omega, fun _ _ => rfl⟩
  | succ left ih =>
    have sourceAt : (srcIdx + UInt64.ofNat i).toNat = srcIdx.toNat + i := position src.size_lt (by omega)
    have targetAt : (outIdx + UInt64.ofNat i).toNat = outIdx.toNat + i := position size (by omega)
    have inside : srcIdx.toNat + i < src.elements.length := by omega
    simp only [takeElements, sourceAt, targetAt, List.getElem?_eq_getElem inside]
    rw [if_pos ⟨by omega, by omega⟩]
    obtain ⟨out, copied, length, group, others⟩ := @ih (i + 1) {
      out := taking.out.set (outIdx.toNat + i) src.elements[srcIdx.toNat + i]
      reads := taking.reads ++ [srcIdx.toNat + i]
      writes := taking.writes ++ [outIdx.toNat + i] } (by omega) (by simp only [List.length_set]; omega)
      (by simpa only [List.length_set] using size) (by omega)
    rw [List.length_set] at length
    refine ⟨out, ?_, length, ?_, ?_⟩
    · rw [copied]
      simp only [List.append_assoc, List.singleton_append, List.range'_succ, Nat.add_assoc]
    · intro j lower upper
      rcases Nat.lt_or_ge i j with later | first
      · exact group j later (by omega)
      · obtain rfl : j = i := by omega
        rw [others _ (by omega), List.getElem?_set_self (by omega), List.getElem?_eq_getElem inside]
    · intro p apart
      rw [others p (by omega), List.getElem?_set_ne (by omega)]

/-- A group that leaves either of them, or whose counter overflows, does not return. -/
theorem takeElements_outside {left i : Nat} {taking : Taking α} (source : srcIdx.toNat + i ≤ src.elements.length)
    (target : outIdx.toNat + i ≤ taking.out.length) (size : taking.out.length < 2 ^ 64) (few : i < 2 ^ 31)
    (outside : ¬ (srcIdx.toNat + i + left ≤ src.elements.length ∧ outIdx.toNat + i + left ≤ taking.out.length ∧
      i + left < 2 ^ 31)) : takeElements src srcIdx outIdx left i taking = none := by
  induction left generalizing i taking with
  | zero => omega
  | succ left ih =>
    have sourceAt := position src.size_lt source
    have targetAt := position size target
    simp only [takeElements, sourceAt, targetAt]
    cases read : src.elements[srcIdx.toNat + i]? with
    | none => rfl
    | some value =>
      obtain ⟨inside, _⟩ := List.getElem?_eq_some_iff.mp read
      simp only
      split
      next written =>
        apply ih
        · omega
        · simp only [List.length_set]
          omega
        · simpa only [List.length_set] using size
        · exact written.2
        · simp only [List.length_set]
          omega
      next => rfl

end

section
variable (src : Seq α) (outSize : Nat) (stride : UInt64)

/-- The group passes the CHECKs on its first element. -/
def Guarded (srcGroupIdx : UInt64) (outGroupIdx : Nat) : Prop :=
  (stride * srcGroupIdx).toNat < src.elements.length ∧ (stride * UInt64.ofNat outGroupIdx).toNat < outSize

/-- The whole group lies in the source and in the output, and an int can count it. -/
def Inside (srcGroupIdx : UInt64) (outGroupIdx : Nat) : Prop :=
  (stride * srcGroupIdx).toNat + stride.toNat ≤ src.elements.length ∧
    (stride * UInt64.ofNat outGroupIdx).toNat + stride.toNat ≤ outSize ∧ stride.toNat < 2 ^ 31

/-- The groups lie inside, up to the first that fails a CHECK. -/
def StaysInside : List UInt64 → Nat → Prop
  | [], _ => True
  | srcGroupIdx :: indices, outGroupIdx =>
    Guarded src outSize stride srcGroupIdx outGroupIdx →
      Inside src outSize stride srcGroupIdx outGroupIdx ∧ StaysInside indices (outGroupIdx + 1)

def AllGuarded : List UInt64 → Nat → Prop
  | [], _ => True
  | srcGroupIdx :: indices, outGroupIdx =>
    Guarded src outSize stride srcGroupIdx outGroupIdx ∧ AllGuarded indices (outGroupIdx + 1)

end

section
variable {src : Seq α} {outSize : Nat} {stride : UInt64} {srcGroupIdx : UInt64} {indices : List UInt64}
  {outGroupIdx : Nat} {taking : Taking α}

theorem takeGroups_unguarded (indices : List UInt64) (length : taking.out.length = outSize)
    (unguarded : ¬ Guarded src outSize stride srcGroupIdx outGroupIdx) :
    takeGroups src stride (srcGroupIdx :: indices) (UInt64.ofNat outGroupIdx) taking = .checkFailed := by
  simp only [takeGroups]
  split
  · rfl
  next source =>
    apply if_pos
    intro target
    exact unguarded ⟨not_not.mp source, length ▸ target⟩

theorem takeGroups_outside (indices : List UInt64) (length : taking.out.length = outSize) (size : outSize < 2 ^ 64)
    (guarded : Guarded src outSize stride srcGroupIdx outGroupIdx)
    (outside : ¬ Inside src outSize stride srcGroupIdx outGroupIdx) :
    takeGroups src stride (srcGroupIdx :: indices) (UInt64.ofNat outGroupIdx) taking = .undefined := by
  subst length
  obtain ⟨source, target⟩ := guarded
  have stuck : takeElements src (stride * srcGroupIdx) (stride * UInt64.ofNat outGroupIdx) stride.toNat 0 taking = none := by
    apply takeElements_outside (Nat.le_of_lt source) (Nat.le_of_lt target) size (by decide)
    simpa only [Inside, Nat.add_zero, Nat.zero_add] using outside
  simp only [takeGroups]
  rw [if_neg (not_not.mpr source), if_neg (not_not.mpr target), stuck]

theorem takeGroups_inside (indices : List UInt64) (length : taking.out.length = outSize) (size : outSize < 2 ^ 64)
    (guarded : Guarded src outSize stride srcGroupIdx outGroupIdx)
    (inside : Inside src outSize stride srcGroupIdx outGroupIdx) :
    ∃ next, takeGroups src stride (srcGroupIdx :: indices) (UInt64.ofNat outGroupIdx) taking =
        takeGroups src stride indices (UInt64.ofNat (outGroupIdx + 1)) next ∧
      next.out.length = outSize ∧
      next.reads = taking.reads ++ List.range' (stride * srcGroupIdx).toNat stride.toNat ∧
      next.writes = taking.writes ++ List.range' (stride * UInt64.ofNat outGroupIdx).toNat stride.toNat ∧
      (∀ j < stride.toNat, next.out[(stride * UInt64.ofNat outGroupIdx).toNat + j]? =
        src.elements[(stride * srcGroupIdx).toNat + j]?) ∧
      ∀ p < (stride * UInt64.ofNat outGroupIdx).toNat, next.out[p]? = taking.out[p]? := by
  subst length
  obtain ⟨source, target⟩ := guarded
  obtain ⟨out, copied, same, group, others⟩ := @takeElements_inside _ src (stride * srcGroupIdx)
    (stride * UInt64.ofNat outGroupIdx) stride.toNat 0 taking inside.1 inside.2.1 size
    (by simpa only [Nat.zero_add] using inside.2.2)
  refine ⟨{
    out
    reads := taking.reads ++ List.range' (stride * srcGroupIdx).toNat stride.toNat
    writes := taking.writes ++ List.range' (stride * UInt64.ofNat outGroupIdx).toNat stride.toNat },
    ?_, same, rfl, rfl, fun j upper => group j (Nat.zero_le j) (by omega), fun p below => others p (.inl below)⟩
  simp only [takeGroups]
  rw [if_neg (not_not.mpr source), if_neg (not_not.mpr target), copied, UInt64.ofNat_add]
  rfl

/-- Exactly a run that stays inside has no undefined behaviour, and it returns exactly
when every CHECK passes. -/
theorem takeGroups_outcome (length : taking.out.length = outSize) (size : outSize < 2 ^ 64) :
    (StaysInside src outSize stride indices outGroupIdx → AllGuarded src outSize stride indices outGroupIdx →
      ∃ taken, takeGroups src stride indices (UInt64.ofNat outGroupIdx) taking = .done taken ∧ taken.out.length = outSize) ∧
    (StaysInside src outSize stride indices outGroupIdx → ¬ AllGuarded src outSize stride indices outGroupIdx →
      takeGroups src stride indices (UInt64.ofNat outGroupIdx) taking = .checkFailed) ∧
    (¬ StaysInside src outSize stride indices outGroupIdx →
      takeGroups src stride indices (UInt64.ofNat outGroupIdx) taking = .undefined) := by
  induction indices generalizing outGroupIdx taking with
  | nil =>
    exact ⟨fun _ _ => ⟨taking, rfl, length⟩, fun _ partly => absurd trivial partly, fun leaves => absurd trivial leaves⟩
  | cons srcGroupIdx indices ih =>
    by_cases guarded : Guarded src outSize stride srcGroupIdx outGroupIdx
    · by_cases inside : Inside src outSize stride srcGroupIdx outGroupIdx
      · obtain ⟨next, stepped, kept, _⟩ := takeGroups_inside indices length size guarded inside
        obtain ⟨returns, fails, leaves⟩ := @ih (outGroupIdx + 1) _ kept
        rw [stepped]
        refine ⟨fun stays all => returns (stays guarded).2 all.2, ?_, ?_⟩
        · intro stays partly
          exact fails (stays guarded).2 fun all => partly ⟨guarded, all⟩
        · intro outside
          exact leaves fun stays => outside fun _ => ⟨inside, stays⟩
      · have stuck := takeGroups_outside indices length size guarded inside
        exact ⟨fun stays _ => absurd (stays guarded).1 inside, fun stays _ => absurd (stays guarded).1 inside, fun _ => stuck⟩
    · have failed := takeGroups_unguarded indices length guarded
      refine ⟨fun _ all => absurd all.1 guarded, fun _ _ => failed, ?_⟩
      intro leaves
      exact absurd (fun passed => absurd passed guarded) leaves

/-- Without overflow the groups are written one behind the other. -/
theorem takeGroups_values (length : taking.out.length = outSize) (size : outSize < 2 ^ 64)
    (stays : StaysInside src outSize stride indices outGroupIdx) (all : AllGuarded src outSize stride indices outGroupIdx)
    (few : stride.toNat * (outGroupIdx + indices.length) < 2 ^ 64) (counted : outGroupIdx + indices.length < 2 ^ 64)
    (products : ∀ srcGroupIdx ∈ indices, stride.toNat * srcGroupIdx.toNat < 2 ^ 64) :
    ∃ taken, takeGroups src stride indices (UInt64.ofNat outGroupIdx) taking = .done taken ∧
      (∀ position ∈ taken.reads, position ∈ taking.reads ∨ position < src.elements.length) ∧
      taken.writes = taking.writes ++ List.range' (stride.toNat * outGroupIdx) (stride.toNat * indices.length) ∧
      (∀ p < stride.toNat * outGroupIdx, taken.out[p]? = taking.out[p]?) ∧
      ∀ k srcGroupIdx, indices[k]? = some srcGroupIdx → ∀ j < stride.toNat,
        ∃ value, taken.out[stride.toNat * (outGroupIdx + k) + j]? = some value ∧
          src.elements[stride.toNat * srcGroupIdx.toNat + j]? = some value := by
  induction indices generalizing outGroupIdx taking with
  | nil => exact ⟨taking, rfl, fun _ read => .inl read, by simp, fun _ _ => rfl, by simp⟩
  | cons srcGroupIdx indices ih =>
    obtain ⟨guarded, rest⟩ := all
    obtain ⟨inside, stays⟩ := stays guarded
    rw [List.length_cons] at few counted
    obtain ⟨next, stepped, kept, reads, writes, group, earlier⟩ := takeGroups_inside indices length size guarded inside
    have following : outGroupIdx + 1 + indices.length = outGroupIdx + (indices.length + 1) := by omega
    obtain ⟨taken, returned, readsRest, writesRest, before, values⟩ := @ih (outGroupIdx + 1) next kept stays rest
      (by rw [following]; exact few) (by omega) (fun index member => products index (List.mem_cons_of_mem _ member))
    have first : stride.toNat * outGroupIdx + stride.toNat ≤ stride.toNat * (outGroupIdx + (indices.length + 1)) := by
      rw [← Nat.mul_succ]
      exact Nat.mul_le_mul_left _ (by omega)
    have source := product_toNat (products srcGroupIdx (List.mem_cons_self ..))
    rw [product_ofNat (by omega) (by omega)] at writes group earlier
    rw [source] at reads group
    have within : stride.toNat * srcGroupIdx.toNat + stride.toNat ≤ src.elements.length := source ▸ inside.1
    rw [Nat.mul_succ] at before
    refine ⟨taken, stepped.trans returned, ?_, ?_, ?_, ?_⟩
    · intro position read
      rcases readsRest position read with known | below
      · rw [reads] at known
        rcases List.mem_append.mp known with already | now
        · exact .inl already
        · exact .inr (Nat.lt_of_lt_of_le (List.mem_range'_1.mp now).2 within)
      · exact .inr below
    · rw [writesRest, writes, List.append_assoc, List.length_cons, Nat.mul_succ, Nat.mul_succ,
        Nat.add_comm (stride.toNat * indices.length), List.range'_append_1]
    · intro p below
      rw [before p (by omega), earlier p below]
    · intro k index at_k j small
      cases k with
      | zero =>
        obtain rfl : srcGroupIdx = index := by simpa using at_k
        have held : stride.toNat * srcGroupIdx.toNat + j < src.elements.length := by omega
        refine ⟨src.elements[stride.toNat * srcGroupIdx.toNat + j], ?_, List.getElem?_eq_getElem held⟩
        rw [Nat.add_zero, before _ (by omega), group j small, List.getElem?_eq_getElem held]
      | succ k =>
        have later := values k index (by simpa using at_k) j small
        rwa [Nat.add_right_comm] at later

end

/-- What a call that gathers does: it fails a CHECK, or it returns and every group is copied. -/
def Gathers (src : Seq α) (indices : Seq UInt64) (out : List α) (stride : UInt64) (outcome : Outcome (Taking α)) : Prop :=
  outcome = .checkFailed ∨ ∃ taken, outcome = .done taken ∧
    (∀ position ∈ taken.reads, position < src.elements.length) ∧
    (∀ k srcGroupIdx, indices.elements[k]? = some srcGroupIdx → ∀ j < stride.toNat,
      ∃ value, taken.out[stride.toNat * k + j]? = some value ∧
        src.elements[stride.toNat * srcGroupIdx.toNat + j]? = some value) ∧
    taken.writes.Perm (List.range out.length)

/-- The groups lie inside as far as the CHECKs go, and if none fails, no product overflows. -/
def TakesInside (src : Seq α) (indices : Seq UInt64) (outSize : Nat) (stride : UInt64) : Prop :=
  outSize = (stride * UInt64.ofNat indices.elements.length).toNat →
    StaysInside src outSize stride indices.elements 0 ∧
    (AllGuarded src outSize stride indices.elements 0 → stride.toNat * indices.elements.length < 2 ^ 64 ∧
      ∀ srcGroupIdx ∈ indices.elements, stride.toNat * srcGroupIdx.toNat < 2 ^ 64)

theorem product_lt {src : Seq α} {indices : Seq UInt64} {stride : UInt64} {taken : Taking α}
    (size : taken.out.length < 2 ^ 64)
    (values : ∀ k srcGroupIdx, indices.elements[k]? = some srcGroupIdx → ∀ j < stride.toNat,
      ∃ value, taken.out[stride.toNat * k + j]? = some value ∧
        src.elements[stride.toNat * srcGroupIdx.toNat + j]? = some value) :
    stride.toNat * indices.elements.length < 2 ^ 64 ∧
      ∀ srcGroupIdx ∈ indices.elements, stride.toNat * srcGroupIdx.toNat < 2 ^ 64 := by
  rcases Nat.eq_zero_or_pos stride.toNat with zero | positive
  · simp [zero]
  · constructor
    · cases groups : indices.elements.length with
      | zero => simp
      | succ last =>
        have inside : last < indices.elements.length := by omega
        obtain ⟨value, written, _⟩ := values last _ (List.getElem?_eq_getElem inside) (stride.toNat - 1) (by omega)
        obtain ⟨below, _⟩ := List.getElem?_eq_some_iff.mp written
        rw [Nat.mul_succ]
        omega
    · intro srcGroupIdx member
      obtain ⟨k, at_k⟩ := List.mem_iff_getElem?.mp member
      obtain ⟨value, _, read⟩ := values k srcGroupIdx at_k 0 positive
      obtain ⟨below, _⟩ := List.getElem?_eq_some_iff.mp read
      have small := src.size_lt
      omega

/-- `seq_take` gathers exactly when every group lies inside as far as its CHECKs go and no
product overflows. -/
theorem seqTake_gathers (src : Seq α) (indices : Seq UInt64) (out : List α) (stride : UInt64) :
    Gathers src indices out stride (seqTake src indices out stride) ↔ TakesInside src indices out.length stride := by
  have counted := indices.size_lt
  unfold seqTake TakesInside
  by_cases same : out.length = (stride * UInt64.ofNat indices.elements.length).toNat
  · have size : out.length < 2 ^ 64 := by
      rw [same]
      exact UInt64.toNat_lt _
    rw [if_neg (not_not.mpr same)]
    have start : (0 : UInt64) = UInt64.ofNat 0 := rfl
    rw [start]
    obtain ⟨returns, fails, leaves⟩ := @takeGroups_outcome _ src out.length stride indices.elements 0 { out } rfl size
    constructor
    · intro gathers _
      have stays : StaysInside src out.length stride indices.elements 0 := by
        apply Classical.byContradiction
        intro outside
        rw [leaves outside] at gathers
        rcases gathers with failed | ⟨taken, returned, _⟩
        · cases failed
        · cases returned
      refine ⟨stays, ?_⟩
      intro all
      obtain ⟨taken, returned, length⟩ := returns stays all
      rw [returned] at gathers
      rcases gathers with failed | ⟨result, equal, _, values, _⟩
      · cases failed
      · cases equal
        exact product_lt (length ▸ size) values
    · intro inside
      obtain ⟨stays, products⟩ := inside same
      by_cases all : AllGuarded src out.length stride indices.elements 0
      · obtain ⟨few, products⟩ := products all
        obtain ⟨taken, returned, reads, writes, _, values⟩ := @takeGroups_values _ src out.length stride indices.elements 0
          { out } rfl size stays all (by rw [Nat.zero_add]; exact few) (by omega) products
        have whole : out.length = stride.toNat * indices.elements.length := same.trans (product_ofNat counted few)
        refine .inr ⟨taken, returned, ?_, ?_, ?_⟩
        · intro position read
          simpa using reads position read
        · simpa only [Nat.zero_add] using values
        · rw [writes, whole, List.nil_append, Nat.mul_zero, List.range_eq_range']
      · exact .inl (fails stays all)
  · rw [if_pos same]
    exact ⟨fun _ equal => absurd equal same, fun _ => .inl rfl⟩

/-- The second group of two ends behind a source of three elements. -/
theorem group_leaves_source :
    seqTake ⟨[1, 2, 3], by decide⟩ ⟨[0, 1], by decide⟩ [0, 0, 0, 0] 2 = .undefined ∧
      ¬ Gathers ⟨[1, 2, 3], by decide⟩ ⟨[0, 1], by decide⟩ [0, 0, 0, 0] 2
        (seqTake ⟨[1, 2, 3], by decide⟩ ⟨[0, 1], by decide⟩ [0, 0, 0, 0] 2) := by
  have run : seqTake ⟨[1, 2, 3], by decide⟩ ⟨[0, 1], by decide⟩ [0, 0, 0, 0] 2 = .undefined := by decide
  refine ⟨run, ?_⟩
  rw [run]
  rintro (failed | ⟨taken, returned, _⟩)
  · cases failed
  · cases returned

end AxbyCore.Proofs.SeqTake
