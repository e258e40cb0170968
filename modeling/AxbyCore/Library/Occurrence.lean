import Mathlib.Data.List.Infix

/-! Where a pattern occurs first, and an element last. Behind a text that it does not occur in, a
pattern whose first element is not repeated occurs no earlier than it is written. -/

namespace AxbyCore.Occurrence

variable {α : Type*} {first : α} {others text rest before after : List α}

/-- No occurrence ends in the pattern itself without beginning there. -/
theorem not_straddling (distinct : first ∉ others) {inside : List α} (nonempty : inside ≠ [])
    (same : first :: others ++ after = inside ++ (first :: others ++ rest)) : first :: others <:+: inside := by
  rcases List.append_eq_append_iff.mp same with ⟨more, covers, _⟩ | ⟨cut, split, joined⟩
  · exact ⟨[], more, by simpa using covers.symm⟩
  · cases inside with
    | nil => exact absurd rfl nonempty
    | cons head tail =>
      cases cut with
      | nil =>
        rw [List.append_nil] at split
        exact split ▸ List.infix_refl _
      | cons begins cut =>
        obtain ⟨rfl, tails⟩ := List.cons_eq_cons.mp split
        have begun : first = begins := (List.cons_eq_cons.mp joined).1
        rw [tails, begun] at distinct
        exact absurd (List.mem_append_right _ (List.mem_cons_self ..)) distinct

/-- Every occurrence is behind the text. -/
theorem prefix_before (distinct : first ∉ others) (free : ¬ first :: others <:+: text)
    (same : text ++ (first :: others ++ rest) = before ++ (first :: others ++ after)) : text <+: before := by
  rcases List.append_eq_append_iff.mp same with ⟨more, begins, _⟩ | ⟨inside, split, joined⟩
  · exact ⟨more, begins.symm⟩
  · by_cases nonempty : inside = []
    · rw [split, nonempty, List.append_nil]
    · have within := not_straddling distinct nonempty joined
      exact absurd (within.trans (split ▸ (List.suffix_append before inside).isInfix)) free

variable [DecidableEq α]

/-- The index of the first occurrence. -/
def find (pattern : List α) : List α → Option Nat
  | [] => if pattern = [] then some 0 else none
  | head :: text => if pattern <+: head :: text then some 0 else (find pattern text).map (· + 1)

/-- The index of the last occurrence of an element. -/
def rfind (element : α) : List α → Option Nat
  | [] => none
  | head :: text =>
    match rfind element text with
    | some i => some (i + 1)
    | none => if head = element then some 0 else none

theorem find_splits {pattern : List α} {i : Nat} (found : find pattern text = some i) :
    ∃ before after, text = before ++ (pattern ++ after) ∧ before.length = i ∧
      ∀ sooner later, text = sooner ++ (pattern ++ later) → i ≤ sooner.length := by
  induction text generalizing i with
  | nil =>
    simp only [find, Option.ite_none_right_eq_some, Option.some.injEq] at found
    obtain ⟨rfl, rfl⟩ := found
    exact ⟨[], [], rfl, rfl, fun _ _ _ => Nat.zero_le _⟩
  | cons head text ih =>
    rw [find] at found
    split at found
    next begins =>
      cases found
      obtain ⟨after, same⟩ := begins
      exact ⟨[], after, same.symm, rfl, fun _ _ _ => Nat.zero_le _⟩
    next notHere =>
      obtain ⟨j, there, rfl⟩ := Option.map_eq_some_iff.mp found
      obtain ⟨before, after, rfl, rfl, first⟩ := ih there
      refine ⟨head :: before, after, rfl, rfl, ?_⟩
      intro sooner later same
      cases sooner with
      | nil => exact absurd ⟨later, same.symm⟩ notHere
      | cons _ sooner => exact Nat.succ_le_succ (first sooner later (List.cons_eq_cons.mp same).2)

theorem find_of_append {pattern : List α} (before after : List α) : ∃ i, find pattern (before ++ (pattern ++ after)) = some i := by
  induction before with
  | nil =>
    cases pattern with
    | nil => cases after <;> simp [find]
    | cons head pattern => exact ⟨0, if_pos ⟨after, rfl⟩⟩
  | cons head before ih =>
    obtain ⟨i, found⟩ := ih
    rw [List.cons_append, find]
    split
    next => exact ⟨0, rfl⟩
    next => exact ⟨i + 1, by rw [found]; rfl⟩

/-- The pattern is found behind a text that it does not occur in. -/
theorem find_eq_some_iff (distinct : first ∉ others) {i : Nat} :
    find (first :: others) text = some i ↔
      ∃ before after, text = before ++ (first :: others ++ after) ∧ before.length = i ∧ ¬ first :: others <:+: before := by
  constructor
  · intro found
    obtain ⟨before, after, rfl, rfl, least⟩ := find_splits found
    refine ⟨before, after, rfl, rfl, ?_⟩
    rintro ⟨sooner, later, rfl⟩
    have early := least sooner (later ++ (first :: others ++ after)) (by simp)
    simp only [List.length_append, List.length_cons] at early
    omega
  · rintro ⟨before, after, rfl, rfl, free⟩
    obtain ⟨i, found⟩ : ∃ i, find (first :: others) (before ++ (first :: others ++ after)) = some i := find_of_append before after
    obtain ⟨sooner, later, same, rfl, least⟩ := find_splits found
    have le := least before after rfl
    have ge := (prefix_before distinct free same).length_le
    rw [found, Nat.le_antisymm le ge]

theorem rfind_eq_none_iff {element : α} : rfind element text = none ↔ element ∉ text := by
  induction text with
  | nil => simp [rfind]
  | cons head text ih =>
    rw [rfind, List.mem_cons, not_or, ← ih, eq_comm]
    split
    next i found => simp [found]
    next absent => simp [absent, eq_comm]

theorem rfind_eq_some_iff {element : α} {i : Nat} :
    rfind element text = some i ↔ ∃ before after, text = before ++ element :: after ∧ before.length = i ∧ element ∉ after := by
  induction text generalizing i with
  | nil => simp [rfind]
  | cons head text ih =>
    rw [rfind]
    constructor
    · intro found
      split at found
      next j there =>
        cases found
        obtain ⟨before, after, rfl, rfl, last⟩ := ih.mp there
        exact ⟨head :: before, after, rfl, rfl, last⟩
      next absent =>
        split at found
        next here =>
          cases found
          exact ⟨[], text, by rw [here, List.nil_append], rfl, rfind_eq_none_iff.mp absent⟩
        next => cases found
    · rintro ⟨before, after, same, rfl, last⟩
      cases before with
      | nil =>
        obtain ⟨rfl, rfl⟩ := List.cons_eq_cons.mp same
        rw [rfind_eq_none_iff.mpr last]
        exact if_pos rfl
      | cons _ before =>
        obtain ⟨_, rfl⟩ := List.cons_eq_cons.mp same
        rw [ih.mpr ⟨before, after, rfl, rfl, last⟩]
        rfl

end AxbyCore.Occurrence
