import Mathlib.Data.List.Forall2

/-! What becomes of a call that has CHECKs and may have undefined behaviour. What is
undefined first is not undone by a CHECK that would fail later. -/

namespace AxbyCore

universe u v

inductive Outcome (α : Type u) where
  | checkFailed
  | undefined
  | done (result : α)
  deriving DecidableEq, Repr

namespace Outcome
variable {α : Type u} {β : Type u}

protected def bind (outcome : Outcome α) (next : α → Outcome β) : Outcome β :=
  match outcome with
  | .checkFailed => .checkFailed
  | .undefined => .undefined
  | .done result => next result

instance : Monad Outcome where
  pure := .done
  bind := Outcome.bind

instance : LawfulMonad Outcome :=
  LawfulMonad.mk' Outcome (by intro _ outcome; cases outcome <;> rfl) (fun _ _ => rfl)
    (by intro _ _ _ outcome _ _; cases outcome <;> rfl)

/-- A CHECK. -/
def check (condition : Prop) [Decidable condition] : Outcome Unit := if condition then .done () else .checkFailed

/-- A condition without which the behaviour is undefined. -/
def require (condition : Prop) [Decidable condition] : Outcome Unit := if condition then .done () else .undefined

/-- An element of a sequence, which is not read outside. -/
def read (element : Option α) : Outcome α :=
  match element with
  | some value => .done value
  | none => .undefined

/-- A loop whose iterations push elements to the end of a vector. -/
def pushAll {ε : Type v} (body : ε → Outcome (List α)) : List ε → Outcome (List α)
  | [] => .done []
  | item :: items => do
    let pushed ← body item
    let later ← pushAll body items
    return pushed ++ later

theorem pure_eq (value : α) : (pure value : Outcome α) = .done value := rfl

@[simp] theorem done_bind (value : α) (next : α → Outcome β) : (.done value >>= next) = next value := rfl

@[simp] theorem checkFailed_bind (next : α → Outcome β) : (.checkFailed >>= next) = .checkFailed := rfl

@[simp] theorem undefined_bind (next : α → Outcome β) : (.undefined >>= next) = .undefined := rfl

theorem bind_eq_done {outcome : Outcome α} {next : α → Outcome β} {result : β} :
    (outcome >>= next) = .done result ↔ ∃ value, outcome = .done value ∧ next value = .done result := by
  cases outcome with
  | checkFailed => simp
  | undefined => simp
  | done value => simp

theorem check_of {condition : Prop} [Decidable condition] (holds : condition) : check condition = .done () := if_pos holds

theorem check_failed {condition : Prop} [Decidable condition] (fails : ¬ condition) : check condition = .checkFailed :=
  if_neg fails

theorem require_of {condition : Prop} [Decidable condition] (holds : condition) : require condition = .done () := if_pos holds

theorem require_undefined {condition : Prop} [Decidable condition] (fails : ¬ condition) : require condition = .undefined :=
  if_neg fails

theorem check_eq_done {condition : Prop} [Decidable condition] : check condition = .done () ↔ condition := by
  unfold check
  split
  next holds => simp [holds]
  next fails => simp [fails]

theorem require_eq_done {condition : Prop} [Decidable condition] : require condition = .done () ↔ condition := by
  unfold require
  split
  next holds => simp [holds]
  next fails => simp [fails]

/-- What follows a CHECK runs exactly if the condition holds. -/
theorem check_bind_eq_done {α : Type} {condition : Prop} [Decidable condition] {next : Unit → Outcome α} {result : α} :
    (check condition >>= next) = .done result ↔ condition ∧ next () = .done result := by
  unfold check
  split
  next holds => simp [holds]
  next fails => simp [fails]

theorem require_bind_eq_done {α : Type} {condition : Prop} [Decidable condition] {next : Unit → Outcome α} {result : α} :
    (require condition >>= next) = .done result ↔ condition ∧ next () = .done result := by
  unfold require
  split
  next holds => simp [holds]
  next fails => simp [fails]

section
variable {ε : Type v} {body : ε → Outcome (List α)}

/-- A loop returns if its iterations do, with what they push, in order. -/
theorem pushAll_eq_done {items : List ε} {result : List α} :
    pushAll body items = .done result ↔
      ∃ pieces : List (List α), List.Forall₂ (fun item piece => body item = .done piece) items pieces ∧
        result = pieces.flatten := by
  induction items generalizing result with
  | nil =>
    constructor
    · intro returned
      cases returned
      exact ⟨[], .nil, rfl⟩
    · rintro ⟨pieces, pushed, rfl⟩
      cases pushed
      rfl
  | cons item items ih =>
    simp only [pushAll, bind_eq_done, pure_eq]
    constructor
    · rintro ⟨pushed, first, later, rest, joined⟩
      cases joined
      obtain ⟨pieces, all, rfl⟩ := ih.mp rest
      exact ⟨pushed :: pieces, .cons first all, rfl⟩
    · rintro ⟨pieces, all, rfl⟩
      cases all with
      | cons first rest => exact ⟨_, first, _, ih.mpr ⟨_, rest, rfl⟩, rfl⟩

/-- What the loop pushes if every iteration returns. -/
theorem pushAll_done {items : List ε} (pushed : ε → List α) (each : ∀ item ∈ items, body item = .done (pushed item)) :
    pushAll body items = .done (items.flatMap pushed) := by
  induction items with
  | nil => rfl
  | cons item items ih =>
    have rest := ih fun item member => each item (List.mem_cons_of_mem _ member)
    simp only [pushAll, each item (List.mem_cons_self ..), rest, done_bind]
    rfl

theorem pushAll_map {δ : Type*} (items : List δ) (name : δ → ε) :
    pushAll body (items.map name) = pushAll (fun item => body (name item)) items := by
  induction items with
  | nil => rfl
  | cons item items ih => simp only [List.map_cons, pushAll, ih]

/-- When a loop returns, if it is known when an iteration does and what it then pushes. -/
theorem pushAll_done_iff {items : List ε} {ok : ε → Prop} {pushed : ε → List α}
    (each : ∀ item ∈ items, ∀ piece, body item = .done piece ↔ ok item ∧ piece = pushed item) {out : List α} :
    pushAll body items = .done out ↔ (∀ item ∈ items, ok item) ∧ out = items.flatMap pushed := by
  induction items generalizing out with
  | nil =>
    constructor
    · intro returned
      cases returned
      exact ⟨by simp, rfl⟩
    · rintro ⟨_, rfl⟩
      rfl
  | cons item items ih =>
    have first := each item (List.mem_cons_self ..)
    have rest (out : List α) := @ih (fun other member => each other (List.mem_cons_of_mem _ member)) out
    simp only [pushAll, bind_eq_done, pure_eq, first, rest, List.forall_mem_cons, List.flatMap_cons]
    constructor
    · rintro ⟨_, ⟨one, rfl⟩, _, ⟨others, rfl⟩, joined⟩
      cases joined
      exact ⟨⟨one, others⟩, rfl⟩
    · rintro ⟨⟨one, others⟩, rfl⟩
      exact ⟨_, ⟨one, rfl⟩, _, ⟨others, rfl⟩, rfl⟩

/-- The same of a loop over the indices of a list. -/
theorem pushAll_range_done_iff {δ : Type*} {items : List δ} {body : Nat → Outcome (List α)} {ok : Nat → δ → Prop}
    {pushed : δ → List α}
    (each : ∀ i item, items[i]? = some item → ∀ piece, body i = .done piece ↔ ok i item ∧ piece = pushed item)
    {out : List α} :
    pushAll body (List.range items.length) = .done out ↔
      (∀ i item, items[i]? = some item → ok i item) ∧ out = items.flatMap pushed := by
  have indices : List.range items.length = items.zipIdx.map Prod.snd := by
    rw [List.zipIdx_map_snd, List.range_eq_range']
  have values : items.flatMap pushed = items.zipIdx.flatMap fun entry => pushed entry.1 :=
    calc items.flatMap pushed = (items.zipIdx.map Prod.fst).flatMap pushed := by rw [List.zipIdx_map_fst]
      _ = items.zipIdx.flatMap fun entry => pushed entry.1 := List.flatMap_map ..
  rw [indices, pushAll_map, values, pushAll_done_iff fun entry member =>
    each entry.2 entry.1 (List.mem_zipIdx_iff_getElem?.mp member)]
  simp only [Prod.forall, List.mem_zipIdx_iff_getElem?]
  exact and_congr_left fun _ => forall_comm

theorem pushAll_append (first second : List ε) :
    pushAll body (first ++ second) = (do
      let pushed ← pushAll body first
      let later ← pushAll body second
      return pushed ++ later) := by
  induction first with
  | nil =>
    simp only [List.nil_append, pushAll, done_bind]
    cases pushAll body second <;> rfl
  | cons item items ih =>
    simp only [List.cons_append, pushAll, ih]
    cases body item with
    | checkFailed => rfl
    | undefined => rfl
    | done pushed =>
      simp only [done_bind]
      cases pushAll body items with
      | checkFailed => rfl
      | undefined => rfl
      | done later =>
        simp only [done_bind]
        cases pushAll body second with
        | checkFailed => rfl
        | undefined => rfl
        | done last => exact congrArg Outcome.done (List.append_assoc _ _ _).symm

/-- A loop over groups is a loop of loops. -/
theorem pushAll_flatMap {δ : Type*} (items : List δ) (group : δ → List ε) :
    pushAll body (items.flatMap group) = pushAll (fun item => pushAll body (group item)) items := by
  induction items with
  | nil => rfl
  | cons item items ih => rw [List.flatMap_cons, pushAll_append, ih, pushAll]

end

end Outcome
end AxbyCore
