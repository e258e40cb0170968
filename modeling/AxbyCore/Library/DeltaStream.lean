import Mathlib.Data.List.Induction
import Mathlib.Tactic.Common

/-! A numbered stream of items over a channel that may lose some of them. A whole item is
decoded by itself, any other one by what the item before it left. The receiver goes on from
item to item, and after a gap it waits for a whole one. -/

namespace AxbyCore.DeltaStream
variable {α : Type}

/-- The item that the next one may build on, and the items that were decoded. -/
structure Receiver (α : Type) where
  last : Option Nat := none
  given : List (Nat × α) := []

section
variable (whole : Nat → α → Bool) (links : Nat → Bool)

/-- Whether item `n` can be decoded. -/
def Receiver.decodes (receiver : Receiver α) (n : Nat) (item : α) : Bool :=
  whole n item || (receiver.last.any (· + 1 == n) && links n)

def Receiver.receive (receiver : Receiver α) (n : Nat) (item : α) : Receiver α :=
  if receiver.decodes whole links n item then ⟨some n, receiver.given ++ [(n, item)]⟩ else ⟨none, receiver.given⟩

/-- The receiver after a stream, in which each item has arrived or not. -/
def Receiver.after (sent : List (α × Bool)) : Receiver α :=
  sent.zipIdx.foldl (fun receiver item =>
    if item.1.2 then receiver.receive whole links item.2 item.1.1 else receiver) {}

/-- From a whole item on, every item up to this one has arrived, and each is linked to the one before. -/
inductive Decodable (sent : List (α × Bool)) : Nat → α → Prop where
  | start {i : Nat} {item : α} (arrived : sent[i]? = some (item, true)) (first : whole i item = true) :
    Decodable sent i item
  | next {i : Nat} {before item : α} (decodable : Decodable sent i before) (arrived : sent[i + 1]? = some (item, true))
    (linked : links (i + 1) = true) : Decodable sent (i + 1) item

end

section
variable {whole : Nat → α → Bool} {links : Nat → Bool} {sent : List (α × Bool)}

theorem Receiver.after_snoc (item : α) (arrived : Bool) :
    Receiver.after whole links (sent ++ [(item, arrived)]) =
      if arrived then (Receiver.after whole links sent).receive whole links sent.length item
      else Receiver.after whole links sent := by
  rw [Receiver.after, List.zipIdx_append, List.foldl_append, Nat.zero_add]
  rfl

theorem Decodable.arrived {i : Nat} {item : α} (decodable : Decodable whole links sent i item) :
    sent[i]? = some (item, true) := by
  cases decodable with
  | start arrived _ => exact arrived
  | next _ arrived _ => exact arrived

theorem Decodable.inside {i : Nat} {item : α} (decodable : Decodable whole links sent i item) : i < sent.length :=
  (List.getElem?_eq_some_iff.mp decodable.arrived).1

/-- What comes later changes nothing. -/
theorem Decodable.append {i : Nat} {item : α} (decodable : Decodable whole links sent i item) (later : List (α × Bool)) :
    Decodable whole links (sent ++ later) i item := by
  induction decodable with
  | start arrived first =>
    apply Decodable.start _ first
    rw [List.getElem?_append_left (List.getElem?_eq_some_iff.mp arrived).1, arrived]
  | next _ arrived linked ih =>
    apply ih.next _ linked
    rw [List.getElem?_append_left (List.getElem?_eq_some_iff.mp arrived).1, arrived]

theorem Decodable.earlier {i : Nat} {item : α} {later : List (α × Bool)}
    (decodable : Decodable whole links (sent ++ later) i item) (inside : i < sent.length) :
    Decodable whole links sent i item := by
  induction decodable with
  | start arrived first =>
    rw [List.getElem?_append_left inside] at arrived
    exact .start arrived first
  | next _ arrived linked ih =>
    rw [List.getElem?_append_left inside] at arrived
    exact .next (ih (by omega)) arrived linked

/-- The receiver has decoded what can be decoded, and knows whether that is so of the item before the next one. -/
structure Faithful (whole : Nat → α → Bool) (links : Nat → Bool) (sent : List (α × Bool)) (receiver : Receiver α) : Prop where
  given : ∀ i item, (i, item) ∈ receiver.given ↔ Decodable whole links sent i item
  order : receiver.given.Pairwise (·.1 < ·.1)
  last : ∀ i, receiver.last = some i → ∃ item, Decodable whole links sent i item
  recent : ∀ i item, Decodable whole links sent i item → i + 1 = sent.length → receiver.last = some i

theorem Faithful.start : Faithful whole links [] {} := by
  have never : ∀ i item, ¬ Decodable whole links [] i item := by
    intro i item decodable
    exact absurd decodable.inside (Nat.not_lt_zero i)
  constructor
  · intro i item
    constructor
    · intro member
      cases member
    · exact fun decodable => absurd decodable (never i item)
  · exact .nil
  · intro i last
    cases last
  · exact fun i item decodable => absurd decodable (never i item)

/-- Only the new item itself may become decodable. -/
theorem decodable_snoc {item other : α} {arrived : Bool} {i : Nat} :
    Decodable whole links (sent ++ [(item, arrived)]) i other ↔
      Decodable whole links sent i other ∨ i = sent.length ∧ Decodable whole links (sent ++ [(item, arrived)]) i other := by
  constructor
  · intro decodable
    by_cases inside : i < sent.length
    · exact .inl (decodable.earlier inside)
    · have bound := decodable.inside
      rw [List.length_append, List.length_singleton] at bound
      exact .inr ⟨by omega, decodable⟩
  · intro either
    cases either with
    | inl decodable => exact decodable.append _
    | inr here => exact here.2

theorem Faithful.lost {receiver : Receiver α} (faithful : Faithful whole links sent receiver) (item : α) :
    Faithful whole links (sent ++ [(item, false)]) receiver := by
  have same : ∀ i other, Decodable whole links (sent ++ [(item, false)]) i other ↔ Decodable whole links sent i other := by
    intro i other
    rw [decodable_snoc]
    apply or_iff_left
    intro here
    obtain ⟨rfl, decodable⟩ := here
    simpa using decodable.arrived
  constructor
  · exact fun i other => (faithful.given i other).trans (same i other).symm
  · exact faithful.order
  · intro i last
    obtain ⟨other, decodable⟩ := faithful.last i last
    exact ⟨other, decodable.append _⟩
  · intro i other decodable here
    have inside := ((same i other).mp decodable).inside
    rw [List.length_append, List.length_singleton] at here
    omega

theorem Faithful.decodes_iff {receiver : Receiver α} (faithful : Faithful whole links sent receiver) (item other : α) :
    Decodable whole links (sent ++ [(item, true)]) sent.length other ↔
      other = item ∧ receiver.decodes whole links sent.length item = true := by
  have here : (sent ++ [(item, true)])[sent.length]? = some (item, true) := by simp
  constructor
  · intro decodable
    obtain rfl : item = other := by simpa using here.symm.trans decodable.arrived
    refine ⟨rfl, ?_⟩
    unfold Receiver.decodes
    generalize place : sent.length = n at decodable
    cases decodable with
    | start _ first => rw [first, Bool.true_or]
    | @next i before _ decodable _ linked =>
      have last := faithful.recent i before (decodable.earlier (by omega)) place.symm
      rw [last, linked]
      simp
  · intro decodes
    obtain ⟨rfl, decodes⟩ := decodes
    unfold Receiver.decodes at decodes
    rw [Bool.or_eq_true, Bool.and_eq_true, Option.any_eq_true] at decodes
    cases decodes with
    | inl first => exact .start here first
    | inr goes =>
      obtain ⟨⟨i, last, next⟩, linked⟩ := goes
      obtain ⟨before, decodable⟩ := faithful.last i last
      have place : i + 1 = sent.length := by simpa using next
      rw [← place] at linked here ⊢
      exact (decodable.append _).next here linked

theorem Faithful.receive {receiver : Receiver α} (faithful : Faithful whole links sent receiver) (item : α) :
    Faithful whole links (sent ++ [(item, true)]) (receiver.receive whole links sent.length item) := by
  have known : ∀ i other, Decodable whole links (sent ++ [(item, true)]) i other ↔
      Decodable whole links sent i other ∨
        i = sent.length ∧ other = item ∧ receiver.decodes whole links sent.length item = true := by
    intro i other
    rw [decodable_snoc]
    apply or_congr_right
    apply and_congr_right
    rintro rfl
    exact faithful.decodes_iff item other
  unfold Receiver.receive
  cases decodes : receiver.decodes whole links sent.length item with
  | true =>
    rw [if_pos rfl]
    constructor
    · intro i other
      rw [known, List.mem_append, List.mem_singleton, Prod.mk.injEq, faithful.given, decodes]
      simp
    · apply List.pairwise_append.mpr
      refine ⟨faithful.order, List.pairwise_singleton .., ?_⟩
      intro entry member final here
      rw [List.mem_singleton.mp here]
      exact ((faithful.given entry.1 entry.2).mp member).inside
    · intro i last
      obtain rfl := Option.some.inj last
      exact ⟨item, (known _ item).mpr (.inr ⟨rfl, rfl, decodes⟩)⟩
    · intro i other decodable here
      rw [List.length_append, List.length_singleton] at here
      exact congrArg some (by omega)
  | false =>
    rw [if_neg Bool.false_ne_true]
    have same : ∀ i other, Decodable whole links (sent ++ [(item, true)]) i other ↔ Decodable whole links sent i other := by
      intro i other
      rw [known, decodes]
      simp
    constructor
    · exact fun i other => (faithful.given i other).trans (same i other).symm
    · exact faithful.order
    · intro i last
      cases last
    · intro i other decodable here
      have inside := ((same i other).mp decodable).inside
      rw [List.length_append, List.length_singleton] at here
      omega

/-- After any stream the receiver has given the items that can be decoded, each once and in their order. -/
theorem after_faithful (sent : List (α × Bool)) : Faithful whole links sent (Receiver.after whole links sent) := by
  induction sent using List.reverseRecOn with
  | nil => exact .start
  | append_singleton sent entry ih =>
    obtain ⟨item, arrived⟩ := entry
    rw [Receiver.after_snoc]
    cases arrived with
    | false => exact ih.lost item
    | true => exact ih.receive item

end

end AxbyCore.DeltaStream
