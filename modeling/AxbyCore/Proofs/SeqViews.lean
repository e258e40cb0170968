import AxbyCore.Library.Ieee754
import AxbyCore.Seq.AnySeq
import Mathlib.Tactic.Common

/-! Which chains of copies and conversions keep a typed view, and the copies between such
views. The constructor that adds const forgets the type and the size. -/

namespace AxbyCore.Proofs.SeqViews
open Endian

/-- Copies and conversions from a view of one constness to one of another. -/
inductive Chain : Bool → Bool → Type where
  | start (isConst : Bool) : Chain isConst isConst
  | copy {first last : Bool} (chain : Chain first last) : Chain first last
  | convert {first : Bool} (chain : Chain first false) : Chain first true

def Chain.any {first : Bool} : {last : Bool} → Chain first last → AnySeq first → AnySeq last
  | _, .start _, seq => seq
  | _, .copy chain, seq => (chain.any seq).copy
  | _, .convert chain, seq => (chain.any seq).convert

def Chain.floatOrDouble {first : Bool} : {last : Bool} → Chain first last → FloatOrDoubleSeq first → FloatOrDoubleSeq last
  | _, .start _, seq => seq
  | _, .copy chain, seq => (chain.floatOrDouble seq).copy
  | _, .convert chain, seq => (chain.floatOrDouble seq).convert

/-- What a view says of its sequence. -/
structure Views {isConst : Bool} (seq : AnySeq isConst) (type : ElementType) (address count : Nat) : Prop where
  isType : seq.valueTypeNocv = type
  size : seq.logicalSize = count
  elements : seq.getSpan type = .done ⟨address, count * type.size⟩

/-- What is left of a view by the constructor that adds const. -/
structure Forgotten {isConst : Bool} (seq : AnySeq isConst) : Prop where
  isType : seq.valueTypeNocv = .void
  size : seq.logicalSize = 0

section
variable {first last : Bool}

theorem Chain.same_of_last_nonconst (chain : Chain first last) (nonconst : last = false) : first = last := by
  induction chain with
  | start => rfl
  | copy chain ih => exact ih nonconst
  | convert chain ih => cases nonconst

theorem getSpan_eq {seq : AnySeq first} {type : ElementType} (isType : seq.valueTypeNocv = type)
    (whole : seq.span.numBytes % type.size = 0) : seq.getSpan type = .done seq.span := by
  unfold AnySeq.getSpan
  rw [Outcome.check_of isType, Outcome.done_bind, Outcome.check_of whole, Outcome.done_bind]
  rfl

theorem ofSequence_views {type : ElementType} (positive : 0 < type.size) (address count : Nat) :
    Views (AnySeq.ofSequence type address count : AnySeq first) type address count := by
  constructor
  · rfl
  · exact Nat.mul_div_cancel count positive
  · exact getSpan_eq rfl (Nat.mul_mod_left count type.size)

/-- A chain that ends with the constness it began with keeps the view. -/
theorem Chain.keeps (chain : Chain first last) {seq : AnySeq first} {type : ElementType} {address count : Nat}
    (views : Views seq type address count) (same : first = last) : Views (chain.any seq) type address count := by
  induction chain with
  | start => exact views
  | copy chain ih => exact ih same
  | convert chain ih =>
    have nonconst := chain.same_of_last_nonconst rfl
    rw [nonconst] at same
    cases same

theorem Chain.forgets (chain : Chain first last) (seq : AnySeq first) (differs : first ≠ last) :
    Forgotten (chain.any seq) := by
  induction chain with
  | start => exact absurd rfl differs
  | copy chain ih => exact ih differs
  | convert chain ih => exact ⟨rfl, rfl⟩

theorem Chain.floatOrDouble_seq (chain : Chain first last) (fds : FloatOrDoubleSeq first) :
    (chain.floatOrDouble fds).seq = chain.any fds.seq := by
  induction chain with
  | start => rfl
  | copy chain ih => exact ih
  | convert chain ih => exact congrArg AnySeq.convert ih

/-- Exactly the chains without a conversion keep what a view says of its sequence. -/
theorem Chain.views_iff (chain : Chain first last) {seq : AnySeq first} {type : ElementType} {address count : Nat}
    (views : Views seq type address count) (notVoid : type ≠ .void) :
    Views (chain.any seq) type address count ↔ first = last := by
  constructor
  · intro kept
    by_contra differs
    exact notVoid (kept.isType.symm.trans (chain.forgets seq differs).isType)
  · exact chain.keeps views

end

section
variable {memory : Memory} {address : Nat}

@[simp] theorem bytes_length (memory : Memory) (address count : Nat) : (memory.bytes address count).length = count := by
  simp [Memory.bytes]

theorem write_inside (memory : Memory) (address : Nat) {bytes : List UInt8} {i : Nat} (inside : i < bytes.length) :
    memory.write address bytes (address + i) = bytes[i] := by
  simp [Memory.write, inside]

theorem write_outside {bytes : List UInt8} {byte : Nat} (outside : byte < address ∨ address + bytes.length ≤ byte) :
    memory.write address bytes byte = memory byte := by
  unfold Memory.write
  split
  next behind =>
    rw [List.getElem?_eq_none (by omega)]
    rfl
  next => rfl

theorem bytes_write (memory : Memory) (address : Nat) (bytes : List UInt8) :
    (memory.write address bytes).bytes address bytes.length = bytes := by
  apply List.ext_getElem (by simp)
  intro i inside within
  simp [Memory.bytes, write_inside memory address within]

theorem bytes_write_apart {bytes : List UInt8} {other count : Nat}
    (apart : other + count ≤ address ∨ address + bytes.length ≤ other) :
    (memory.write address bytes).bytes other count = memory.bytes other count := by
  unfold Memory.bytes
  apply List.map_congr_left
  intro i member
  have small := List.mem_range.mp member
  exact write_outside (by omega)

theorem writeElement_element (precision : Precision) (i : Nat) (value : precision.Bits) :
    (memory.writeElement precision address i value).element precision address i = value := by
  have read := bytes_write memory (address + precision.size * i) (little precision.size value.toNat)
  rw [little_length] at read
  have small : value.toNat < 256 ^ precision.size := by
    have := value.isLt
    rwa [Nat.pow_mul] at this
  unfold Memory.element Memory.writeElement
  rw [read, ofLittle_little_of_lt small, BitVec.ofNat_toNat, BitVec.setWidth_eq]

theorem writeElement_apart {precision other : Precision} {i j place : Nat} (value : precision.Bits)
    (apart : place + other.size * j + other.size ≤ address + precision.size * i ∨
      address + precision.size * i + precision.size ≤ place + other.size * j) :
    (memory.writeElement precision address i value).element other place j = memory.element other place j := by
  unfold Memory.element Memory.writeElement
  rw [bytes_write_apart (by rw [little_length]; exact apart)]

theorem element_inside {precision : Precision} {i count : Nat} (inside : i < count) :
    precision.size * i + precision.size ≤ count * precision.size := by
  rw [← Nat.mul_succ, Nat.mul_comm count]
  exact Nat.mul_le_mul_left _ inside

end

/-- The destination has the converted elements, and the source the elements it had. -/
def Transferred (conversion : Conversion) (source target : Precision) (src dst count : Nat) (before after : Memory) : Prop :=
  ∀ i < count, after.element target dst i = conversion.convert source target (before.element source src i) ∧
    after.element source src i = before.element source src i

/-- A copy of the bytes is a copy of the elements. -/
theorem seqCopyBytes_transfers (conversion : Conversion) (precision : Precision) (memory : Memory) {src dst count : Nat}
    (apart : ¬ (Span.mk src (count * precision.size)).Overlaps ⟨dst, count * precision.size⟩) :
    Transferred conversion precision precision src dst count memory
      (memory.write dst (memory.bytes src (count * precision.size))) := by
  simp only [Span.Overlaps] at apart
  intro i small
  have inside := @element_inside precision i count small
  have same : conversion.convert precision precision = id := by cases precision <;> rfl
  rw [same]
  constructor
  · simp only [Memory.element, id]
    congr 2
    apply List.map_congr_left
    intro byte member
    have within := List.mem_range.mp member
    have covered : precision.size * i + byte < (memory.bytes src (count * precision.size)).length := by
      rw [bytes_length]
      omega
    have written := write_inside memory dst covered
    rw [Nat.add_assoc, written]
    simp only [Memory.bytes, List.getElem_map, List.getElem_range, Nat.add_assoc]
  · unfold Memory.element
    rw [bytes_write_apart (by rw [bytes_length]; omega)]

/-- One after the other, the elements are converted. -/
theorem seqCopy_transfers (conversion : Conversion) (source target : Precision) (memory : Memory) {src dst count : Nat}
    (apart : ¬ (Span.mk src (count * source.size)).Overlaps ⟨dst, count * target.size⟩) {copied : Nat}
    (le : copied ≤ count) :
    let after := (List.range copied).foldl (fun memory i =>
      memory.writeElement target dst i (conversion.convert source target (memory.element source src i))) memory
    (∀ i < copied, after.element target dst i = conversion.convert source target (memory.element source src i)) ∧
      ∀ i < count, after.element source src i = memory.element source src i := by
  simp only [Span.Overlaps] at apart
  induction copied with
  | zero => exact ⟨fun i small => absurd small (Nat.not_lt_zero i), fun _ _ => rfl⟩
  | succ copied ih =>
    obtain ⟨targets, sources⟩ := ih (by omega)
    rw [List.range_succ, List.foldl_append, List.foldl_cons, List.foldl_nil]
    generalize (List.range copied).foldl (fun memory i =>
      memory.writeElement target dst i (conversion.convert source target (memory.element source src i))) memory = between
      at targets sources ⊢
    have last := @element_inside target copied count (by omega)
    constructor
    · intro i small
      rcases Nat.lt_or_ge i copied with earlier | now
      · have inside := @element_inside target i copied earlier
        rw [Nat.mul_comm copied] at inside
        rw [writeElement_apart _ (by omega), targets i earlier]
      · obtain rfl : i = copied := by omega
        rw [writeElement_element, sources i (by omega)]
    · intro i small
      have inside := @element_inside source i count small
      rw [writeElement_apart _ (by omega), sources i small]

/-- What a view of floats or doubles says of its sequence. -/
structure ViewsNumbers {isConst : Bool} (fds : FloatOrDoubleSeq isConst) (precision : Precision) (address count : Nat) :
    Prop where
  isFloat : fds.isFloat = decide (precision = .float)
  isDouble : fds.isDouble = decide (precision = .double)
  size : fds.size = count
  floats : precision = .float → fds.floats = .done ⟨address, count * precision.size⟩
  doubles : precision = .double → fds.doubles = .done ⟨address, count * precision.size⟩

section
variable {isConst : Bool} {fds : FloatOrDoubleSeq isConst} {precision : Precision} {address count : Nat}

theorem Views.numbers (views : Views fds.seq precision.type address count) : ViewsNumbers fds precision address count := by
  have isFloat : fds.isFloat = decide (precision = .float) := by
    unfold FloatOrDoubleSeq.isFloat AnySeq.isType
    rw [views.isType]
    cases precision <;> rfl
  have isDouble : fds.isDouble = decide (precision = .double) := by
    unfold FloatOrDoubleSeq.isDouble AnySeq.isType
    rw [views.isType]
    cases precision <;> rfl
  refine ⟨isFloat, isDouble, views.size, ?_, ?_⟩
  · rintro rfl
    unfold FloatOrDoubleSeq.floats
    rw [Outcome.check_of (by simp [isFloat]), Outcome.done_bind]
    exact views.elements
  · rintro rfl
    unfold FloatOrDoubleSeq.doubles
    rw [Outcome.check_of (by simp [isDouble]), Outcome.done_bind]
    exact views.elements

theorem Forgotten.neither (forgotten : Forgotten fds.seq) : fds.isFloat = false ∧ fds.isDouble = false ∧ fds.size = 0 := by
  unfold FloatOrDoubleSeq.isFloat FloatOrDoubleSeq.isDouble AnySeq.isType
  rw [forgotten.isType]
  exact ⟨rfl, rfl, forgotten.size⟩

theorem Forgotten.floats (forgotten : Forgotten fds.seq) : fds.floats = .checkFailed := by
  unfold FloatOrDoubleSeq.floats
  rw [Outcome.check_failed (by simp [forgotten.neither.1]), Outcome.checkFailed_bind]

theorem Forgotten.doubles (forgotten : Forgotten fds.seq) : fds.doubles = .checkFailed := by
  unfold FloatOrDoubleSeq.doubles
  rw [Outcome.check_failed (by simp [forgotten.neither.2.1]), Outcome.checkFailed_bind]

/-- Any chain of a sequence of floats or doubles without a conversion, and no other, keeps the view. -/
theorem Chain.numbers_iff {last : Bool} (chain : Chain isConst last) (views : Views fds.seq precision.type address count) :
    ViewsNumbers (chain.floatOrDouble fds) precision address count ↔ isConst = last := by
  constructor
  · intro kept
    by_contra differs
    have forgotten : Forgotten (chain.floatOrDouble fds).seq := chain.floatOrDouble_seq fds ▸ chain.forgets fds.seq differs
    cases precision with
    | float => exact Bool.false_ne_true (forgotten.neither.1.symm.trans kept.isFloat)
    | double => exact Bool.false_ne_true (forgotten.neither.2.1.symm.trans kept.isDouble)
  · intro same
    apply Views.numbers
    rw [chain.floatOrDouble_seq]
    exact chain.keeps views same

end

/-- The call returns with every element transferred. -/
def Copies (conversion : Conversion) (source target : Precision) (src dst count : Nat) (before : Memory)
    (outcome : Outcome Memory) : Prop :=
  ∃ after, outcome = .done after ∧ Transferred conversion source target src dst count before after

section
variable {isConst : Bool} {conversion : Conversion} {source target : Precision} {src dst count : Nat} {memory : Memory}
  {reader : FloatOrDoubleSeq isConst} {writer : FloatOrDoubleSeq false}

theorem seqCopyBytes_copies (precision : Precision) :
    Copies conversion precision precision src dst count memory
      (seqCopyBytes memory ⟨src, count * precision.size⟩ ⟨dst, count * precision.size⟩) ↔
    ¬ (Span.mk src (count * precision.size)).Overlaps ⟨dst, count * precision.size⟩ := by
  unfold seqCopyBytes
  rw [Outcome.check_of rfl, Outcome.done_bind]
  by_cases apart : ¬ (Span.mk src (count * precision.size)).Overlaps ⟨dst, count * precision.size⟩
  · rw [Outcome.require_of apart, Outcome.done_bind]
    exact iff_of_true ⟨_, rfl, seqCopyBytes_transfers conversion precision memory apart⟩ apart
  · rw [Outcome.require_undefined apart, Outcome.undefined_bind]
    apply iff_of_false _ apart
    rintro ⟨after, returned, _⟩
    cases returned

theorem size_pos (precision : Precision) : 0 < precision.size := by cases precision <;> decide

theorem seqCopy_copies :
    Copies conversion source target src dst count memory
      (seqCopy conversion source target memory ⟨src, count * source.size⟩ ⟨dst, count * target.size⟩) ↔
    ¬ (Span.mk src (count * source.size)).Overlaps ⟨dst, count * target.size⟩ := by
  have many (precision : Precision) : count * precision.size / precision.size = count :=
    Nat.mul_div_cancel count (size_pos precision)
  simp only [seqCopy]
  rw [many source, many target, Outcome.check_of rfl, Outcome.done_bind]
  by_cases apart : ¬ (Span.mk src (count * source.size)).Overlaps ⟨dst, count * target.size⟩
  · rw [Outcome.require_of apart, Outcome.done_bind]
    obtain ⟨targets, sources⟩ := seqCopy_transfers conversion source target memory apart (Nat.le_refl count)
    exact iff_of_true ⟨_, rfl, fun i small => ⟨targets i small, sources i small⟩⟩ apart
  · rw [Outcome.require_undefined apart, Outcome.undefined_bind]
    apply iff_of_false _ apart
    rintro ⟨after, returned, _⟩
    cases returned

theorem transfer_copies (sourceViews : Views reader.seq source.type src count)
    (targetViews : Views writer.seq target.type dst count) :
    Copies conversion source target src dst count memory (FloatOrDoubleSeq.transfer conversion memory reader writer) ↔
      ¬ (Span.mk src (count * source.size)).Overlaps ⟨dst, count * target.size⟩ := by
  have one := sourceViews.numbers
  have two := targetViews.numbers
  unfold FloatOrDoubleSeq.transfer
  rw [one.size, two.size, Outcome.check_of rfl, Outcome.done_bind, one.isFloat, one.isDouble, two.isFloat, two.isDouble]
  cases source with
  | float =>
    cases target with
    | float =>
      simp only [one.floats rfl, two.floats rfl, Outcome.done_bind, decide_true, Bool.and_self, if_true]
      exact seqCopyBytes_copies .float
    | double =>
      simp only [one.floats rfl, two.doubles rfl, Outcome.done_bind, decide_true, reduceCtorEq, decide_false, Bool.and_false,
        Bool.false_and, Bool.false_eq_true, if_false, if_true]
      exact seqCopy_copies
  | double =>
    cases target with
    | float =>
      simp only [one.doubles rfl, two.floats rfl, Outcome.done_bind, decide_true, reduceCtorEq, decide_false, Bool.and_false,
        Bool.false_and, Bool.false_eq_true, if_false, if_true]
      exact seqCopy_copies
    | double =>
      simp only [one.doubles rfl, two.doubles rfl, Outcome.done_bind, decide_true, reduceCtorEq, decide_false, Bool.and_self,
        Bool.false_eq_true, if_false, if_true]
      exact seqCopyBytes_copies .double

/-- A view that forgot its sequence fails a CHECK, also one of no elements. -/
theorem transfer_forgotten (forgotten : Forgotten reader.seq) (targetViews : Views writer.seq target.type dst count) :
    FloatOrDoubleSeq.transfer conversion memory reader writer = .checkFailed := by
  have two := targetViews.numbers
  obtain ⟨notFloat, notDouble, size⟩ := forgotten.neither
  unfold FloatOrDoubleSeq.transfer
  rw [size, two.size]
  by_cases same : 0 = count
  · rw [Outcome.check_of same, Outcome.done_bind, notFloat, notDouble, two.isFloat, two.isDouble,
      forgotten.floats, forgotten.doubles]
    cases target <;> rfl
  · rw [Outcome.check_failed same, Outcome.checkFailed_bind]

/-- The copies work exactly between a source that was not converted and a destination apart from it. -/
theorem transfer_chain {first last : Bool} (chain : Chain first last) (toChain : Chain false false) :
    Copies conversion source target src dst count memory
      (FloatOrDoubleSeq.transfer conversion memory (chain.floatOrDouble (.ofSequence source src count))
        (toChain.floatOrDouble (.ofSequence target dst count))) ↔
    first = last ∧ ¬ (Span.mk src (count * source.size)).Overlaps ⟨dst, count * target.size⟩ := by
  have views : Views (toChain.floatOrDouble (.ofSequence target dst count)).seq target.type dst count := by
    rw [toChain.floatOrDouble_seq]
    exact toChain.keeps (ofSequence_views (size_pos target) dst count) rfl
  by_cases same : first = last
  · have kept : Views (chain.floatOrDouble (.ofSequence source src count)).seq source.type src count := by
      rw [chain.floatOrDouble_seq]
      exact chain.keeps (ofSequence_views (size_pos source) src count) same
    rw [transfer_copies kept views, and_iff_right same]
  · have forgotten : Forgotten (chain.floatOrDouble (.ofSequence source src count)).seq := by
      rw [chain.floatOrDouble_seq]
      exact chain.forgets _ same
    rw [transfer_forgotten forgotten views]
    apply iff_of_false _ fun both => same both.1
    rintro ⟨after, returned, _⟩
    cases returned

end

/-- Exactly the chains of copies that never add const keep a view, and exactly sources
reached by these are copied, to a destination that they do not overlap. -/
theorem views_survive (conversion : Conversion) (memory : Memory) :
    (∀ {first last : Bool} (chain : Chain first last) (type : ElementType) (address count : Nat),
      type ≠ .void → 0 < type.size →
      (Views (chain.any (.ofSequence type address count)) type address count ↔ first = last)) ∧
    (∀ {first last : Bool} (chain : Chain first last) (precision : Precision) (address count : Nat),
      ViewsNumbers (chain.floatOrDouble (.ofSequence precision address count)) precision address count ↔ first = last) ∧
    (∀ {first : Bool} (chain : Chain first true) (toChain : Chain false false) (source target : Precision)
      (src dst count : Nat),
      Copies conversion source target src dst count memory
        (FloatOrDoubleSeq.copyFrom conversion memory (toChain.floatOrDouble (.ofSequence target dst count))
          (chain.floatOrDouble (.ofSequence source src count))) ↔
      first = true ∧ ¬ (Span.mk src (count * source.size)).Overlaps ⟨dst, count * target.size⟩) ∧
    (∀ {first last : Bool} (chain : Chain first last) (toChain : Chain false false) (source target : Precision)
      (src dst count : Nat),
      Copies conversion source target src dst count memory
        (FloatOrDoubleSeq.writeTo conversion memory (chain.floatOrDouble (.ofSequence source src count))
          (toChain.floatOrDouble (.ofSequence target dst count))) ↔
      first = last ∧ ¬ (Span.mk src (count * source.size)).Overlaps ⟨dst, count * target.size⟩) := by
  refine ⟨?_, ?_, ?_, ?_⟩
  · intro first last chain type address count notVoid positive
    exact chain.views_iff (ofSequence_views positive address count) notVoid
  · intro first last chain precision address count
    exact chain.numbers_iff (ofSequence_views (size_pos precision) address count)
  · intro first chain toChain source target src dst count
    exact transfer_chain chain toChain
  · intro first last chain toChain source target src dst count
    exact transfer_chain chain toChain

/-- The conversions of IEEE 754. -/
def ieee754 : Conversion where
  toFloat := Ieee754.toFloat
  toDouble float := BitVec.ofNat 64 (Ieee754.binary64.ofValue (Ieee754.binary32.value float.toNat))

theorem views_survive_copy : Views ((Chain.start false).copy.any (.ofSequence (.other 0 2) 16 5)) (.other 0 2) 16 5 :=
  ((views_survive ieee754 fun _ => 0).1 (Chain.start false).copy (.other 0 2) 16 5 (by decide) (by decide)).mpr rfl

/-- A const view of three floats that are not const has no elements and no type, and copying
from it fails a CHECK. -/
theorem conversion_forgets :
    (FloatOrDoubleSeq.ofSequence .float 0 3).convert.size = 0 ∧
      (FloatOrDoubleSeq.ofSequence .float 0 3).convert.isFloat = false ∧
      ∀ conversion memory, FloatOrDoubleSeq.copyFrom conversion memory (.ofSequence .float 12 3)
        (FloatOrDoubleSeq.ofSequence .float 0 3).convert = .checkFailed :=
  ⟨rfl, rfl, fun _ _ => rfl⟩

end AxbyCore.Proofs.SeqViews
