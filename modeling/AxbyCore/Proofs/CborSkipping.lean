import AxbyCore.Proofs.CborReading

/-! Advancing over an item goes on behind it, whatever the item contains. -/

namespace AxbyCore.Tinycbor.Proofs
open Rfc8949 Endian

/-- The value has been parsed where it stands. -/
def Ready (it : CborValue) : Prop := ∃ before, SamePlace before it ∧ preparseValue before = .ok it

/-- The value where the item in front of it has been read, and the next one not yet. -/
structure Behind (it : CborValue) (tail : Bytes) (behind : CborValue) : Prop where
  rest : behind.rest = tail
  remaining : behind.remaining = it.remaining
  notTag : behind.isTag = false

section
variable {major argument depth : Nat} {item bytes tail : Bytes} {it : CborValue}

theorem ready_of_preparse {before : CborValue} (same : SamePlace before it) (parsed : preparseValue before = .ok it) :
    Ready it := ⟨before, same, parsed⟩

/-- A parsed value at a head has its type and argument. -/
theorem Ready.atHead (ready : Ready it) (isHead : Head major argument bytes) (known : major < 7)
    (rest : it.rest = bytes ++ tail) : AtHead major argument bytes.length it := by
  obtain ⟨before, same, parsed⟩ := ready
  rw [same.rest] at rest
  obtain ⟨value, again, -, at_⟩ := preparse_head isHead known rest
  obtain rfl := Except.ok.inj (parsed.symm.trans again)
  exact at_

theorem Ready.atFixed (ready : Ready it) (isHead : Head 7 argument bytes) (legal : bytes.length = 2 → 32 ≤ argument)
    (rest : it.rest = bytes ++ tail) : AtFixed bytes.length it := by
  obtain ⟨before, same, parsed⟩ := ready
  rw [same.rest] at rest
  obtain ⟨value, again, -, at_⟩ := preparse_simple isHead legal rest
  obtain rfl := Except.ok.inj (parsed.symm.trans again)
  exact at_

/-- Every item can be parsed where it starts. -/
theorem preparse_item (isItem : Item depth item) (rest : it.rest = item ++ tail) :
    ∃ ready, preparseValue it = .ok ready ∧ SamePlace it ready := by
  cases isItem with
  | integer kind isHead =>
    obtain ⟨ready, parsed, same, -⟩ := preparse_head isHead (by omega) rest
    exact ⟨ready, parsed, same⟩
  | simple isHead legal =>
    obtain ⟨ready, parsed, same, -⟩ := preparse_simple isHead legal rest
    exact ⟨ready, parsed, same⟩
  | string kind isHead =>
    rw [List.append_assoc] at rest
    obtain ⟨ready, parsed, same, -⟩ := preparse_head isHead (by omega) rest
    exact ⟨ready, parsed, same⟩
  | array isHead short each =>
    rw [List.append_assoc] at rest
    obtain ⟨ready, parsed, same, -⟩ := preparse_head isHead (by omega) rest
    exact ⟨ready, parsed, same⟩
  | map isHead pairs short each =>
    rw [List.append_assoc] at rest
    obtain ⟨ready, parsed, same, -⟩ := preparse_head isHead (by omega) rest
    exact ⟨ready, parsed, same⟩

end

/-- Behind an item that counts, one is left less. -/
theorem preparseNextValue_counted {behind : CborValue} {left : Nat} (notTag : behind.isTag = false)
    (remaining : behind.remaining = left + 1) (short : left < uint32Max - 1) :
    preparseNextValue behind =
      if left = 0 then
        .ok { behind with remaining := left, type := .invalid, flags := { behind.flags with unknownLength := false } }
      else preparseNextValueNodecrement
        { behind with remaining := left, flags := { behind.flags with nextIsMapKey := !behind.flags.nextIsMapKey } } := by
  have definite : (behind.remaining != uint32Max) = true := by
    have : behind.remaining ≠ uint32Max := by omega
    simpa using this
  have less : (behind.remaining + uint32Max) % 2 ^ 32 = left := by
    unfold uint32Max at short ⊢
    omega
  unfold preparseNextValue
  rw [notTag, definite]
  simp only [Bool.not_false, Bool.and_self, if_true, less, Bool.true_and, beq_iff_eq]
  rfl

/-- So many items are ahead, and the first of them, if there is one, has been parsed. -/
structure Ahead (items : List Bytes) (tail : Bytes) (it : CborValue) : Prop where
  rest : it.rest = items.flatten ++ tail
  remaining : it.remaining = items.length
  ready : items ≠ [] → Ready it
  done : items = [] → it.type = .invalid ∧ it.flags.unknownLength = false

/-- Behind an item the next one is parsed, if there is one. -/
theorem Behind.next {depth : Nat} {it behind : CborValue} {item tail : Bytes} {items : List Bytes}
    (ahead : Ahead (item :: items) tail it) (past : Behind it (items.flatten ++ tail) behind)
    (short : items.length < uint32Max - 1) (each : ∀ item ∈ items, Item depth item) :
    ∃ next, preparseNextValue behind = .ok next ∧ Ahead items tail next := by
  have remaining : behind.remaining = items.length + 1 := by rw [past.remaining, ahead.remaining]; rfl
  rw [preparseNextValue_counted past.notTag remaining short]
  cases items with
  | nil => exact ⟨_, rfl, past.rest, rfl, fun some => absurd rfl some, fun _ => ⟨rfl, rfl⟩⟩
  | cons following items =>
    rw [if_neg (by simp)]
    generalize start : ({ behind with
      remaining := (following :: items).length
      flags := { behind.flags with nextIsMapKey := !behind.flags.nextIsMapKey } } : CborValue) = from_
    have place : from_.rest = following ++ (items.flatten ++ tail) := by
      rw [← start]
      simpa using past.rest
    have count : from_.remaining = (following :: items).length := by rw [← start]
    have known : ¬ (from_.remaining = uint32Max ∧ from_.rest.head? = some 0xff) := by
      rw [count]
      omega
    obtain ⟨next, parsed, same⟩ := preparse_item (each following (by simp)) place
    rw [preparseNextValueNodecrement, if_neg known]
    refine ⟨next, parsed, ?_, ?_, fun _ => ready_of_preparse same parsed, fun none => by cases none⟩
    · rw [same.rest, place]
      simp
    · rw [same.remaining, count]

/-- The items of a container whose head has that major type and count. -/
structure Contents (major count depth : Nat) (items : List Bytes) : Prop where
  kind : major = 4 ∨ major = 5
  length : items.length = if major = 5 then count * 2 else count
  short : items.length < uint32Max
  each : ∀ item ∈ items, Item depth item

section
variable {major count depth : Nat} {bytes tail : Bytes} {items : List Bytes} {it : CborValue}

theorem AtHead.isContainer (at_ : AtHead major count bytes.length it) (kind : major = 4 ∨ major = 5) :
    it.isContainer = true := isContainer_of_type at_.type kind

theorem AtHead.isMap (at_ : AtHead major count bytes.length it) (kind : major = 4 ∨ major = 5) :
    it.isMap = decide (major = 5) := isMap_of_type at_.type kind

/-- Entering a container that says how many items it has goes on behind its head. -/
theorem AtHead.enters (at_ : AtHead major count bytes.length it) (kind : major = 4 ∨ major = 5) {length : Nat}
    (counted : length = if major = 5 then count * 2 else count) (short : length < uint32Max) :
    cborValueEnterContainer it =
      if count = 0 then .ok { advanceBytes it bytes.length with remaining := length, type := .invalid }
      else preparseNextValueNodecrement
        { advanceBytes it bytes.length with remaining := length, flags := { containerIsMap := it.isMap } } := by
  have container := at_.isContainer kind
  have map := at_.isMap kind
  unfold uint32Max at short
  have tooMany : ¬ count ≥ uint32Max := by
    unfold uint32Max
    split at counted <;> omega
  have mapTooLarge : ¬ (it.isMap = true ∧ count > uint32Max / 2) := by
    rw [map, decide_eq_true_iff]
    rintro ⟨five, large⟩
    rw [if_pos five] at counted
    unfold uint32Max at large
    omega
  have number : (if it.isMap = true then count * 2 else count) = length := by
    rw [map, counted]
    simp
  unfold cborValueEnterContainer
  rw [container, at_.advance, at_.known]
  have sameMap : (advanceBytes it bytes.length).isMap = it.isMap := rfl
  simp only [assertThat, if_true, Bool.false_eq_true, if_false, sameMap, if_neg tooMany, if_neg mapTooLarge, number]
  rfl

/-- Entering a container puts its items ahead. -/
theorem enterContainer_ahead (at_ : AtHead major count bytes.length it) (contents : Contents major count depth items)
    (rest : it.rest = bytes ++ items.flatten ++ tail) :
    ∃ recursed, cborValueEnterContainer it = .ok recursed ∧ Ahead items tail recursed := by
  have length := contents.length
  have short := contents.short
  have behind : (advanceBytes it bytes.length).rest = items.flatten ++ tail := by
    simp [advanceBytes, rest]
  rw [at_.enters contents.kind length short]
  cases items with
  | nil =>
    have none : count = 0 := by
      split at length <;> simp only [List.length_nil] at length <;> omega
    rw [if_pos none]
    exact ⟨_, rfl, behind, rfl, fun some => absurd rfl some, fun _ => ⟨rfl, at_.known⟩⟩
  | cons first items =>
    have some : ¬ count = 0 := by
      rintro rfl
      split at length <;> simp only [List.length_cons] at length <;> omega
    rw [if_neg some]
    generalize start : ({ advanceBytes it bytes.length with
      remaining := (first :: items).length
      flags := { containerIsMap := it.isMap } } : CborValue) = from_
    have place : from_.rest = first ++ (items.flatten ++ tail) := by
      rw [← start]
      simpa using behind
    have left : from_.remaining = (first :: items).length := by rw [← start]
    have known : ¬ (from_.remaining = uint32Max ∧ from_.rest.head? = .some 0xff) := by
      rw [left]
      omega
    obtain ⟨next, parsed, same⟩ := preparse_item (contents.each first (by simp)) place
    refine ⟨next, ?_, ?_, ?_, fun _ => ready_of_preparse same parsed, fun none => by cases none⟩
    · rw [preparseNextValueNodecrement, if_neg known, parsed]
    · rw [same.rest, place]
      simp
    · rw [same.remaining, left]

/-- A container with 2^32 - 1 or more items is not entered. -/
theorem enterContainer_tooLarge (at_ : AtHead major count bytes.length it) (kind : major = 4 ∨ major = 5)
    (large : uint32Max ≤ count) : cborValueEnterContainer it = failWith .dataTooLarge := by
  have container := at_.isContainer kind
  unfold cborValueEnterContainer
  rw [container, at_.advance, at_.known]
  simp only [assertThat, if_true, Bool.false_eq_true, if_false, ge_iff_le, if_pos large]
  rfl

end

/-- Advancing at this nesting level goes on behind the item. -/
def Skips (level : Nat) (item : Bytes) : Prop :=
  ∀ it tail, Ready it → it.rest = item ++ tail →
    ∃ behind, Behind it tail behind ∧ advanceRecursive level it = preparseNextValue behind

/-- The loop over the items of a container ends behind the last of them. -/
theorem untilEnd_ahead {level depth : Nat} {items : List Bytes} {tail : Bytes} {it : CborValue} {fuel : Nat}
    (ahead : Ahead items tail it) (skips : ∀ item ∈ items, Skips level item) (each : ∀ item ∈ items, Item depth item)
    (short : items.length < uint32Max) (enough : items.length ≤ fuel) :
    ∃ last, untilEnd (advanceRecursive level) fuel it = .ok last ∧ Ahead [] tail last := by
  induction items generalizing it fuel with
  | nil =>
    have ended : it.atEnd = true := by simp [CborValue.atEnd, ahead.remaining]
    refine ⟨it, ?_, ahead⟩
    cases fuel <;> simp [untilEnd, ended, pure, Except.pure]
  | cons item items ih =>
    cases fuel with
    | zero => simp at enough
    | succ fuel =>
      have going : it.atEnd = false := by simp [CborValue.atEnd, ahead.remaining]
      have place : it.rest = item ++ (items.flatten ++ tail) := by simpa using ahead.rest
      obtain ⟨behind, past, advanced⟩ := skips item (by simp) it _ (ahead.ready (by simp)) place
      rw [List.length_cons] at short enough
      have fewer : ∀ item ∈ items, Item depth item := fun item member => each item (by simp [member])
      obtain ⟨next, parsed, aheadNext⟩ := past.next ahead (by omega) fewer
      obtain ⟨last, ended, done⟩ := ih aheadNext (fun item member => skips item (by simp [member])) fewer
        (by omega) (Nat.le_of_succ_le_succ enough)
      refine ⟨last, ?_, done⟩
      rw [untilEnd, going, advanced, parsed]
      exact ended

theorem length_le_flatten {items : List Bytes} (each : ∀ item ∈ items, 0 < item.length) :
    items.length ≤ items.flatten.length := by
  induction items with
  | nil => exact Nat.le_refl _
  | cons item items ih =>
    have first := each item (by simp)
    have others := ih fun item member => each item (by simp [member])
    simp only [List.flatten_cons, List.length_cons, List.length_append]
    omega

theorem Ready.atString {major : Nat} {bytes content tail : Bytes} {it : CborValue} (ready : Ready it)
    (kind : major = 2 ∨ major = 3) (isHead : Head major content.length bytes) (rest : it.rest = bytes ++ content ++ tail) :
    AtString major content tail it := by
  have at_ := ready.atHead isHead (by omega) (by rw [rest, List.append_assoc])
  exact ⟨kind, at_.type, at_.known, bytes, isHead, rest⟩

theorem pastString_behind {major : Nat} {content tail : Bytes} {it : CborValue} (string : AtString major content tail it) :
    Behind it tail (pastString it tail) := by
  refine ⟨rfl, rfl, ?_⟩
  rcases string.kind with rfl | rfl
  · simp [pastString, CborValue.isTag, string.type, majorTypeOf]
  · simp [pastString, CborValue.isTag, string.type, majorTypeOf]

theorem skips_container {level major count depth : Nat} {bytes : Bytes} {items : List Bytes}
    (isHead : Head major count bytes) (contents : Contents major count depth items)
    (skips : ∀ item ∈ items, Skips level item) : Skips (level + 1) (bytes ++ items.flatten) := by
  intro it tail ready rest
  have known : major < 7 := by rcases contents.kind with rfl | rfl <;> decide
  have at_ := ready.atHead isHead known (by rw [rest, List.append_assoc])
  have container := at_.isContainer contents.kind
  have kind : 2 ≤ major ∧ major ≤ 5 := by
    rcases contents.kind with rfl | rfl <;> decide
  have notFixed := notFixed_of_type at_.type kind
  have notTag := notTag_of_type at_.type kind
  obtain ⟨recursed, entered, ahead⟩ := enterContainer_ahead at_ contents rest
  have enough : items.length ≤ recursed.rest.length := by
    have := length_le_flatten fun item member => (contents.each item member).length_pos
    rw [ahead.rest, List.length_append]
    omega
  obtain ⟨last, ended, done⟩ := untilEnd_ahead ahead skips contents.each contents.short enough
  have invalid := (done.done rfl).1
  have definite := (done.done rfl).2
  refine ⟨{ it with rest := last.rest }, ⟨by simpa using done.rest, rfl, notTag⟩, ?_⟩
  unfold advanceRecursive
  rw [notFixed, container]
  simp only [Bool.false_eq_true, if_false, Bool.not_true, entered, bind, Except.bind, ended]
  simp [cborValueLeaveContainer, container, CborValue.isValid, invalid, definite, assertThat, bind, Except.bind, pure,
    Except.pure]

theorem AtHead.atFixed {major argument size : Nat} {it : CborValue} (at_ : AtHead major argument size it)
    (kind : major ≤ 1) : AtFixed size it := by
  have type : it.type = .integer := by
    rw [at_.type]
    obtain rfl | rfl : major = 0 ∨ major = 1 := by omega
    · rfl
    · rfl
  exact ⟨by rw [type]; rfl, by simp [CborValue.isTag, type], by simp [CborValue.isValid, type], by rw [at_.advance]⟩

theorem advanceInternal_fixed {size : Nat} {it : CborValue} (at_ : AtFixed size it) :
    advanceInternal it = preparseNextValue (advanceBytes it size) := by
  have notString : ((advanceBytes it size).isByteString || (advanceBytes it size).isTextString) = false := by
    have fixed := at_.fixed
    simp only [isFixedType, Bool.and_eq_true, bne_iff_ne] at fixed
    simp [CborValue.isByteString, CborValue.isTextString, advanceBytes, fixed]
  unfold advanceInternal
  rw [show extractNumberAndAdvance it = (it.extractInt64Helper, advanceBytes it size) from Prod.ext rfl at_.advance]
  simp [notString]

theorem skips_fixed {level size : Nat} {item tail : Bytes} {it : CborValue} (at_ : AtFixed size it)
    (length : item.length = size) (rest : it.rest = item ++ tail) :
    ∃ behind, Behind it tail behind ∧ advanceRecursive level it = preparseNextValue behind := by
  refine ⟨advanceBytes it size, ⟨?_, rfl, at_.notTag⟩, ?_⟩
  · simp [advanceBytes, rest, ← length]
  · unfold advanceRecursive
    rw [at_.fixed, if_pos rfl]
    exact advanceInternal_fixed at_

theorem skips_string {level major : Nat} {bytes content : Bytes} (kind : major = 2 ∨ major = 3)
    (isHead : Head major content.length bytes) (fits : content.length < 2 ^ 64) : Skips level (bytes ++ content) := by
  intro it tail ready rest
  have string := ready.atString kind isHead rest
  have notFixed := notFixed_of_type string.type (by omega)
  have notContainer := notContainer_of_type string.type kind
  refine ⟨pastString it tail, pastString_behind string, ?_⟩
  unfold advanceRecursive
  rw [notFixed, notContainer, copyString_string string (by omega)]
  cases preparseNextValue (pastString it tail) <;> rfl

theorem Head.argument_lt {major argument : Nat} {bytes : Bytes} (isHead : Head major argument bytes) : argument < 2 ^ 64 := by
  cases isHead with
  | short small => omega
  | wide more known fits =>
    have largest : 256 ^ 2 ^ more ≤ 256 ^ 2 ^ 3 := Nat.pow_le_pow_right (by decide) (Nat.pow_le_pow_right (by decide) (by omega))
    omega

/-- Advancing skips exactly one item. -/
theorem skips_item {depth level : Nat} {item : Bytes} (isItem : Item depth item) (deep : depth ≤ level) :
    Skips level item := by
  induction isItem generalizing level with
  | integer kind isHead =>
    intro it tail ready rest
    exact skips_fixed ((ready.atHead isHead (by omega) rest).atFixed kind) rfl rest
  | simple isHead legal =>
    intro it tail ready rest
    exact skips_fixed (ready.atFixed isHead legal rest) rfl rest
  | string kind isHead => exact skips_string kind isHead (Head.argument_lt isHead)
  | array isHead short each ih =>
    obtain ⟨level, rfl⟩ := Nat.exists_eq_add_of_le' (Nat.le_trans (Nat.le_add_left 1 _) deep)
    have contents : Contents 4 _ _ _ := ⟨Or.inl rfl, rfl, short, each⟩
    exact skips_container isHead contents fun item member => ih item member (by omega)
  | map isHead pairs short each ih =>
    obtain ⟨level, rfl⟩ := Nat.exists_eq_add_of_le' (Nat.le_trans (Nat.le_add_left 1 _) deep)
    have contents : Contents 5 _ _ _ := ⟨Or.inr rfl, by rw [pairs, Nat.mul_comm]; rfl, by unfold uint32Max; omega, each⟩
    exact skips_container isHead contents fun item member => ih item member (by omega)

end AxbyCore.Tinycbor.Proofs
