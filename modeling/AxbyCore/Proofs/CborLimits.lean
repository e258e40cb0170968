import AxbyCore.Proofs.CborTraversal

/-! Advancing over a well-formed item goes on behind it when the item keeps within the
nesting level and the 32-bit counts of the parser, and fails with an error code otherwise. -/

namespace AxbyCore.Tinycbor.Proofs
open Rfc8949 Endian

/-- Advancing at this nesting level goes on behind the item. -/
def Skipped (level : Nat) (item : Bytes) : Prop :=
  ∀ it tail, Ready it → it.rest = item ++ tail →
    ∃ behind, Past it tail behind ∧ advanceRecursive level it = preparseNextValue behind

/-- The loop of a container passes over the item, in as many steps as it takes its tags. -/
def Passed (level : Nat) (item : Bytes) : Prop :=
  ∀ it tail, Ready it → it.atEnd = false → it.rest = item ++ tail →
    ∃ steps behind, steps ≤ item.length ∧ Past it tail behind ∧ ∀ fuel, untilEnd (advanceRecursive level) (fuel + steps) it =
      preparseNextValue behind >>= untilEnd (advanceRecursive level) fuel

/-- Advancing at this nesting level fails on the item. -/
def Refused (level : Nat) (item : Bytes) : Prop :=
  ∀ it tail, Ready it → it.rest = item ++ tail → ∃ code, advanceRecursive level it = failWith code

def RefusedInside (level : Nat) (item : Bytes) : Prop :=
  ∀ it tail, Ready it → it.atEnd = false → it.rest = item ++ tail →
    ∃ steps code, steps ≤ item.length ∧ ∀ fuel, untilEnd (advanceRecursive level) (fuel + steps) it = failWith code

section
variable {limit depth level : Nat} {item : Bytes}

theorem Skipped.passed (skipped : Skipped level item) (nonempty : 0 < item.length) : Passed level item := by
  intro it tail ready going rest
  obtain ⟨behind, past, advanced⟩ := skipped it tail ready rest
  refine ⟨1, behind, nonempty, past, ?_⟩
  intro fuel
  rw [untilEnd, going, advanced]
  rfl

theorem Refused.inside (refused : Refused level item) (nonempty : 0 < item.length) : RefusedInside level item := by
  intro it tail ready going rest
  obtain ⟨code, failed⟩ := refused it tail ready rest
  refine ⟨1, code, nonempty, ?_⟩
  intro fuel
  rw [untilEnd, going, failed]
  rfl

/-- Inside a container a tag is a step of its own. -/
theorem tag_step (level : Nat) {number : Nat} {bytes tail : Bytes} {it : CborValue} (ready : Ready it) (going : it.atEnd = false)
    (isHead : Head 6 number bytes) (inner : WellFormed limit depth item) (rest : it.rest = bytes ++ item ++ tail) :
    ∃ reached, Onto it (item ++ tail) reached ∧ reached.atEnd = false ∧
      ∀ fuel, untilEnd (advanceRecursive level) (fuel + 1) it = untilEnd (advanceRecursive level) fuel reached := by
  obtain ⟨-, fixed, reached, advanced, onto⟩ := advance_tag ready isHead inner rest
  have still : reached.atEnd = false := by
    rw [CborValue.atEnd, onto.remaining]
    exact going
  refine ⟨reached, onto, still, ?_⟩
  intro fuel
  have recursive : advanceRecursive level it = .ok reached := by
    unfold advanceRecursive
    rw [fixed, if_pos rfl]
    exact advanced
  rw [untilEnd, going, recursive]
  rfl

theorem Passed.tag {number : Nat} {bytes : Bytes} (passed : Passed level item) (isHead : Head 6 number bytes)
    (inner : WellFormed limit depth item) : Passed level (bytes ++ item) := by
  intro it tail ready going rest
  obtain ⟨reached, onto, still, stepped⟩ := tag_step level ready going isHead inner rest
  obtain ⟨steps, behind, few, past, walked⟩ := passed reached tail onto.ready still onto.rest
  have long := isHead.length_pos
  refine ⟨steps + 1, behind, by rw [List.length_append]; omega, past.onto onto, ?_⟩
  intro fuel
  rw [← walked fuel, ← stepped]
  rfl

theorem RefusedInside.tag {number : Nat} {bytes : Bytes} (refused : RefusedInside level item) (isHead : Head 6 number bytes)
    (inner : WellFormed limit depth item) : RefusedInside level (bytes ++ item) := by
  intro it tail ready going rest
  obtain ⟨reached, onto, still, stepped⟩ := tag_step level ready going isHead inner rest
  obtain ⟨steps, code, few, failed⟩ := refused reached tail onto.ready still onto.rest
  have long := isHead.length_pos
  refine ⟨steps + 1, code, by rw [List.length_append]; omega, ?_⟩
  intro fuel
  rw [← failed fuel, ← stepped]
  rfl

end

/-! The loop of a container. -/

section
variable {limit depth level : Nat} {broken isMap : Bool} {items : List Bytes} {item tail : Bytes} {it : CborValue}

theorem Countable.rest (countable : Countable broken (item :: items)) : Countable broken items :=
  fun counted => Nat.lt_of_succ_lt (countable counted)

theorem AheadOf.going (ahead : AheadOf broken isMap (item :: items) tail it) : it.atEnd = false := by
  rw [CborValue.atEnd, ahead.remaining]
  cases broken <;> rfl

theorem AheadOf.ended (ahead : AheadOf broken isMap [] tail it) : it.atEnd = true := by
  rw [CborValue.atEnd, ahead.remaining]
  cases broken <;> rfl

/-- The loop comes to the items behind those that it passes over. -/
theorem untilEnd_passed {good : List Bytes} (ahead : AheadOf broken isMap (good ++ items) tail it)
    (passed : ∀ item ∈ good, Passed level item) (countable : Countable broken (good ++ items))
    (each : ∀ item ∈ good ++ items, WellFormed limit depth item) :
    ∃ next steps, AheadOf broken isMap items tail next ∧ steps ≤ good.flatten.length ∧
      ∀ fuel, untilEnd (advanceRecursive level) (fuel + steps) it = untilEnd (advanceRecursive level) fuel next := by
  induction good generalizing it with
  | nil => exact ⟨it, 0, ahead, Nat.le_refl _, fun _ => rfl⟩
  | cons item good ih =>
    rw [List.cons_append] at ahead countable each
    have place : it.rest = item ++ ((good ++ items).flatten ++ (ending broken ++ tail)) := by simpa using ahead.rest
    obtain ⟨steps, behind, few, past, walked⟩ := passed item (by simp) it _ (ahead.ready (by simp)) ahead.going place
    have others : ∀ item ∈ good ++ items, WellFormed limit depth item :=
      fun other member => each other (List.mem_cons_of_mem _ member)
    obtain ⟨next, parsed, aheadNext⟩ := past.next ahead countable others
    obtain ⟨last, more, aheadLast, fewer, walkedLast⟩ :=
      ih aheadNext (fun other member => passed other (by simp [member])) (Countable.rest countable) others
    refine ⟨last, more + steps, aheadLast, by rw [List.flatten_cons, List.length_append]; omega, ?_⟩
    intro fuel
    rw [← Nat.add_assoc, walked, parsed, ← walkedLast]
    rfl

/-- When it passes over all of them it ends behind the last. -/
theorem untilEnd_all {fuel : Nat} (ahead : AheadOf broken isMap items tail it) (passed : ∀ item ∈ items, Passed level item)
    (countable : Countable broken items) (each : ∀ item ∈ items, WellFormed limit depth item)
    (enough : items.flatten.length ≤ fuel) :
    ∃ last, AheadOf broken isMap [] tail last ∧ untilEnd (advanceRecursive level) fuel it = .ok last := by
  rw [← List.append_nil items] at ahead countable each
  obtain ⟨last, steps, aheadLast, few, walked⟩ := untilEnd_passed ahead passed countable each
  obtain ⟨left, rfl⟩ := Nat.exists_eq_add_of_le' (Nat.le_trans few enough)
  refine ⟨last, aheadLast, ?_⟩
  rw [walked]
  cases left <;> simp [untilEnd, aheadLast.ended, pure, Except.pure]

/-- It fails at the first item that it does not pass over. -/
theorem untilEnd_refused {fuel : Nat} {good others : List Bytes} {bad : Bytes}
    (ahead : AheadOf broken isMap (good ++ bad :: others) tail it) (passed : ∀ item ∈ good, Passed level item)
    (refused : RefusedInside level bad) (countable : Countable broken (good ++ bad :: others))
    (each : ∀ item ∈ good ++ bad :: others, WellFormed limit depth item)
    (enough : (good ++ bad :: others).flatten.length ≤ fuel) :
    ∃ code, untilEnd (advanceRecursive level) fuel it = failWith code := by
  obtain ⟨next, steps, aheadNext, few, walked⟩ := untilEnd_passed ahead passed countable each
  have place : next.rest = bad ++ (others.flatten ++ (ending broken ++ tail)) := by simpa using aheadNext.rest
  obtain ⟨more, code, short, failed⟩ := refused next _ (aheadNext.ready (by simp)) aheadNext.going place
  rw [List.flatten_append, List.length_append, List.flatten_cons, List.length_append] at enough
  obtain ⟨left, rfl⟩ : ∃ left, fuel = left + more + steps := ⟨fuel - more - steps, by omega⟩
  refine ⟨code, ?_⟩
  rw [walked, failed]

end

/-! Skipping each kind of item. -/

section
variable {limit depth level major : Nat} {broken isMap : Bool} {items : List Bytes} {tail : Bytes} {it recursed : CborValue}

theorem skipped_fixed {item : Bytes} (atFixed : ∀ it tail, Ready it → it.rest = item ++ tail → AtFixed item.length it) :
    Skipped level item := by
  intro it tail ready rest
  have at_ := atFixed it tail ready rest
  refine ⟨advanceBytes it item.length, ⟨?_, rfl, at_.notTag, rfl, rfl⟩, ?_⟩
  · simp [advanceBytes, rest]
  · unfold advanceRecursive
    rw [at_.fixed, if_pos rfl]
    exact advanceInternal_fixed at_

theorem skipped_string {content bare : Bytes} (kind : major = 2 ∨ major = 3) (string : StringOf major content bare)
    (fits : content.length < 2 ^ 64) : Skipped level bare := by
  intro it tail ready rest
  have type := ready.stringType kind string rest
  have notFixed := notFixed_of_type type (by omega)
  have notContainer := notContainer_of_type type kind
  have enough : content.length ≤ 2 ^ 64 - 1 := by omega
  obtain ⟨behind, past, copied⟩ := copyString_of ready kind string rest enough
  refine ⟨behind, past, ?_⟩
  unfold advanceRecursive
  rw [notFixed, notContainer, copied]
  cases preparseNextValue behind <;> rfl

/-- What advancing does with a container, once its items are ahead. -/
theorem advance_container (level : Nat) (type : it.type = majorTypeOf major) (kind : major = 4 ∨ major = 5)
    (entered : cborValueEnterContainer it = .ok recursed) :
    it.isContainer = true ∧ it.isTag = false ∧ advanceRecursive (level + 1) it =
      (untilEnd (advanceRecursive level) recursed.rest.length recursed >>= cborValueLeaveContainer it) := by
  have container := isContainer_of_type type kind
  have notFixed := notFixed_of_type type (by omega)
  refine ⟨container, ?_, ?_⟩
  · exact notTag_of_type type (by omega)
  · unfold advanceRecursive
    rw [notFixed, container]
    simp only [Bool.false_eq_true, if_false, Bool.not_true, entered]
    rfl

theorem AheadOf.long_enough (ahead : AheadOf broken isMap items tail recursed) :
    items.flatten.length ≤ recursed.rest.length := by
  rw [ahead.rest, List.length_append]
  omega

theorem skipped_entered (type : it.type = majorTypeOf major) (kind : major = 4 ∨ major = 5)
    (entered : cborValueEnterContainer it = .ok recursed) (ahead : AheadOf broken isMap items tail recursed)
    (passed : ∀ item ∈ items, Passed level item) (countable : Countable broken items)
    (each : ∀ item ∈ items, WellFormed limit depth item) :
    ∃ behind, Past it tail behind ∧ advanceRecursive (level + 1) it = preparseNextValue behind := by
  obtain ⟨container, notTag, advanced⟩ := advance_container level type kind entered
  obtain ⟨last, aheadLast, ended⟩ := untilEnd_all ahead passed countable each ahead.long_enough
  obtain ⟨invalid, unknown⟩ := aheadLast.done rfl
  have rest : last.rest = ending broken ++ tail := by simpa using aheadLast.rest
  refine ⟨if broken then advanceBytes { it with rest := last.rest } 1 else { it with rest := last.rest }, ?_, ?_⟩
  · cases broken with
    | true => exact ⟨by simp [advanceBytes, rest, ending], rfl, notTag, rfl, rfl⟩
    | false => exact ⟨rest, rfl, notTag, rfl, rfl⟩
  · rw [advanced, ended]
    simp [cborValueLeaveContainer, container, CborValue.isValid, invalid, unknown, assertThat, bind, Except.bind, pure,
      Except.pure]

theorem refused_entered {good others : List Bytes} {bad : Bytes} (type : it.type = majorTypeOf major)
    (kind : major = 4 ∨ major = 5) (entered : cborValueEnterContainer it = .ok recursed)
    (ahead : AheadOf broken isMap (good ++ bad :: others) tail recursed) (passed : ∀ item ∈ good, Passed level item)
    (refused : RefusedInside level bad) (countable : Countable broken (good ++ bad :: others))
    (each : ∀ item ∈ good ++ bad :: others, WellFormed limit depth item) :
    ∃ code, advanceRecursive (level + 1) it = failWith code := by
  obtain ⟨-, -, advanced⟩ := advance_container level type kind entered
  obtain ⟨code, failed⟩ := untilEnd_refused ahead passed refused countable each ahead.long_enough
  refine ⟨code, ?_⟩
  rw [advanced, failed]
  rfl

end

theorem Skipped.both {level : Nat} {item : Bytes} (skipped : Skipped level item) (nonempty : 0 < item.length) :
    Passed level item ∧ (majorOf item ≠ some 6 → Skipped level item) :=
  ⟨skipped.passed nonempty, fun _ => skipped⟩

theorem Refused.both {level : Nat} {item : Bytes} (refused : Refused level item) (nonempty : 0 < item.length) :
    RefusedInside level item ∧ (majorOf item ≠ some 6 → Refused level item) :=
  ⟨refused.inside nonempty, fun _ => refused⟩

/-- Within the limits, an item is passed over, and skipped when no tag is in front of it. -/
theorem passed_within {level : Nat} {item : Bytes} (within : WellFormed uint32Max level item) :
    Passed level item ∧ (majorOf item ≠ some 6 → Skipped level item) := by
  induction within with
  | integer kind isHead =>
    apply Skipped.both _ isHead.length_pos
    exact skipped_fixed fun it tail ready rest => (ready.atHead isHead (by omega) rest).atFixed kind
  | simple isHead legal =>
    apply Skipped.both _ isHead.length_pos
    exact skipped_fixed fun it tail ready rest => ready.atFixed isHead legal rest
  | string kind isHead =>
    apply Skipped.both _ (by have := isHead.length_pos; rw [List.length_append]; omega)
    exact skipped_string kind (.whole isHead) (Head.argument_lt isHead)
  | chunks kind each counted =>
    apply Skipped.both _ (by simp)
    exact skipped_string kind (.chunks each rfl) counted
  | container kind isHead counted short each ih =>
    apply Skipped.both _ (WellFormed.container kind isHead counted short each).length_pos
    intro it tail ready rest
    have type := (ready.atHead isHead (by omega) (by rw [rest, List.append_assoc])).type
    obtain ⟨recursed, entered, ahead⟩ := enterContainer_counted ready kind isHead counted short each rest
    exact skipped_entered type kind entered ahead (fun item member => (ih item member).1) (fun _ => short) each
  | openContainer kind pairs each ih =>
    apply Skipped.both _ (by simp)
    intro it tail ready rest
    have type := (ready.atOpen (by omega) rest).type
    obtain ⟨recursed, entered, ahead⟩ := enterContainer_open ready kind pairs each rest
    exact skipped_entered type kind entered ahead (fun item member => (ih item member).1) (countable_broken _) each
  | tag isHead inner ih =>
    exact ⟨ih.1.tag isHead inner, fun untagged => absurd (isHead.majorOf (by decide) _) untagged⟩

/-- The first item of a list that is not within the limits. -/
theorem split_within {level : Nat} {items : List Bytes} (beyond : ¬ ∀ item ∈ items, WellFormed uint32Max level item) :
    ∃ good bad others, items = good ++ bad :: others ∧ (∀ item ∈ good, WellFormed uint32Max level item) ∧
      ¬ WellFormed uint32Max level bad := by
  induction items with
  | nil => exact absurd (fun item member => by cases member) beyond
  | cons item items ih =>
    by_cases within : WellFormed uint32Max level item
    · have others : ¬ ∀ item ∈ items, WellFormed uint32Max level item := by
        intro all
        apply beyond
        intro other member
        rcases List.mem_cons.mp member with rfl | member
        · exact within
        · exact all other member
      obtain ⟨good, bad, rest, rfl, fine, broken⟩ := ih others
      refine ⟨item :: good, bad, rest, rfl, ?_, broken⟩
      intro other member
      rcases List.mem_cons.mp member with rfl | member
      · exact within
      · exact fine other member
    · exact ⟨[], item, items, rfl, fun other member => absurd member List.not_mem_nil, within⟩

section
variable {level major count : Nat} {bytes tail : Bytes} {it : CborValue}

theorem advance_deepest (type : it.type = majorTypeOf major) (kind : major = 4 ∨ major = 5) :
    advanceRecursive 0 it = failWith .nestingTooDeep := by
  have container := isContainer_of_type type kind
  have notFixed := notFixed_of_type type (by omega)
  unfold advanceRecursive
  rw [notFixed, container]
  rfl

/-- A container that says it has more items than fit the 32-bit count is not entered. -/
theorem enterContainer_beyond (at_ : AtHead major count bytes.length it) (kind : major = 4 ∨ major = 5)
    (large : uint32Max ≤ itemCount major count) : cborValueEnterContainer it = failWith .dataTooLarge := by
  have container := at_.isContainer kind
  have map := at_.isMap kind
  have sameMap : (advanceBytes it bytes.length).isMap = it.isMap := rfl
  unfold cborValueEnterContainer
  rw [container, at_.advance, at_.known]
  simp only [assertThat, if_true, Bool.false_eq_true, if_false, sameMap, map]
  unfold uint32Max at *
  unfold itemCount at large
  by_cases most : count ≥ 2 ^ 32 - 1
  · rw [if_pos most]
    rfl
  · have five : major = 5 := by
      by_contra four
      rw [if_neg four] at large
      omega
    rw [if_pos five] at large
    rw [if_neg most, if_pos ⟨decide_eq_true five, by omega⟩]
    rfl

end

/-- Beyond the limits, advancing over it fails with an error code. -/
theorem refused_beyond {limit depth level : Nat} {item : Bytes} (wellFormed : WellFormed limit depth item)
    (beyond : ¬ WellFormed uint32Max level item) :
    RefusedInside level item ∧ (majorOf item ≠ some 6 → Refused level item) := by
  induction wellFormed generalizing level with
  | integer kind isHead => exact absurd (.integer kind isHead) beyond
  | simple isHead legal => exact absurd (.simple isHead legal) beyond
  | string kind isHead => exact absurd (.string kind isHead) beyond
  | chunks kind each counted => exact absurd (.chunks kind each counted) beyond
  | @container depth major count bytes items kind isHead counted short each ih =>
    apply Refused.both _ (WellFormed.container kind isHead counted short each).length_pos
    intro it tail ready rest
    have at_ := ready.atHead isHead (by omega) (by rw [rest, List.append_assoc])
    cases level with
    | zero => exact ⟨_, advance_deepest at_.type kind⟩
    | succ level =>
      by_cases few : items.length < uint32Max
      · obtain ⟨good, bad, others, rfl, fine, broken⟩ := split_within fun all => beyond (.container kind isHead counted few all)
        obtain ⟨recursed, entered, ahead⟩ := enterContainer_counted ready kind isHead counted few each rest
        exact refused_entered at_.type kind entered ahead (fun item member => (passed_within (fine item member)).1)
          (ih bad (by simp) broken).1 (fun _ => few) each
      · have failed := enterContainer_beyond at_ kind (by omega)
        have container := at_.isContainer kind
        have notFixed := notFixed_of_type at_.type (by omega)
        refine ⟨.dataTooLarge, ?_⟩
        unfold advanceRecursive
        rw [notFixed, container, failed]
        rfl
  | @openContainer depth major items kind pairs each ih =>
    apply Refused.both _ (by simp)
    intro it tail ready rest
    have at_ := ready.atOpen (by omega) rest
    cases level with
    | zero => exact ⟨_, advance_deepest at_.type kind⟩
    | succ level =>
      obtain ⟨good, bad, others, rfl, fine, broken⟩ := split_within fun all => beyond (.openContainer kind pairs all)
      obtain ⟨recursed, entered, ahead⟩ := enterContainer_open ready kind pairs each rest
      exact refused_entered at_.type kind entered ahead (fun item member => (passed_within (fine item member)).1)
        (ih bad (by simp) broken).1 (countable_broken _) each
  | tag isHead inner ih =>
    have inside := ih fun within => beyond (.tag isHead within)
    exact ⟨inside.1.tag isHead inner, fun untagged => absurd (isHead.majorOf (by decide) _) untagged⟩

end AxbyCore.Tinycbor.Proofs
