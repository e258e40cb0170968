import AxbyCore.Proofs.CborLimits

/-! Finding a name in a map of any entries: those in front of it are stepped over, whatever
their keys and values are, and tags in front of a key are ignored. -/

namespace AxbyCore.Tinycbor.Proofs
open Rfc8949 Endian

/-- The items of the key and of the value of an entry. -/
structure Pair where
  key : Bytes
  value : Bytes

def pairItems (pairs : List Pair) : List Bytes := pairs.flatMap fun pair => [pair.key, pair.value]

@[simp] theorem pairItems_cons (pair : Pair) (pairs : List Pair) :
    pairItems (pair :: pairs) = pair.key :: pair.value :: pairItems pairs := rfl

theorem pairItems_append (first second : List Pair) : pairItems (first ++ second) = pairItems first ++ pairItems second := by
  simp [pairItems]

theorem pairItems_length (pairs : List Pair) : (pairItems pairs).length = pairs.length * 2 := by
  induction pairs with
  | nil => rfl
  | cons pair pairs ih =>
    simp only [pairItems_cons, List.length_cons, ih]
    omega

theorem pairItems_members {property : Bytes → Prop} {pairs : List Pair}
    (each : ∀ pair ∈ pairs, property pair.key ∧ property pair.value) : ∀ item ∈ pairItems pairs, property item := by
  intro item member
  obtain ⟨pair, held, which⟩ := List.mem_flatMap.mp member
  rcases List.mem_cons.mp which with rfl | which
  · exact (each pair held).1
  · obtain rfl := List.mem_singleton.mp which
    exact (each pair held).2

/-- The key is a text string with that content, whatever tags are in front of it. -/
def Named (key name : Bytes) : Prop := ∃ bare, Tagged bare key ∧ StringOf 3 name bare

/-- The parser can step over the item. -/
def Within (item : Bytes) : Prop := WellFormed uint32Max cborParserMaxRecursions item

/-- An entry that is stepped over. -/
def SteppedOver (name : Bytes) (pair : Pair) : Prop := ¬ Named pair.key name ∧ Within pair.key ∧ Within pair.value

section
variable {limit depth : Nat} {broken isMap : Bool} {items : List Bytes} {item tail : Bytes} {it : CborValue}

theorem AheadOf.some (ahead : AheadOf broken isMap (item :: items) tail it) : it.remaining ≠ 0 := by
  have going := ahead.going
  simpa [CborValue.atEnd] using going

/-- Skipping the tags of the first item puts it without them ahead. -/
theorem skipTag_ahead (ahead : AheadOf broken isMap (item :: items) tail it) (wellFormed : WellFormed limit depth item) :
    ∃ bare reached, Tagged bare item ∧ WellFormed limit depth bare ∧ majorOf bare ≠ .some 6 ∧
      cborValueSkipTag it = .ok reached ∧ AheadOf broken isMap (bare :: items) tail reached := by
  obtain ⟨bare, tagged, whole, untagged⟩ := wellFormed.untagged
  have place : it.rest = item ++ (items.flatten ++ (ending broken ++ tail)) := by simpa using ahead.rest
  obtain ⟨reached, skipped, onto⟩ := skipTag_tagged tagged whole untagged (ahead.ready (by simp)) ahead.some place
  exact ⟨bare, reached, tagged, whole, untagged, skipped, ahead.onto onto⟩

theorem advance_eq (ahead : AheadOf broken isMap (item :: items) tail it) (wellFormed : WellFormed limit depth item) :
    cborValueAdvance it = advanceRecursive cborParserMaxRecursions it := by
  have place : it.rest = item ++ (items.flatten ++ (ending broken ++ tail)) := by simpa using ahead.rest
  have valid := (ahead.ready (by simp)).valid wellFormed place
  simp [cborValueAdvance, valid, assertThat, ahead.some, bind, Except.bind, pure, Except.pure]

/-- Advancing over the first item puts the others ahead. -/
theorem advance_within (ahead : AheadOf broken isMap (item :: items) tail it) (within : Within item)
    (untagged : majorOf item ≠ .some 6) (countable : Countable broken (item :: items))
    (each : ∀ other ∈ items, WellFormed limit depth other) :
    ∃ next, cborValueAdvance it = .ok next ∧ AheadOf broken isMap items tail next := by
  have place : it.rest = item ++ (items.flatten ++ (ending broken ++ tail)) := by simpa using ahead.rest
  obtain ⟨behind, past, advanced⟩ := (passed_within within).2 untagged it _ (ahead.ready (by simp)) place
  obtain ⟨next, parsed, aheadNext⟩ := past.next ahead countable each
  exact ⟨next, by rw [advance_eq ahead within, advanced, parsed], aheadNext⟩

theorem advance_beyond (ahead : AheadOf broken isMap (item :: items) tail it) (wellFormed : WellFormed limit depth item)
    (beyond : ¬ Within item) (untagged : majorOf item ≠ .some 6) : ∃ code, cborValueAdvance it = failWith code := by
  have place : it.rest = item ++ (items.flatten ++ (ending broken ++ tail)) := by simpa using ahead.rest
  obtain ⟨code, failed⟩ := (refused_beyond wellFormed beyond).2 untagged it _ (ahead.ready (by simp)) place
  exact ⟨code, by rw [advance_eq ahead wellFormed, failed]⟩

/-- Stepping over a value and its tags. -/
theorem value_within (ahead : AheadOf broken isMap (item :: items) tail it) (within : Within item)
    (countable : Countable broken (item :: items)) (each : ∀ other ∈ items, WellFormed limit depth other) :
    ∃ next, (cborValueSkipTag it >>= cborValueAdvance) = .ok next ∧ AheadOf broken isMap items tail next := by
  obtain ⟨bare, reached, tagged, whole, untagged, skipped, aheadBare⟩ := skipTag_ahead ahead within
  obtain ⟨next, advanced, aheadNext⟩ := advance_within aheadBare whole untagged countable each
  refine ⟨next, ?_, aheadNext⟩
  rw [skipped]
  exact advanced

theorem value_beyond (ahead : AheadOf broken isMap (item :: items) tail it) (wellFormed : WellFormed limit depth item)
    (beyond : ¬ Within item) : ∃ code, (cborValueSkipTag it >>= cborValueAdvance) = failWith code := by
  obtain ⟨bare, reached, tagged, whole, untagged, skipped, aheadBare⟩ := skipTag_ahead ahead wellFormed
  obtain ⟨code, failed⟩ := advance_beyond aheadBare whole (fun within => beyond (tagged.wellFormed within)) untagged
  refine ⟨code, ?_⟩
  rw [skipped]
  exact failed

/-- A well-formed item that starts like a text string is one. -/
theorem WellFormed.text (wellFormed : WellFormed limit depth item) (isText : majorOf item = .some 3) :
    ∃ content, StringOf 3 content item ∧ content.length < 2 ^ 64 := by
  cases wellFormed with
  | @integer _ major _ _ kind isHead =>
    have first := isHead.majorOf (by omega) []
    rw [List.append_nil, isText] at first
    cases first
    omega
  | simple isHead legal =>
    have first := isHead.majorOf (by decide) []
    rw [List.append_nil, isText] at first
    cases first
  | @string _ major bytes content kind isHead =>
    rw [isHead.majorOf (by omega)] at isText
    obtain rfl := Option.some.inj isText
    exact ⟨content, .whole isHead, Head.argument_lt isHead⟩
  | @chunks _ major chunks kind each counted =>
    rw [openByte_majorOf (by omega)] at isText
    obtain rfl := Option.some.inj isText
    exact ⟨contentOf chunks, .chunks each rfl, counted⟩
  | container kind isHead counted short each =>
    rw [isHead.majorOf (by omega)] at isText
    cases isText
    omega
  | openContainer kind pairs each =>
    rw [openByte_majorOf (by omega)] at isText
    cases isText
    omega
  | tag isHead inner =>
    rw [isHead.majorOf (by decide)] at isText
    cases isText

end

/-! The loop over the entries. -/

section
variable {limit depth : Nat} {broken : Bool} {key value name tail : Bytes} {items : List Bytes} {it : CborValue}

/-- Comparing a key with a name puts the value ahead. -/
theorem compare_key {bare content : Bytes} (ahead : AheadOf broken true (key :: value :: items) tail it)
    (tagged : Tagged bare key) (string : StringOf 3 content bare) (short : content.length < 2 ^ 64)
    (countable : Countable broken (key :: value :: items)) (each : ∀ other ∈ value :: items, WellFormed limit depth other)
    (nonzero : 0 ∉ name) :
    ∃ reached next, cborValueSkipTag it = .ok reached ∧ reached.isTextString = true ∧
      iterateStringChunks reached name.length (iterateMemcmp name) = .ok (decide (content = name), content, next) ∧
        AheadOf broken true (value :: items) tail next := by
  have whole : WellFormed limit depth bare := string.wellFormed (.inr rfl) short
  have untagged : majorOf bare ≠ some 6 := by
    rw [string.majorOf (by decide)]
    exact fun same => by cases same
  have place : it.rest = key ++ ((value :: items).flatten ++ (ending broken ++ tail)) := by simpa using ahead.rest
  obtain ⟨reached, skipped, onto⟩ := skipTag_tagged tagged whole untagged (ahead.ready (by simp)) ahead.some place
  obtain ⟨behind, past, compared⟩ := iterate_name onto.ready (.inr rfl) string onto.rest nonzero
  obtain ⟨next, parsed, aheadNext⟩ := past.next (ahead.onto onto) countable each
  have type := onto.ready.stringType (.inr rfl) string onto.rest
  refine ⟨reached, next, skipped, ?_, ?_, aheadNext⟩
  · rw [CborValue.isTextString, type]
    rfl
  · rw [compared, parsed]
    rfl

/-- A value that has been parsed is parsed once more, and is the same. -/
theorem preparse_ahead {isMap : Bool} (ahead : AheadOf broken isMap (value :: items) tail it)
    (wellFormed : WellFormed limit depth value) :
    ∃ found, preparseValue it = .ok found ∧ AheadOf broken isMap (value :: items) tail found := by
  have place : it.rest = value ++ (items.flatten ++ (ending broken ++ tail)) := by simpa using ahead.rest
  obtain ⟨found, parsed, same⟩ := preparse_wellFormed wellFormed place
  have onto : Onto it (value ++ (items.flatten ++ (ending broken ++ tail))) found :=
    ⟨same.ready parsed, same.rest.trans place, same.remaining, same.containerIsMap, same.nextIsMapKey⟩
  exact ⟨found, parsed, ahead.onto onto⟩

/-- The loop ends at an entry with the name. -/
theorem find_named (ahead : AheadOf broken true (key :: value :: items) tail it) (named : Named key name)
    (countable : Countable broken (key :: value :: items)) (each : ∀ other ∈ value :: items, WellFormed limit depth other)
    (nonzero : 0 ∉ name) (short : name.length < 2 ^ 64) (fuel : Nat) :
    ∃ found, mapFindLoop name (fuel + 1) it = .ok found ∧ AheadOf broken true (value :: items) tail found := by
  obtain ⟨bare, tagged, string⟩ := named
  obtain ⟨reached, next, skipped, isText, compared, aheadNext⟩ :=
    compare_key ahead tagged string short countable each nonzero
  obtain ⟨found, parsed, aheadFound⟩ := preparse_ahead aheadNext (each value (by simp))
  refine ⟨found, ?_, aheadFound⟩
  rw [decide_eq_true rfl] at compared
  simp only [mapFindLoop, ahead.going, Bool.false_eq_true, if_false, skipped, bind, Except.bind, isText, if_true, compared]
  exact parsed

/-- Behind a key that has another name, the loop goes on with the value. -/
theorem pass_key (ahead : AheadOf broken true (key :: value :: items) tail it) (unnamed : ¬ Named key name)
    (within : Within key) (countable : Countable broken (key :: value :: items))
    (each : ∀ other ∈ value :: items, WellFormed limit depth other) (nonzero : 0 ∉ name) :
    ∃ next, AheadOf broken true (value :: items) tail next ∧ ∀ fuel, mapFindLoop name (fuel + 1) it =
      (cborValueSkipTag next >>= cborValueAdvance >>= mapFindLoop name fuel) := by
  have place : it.rest = key ++ ((value :: items).flatten ++ (ending broken ++ tail)) := by simpa using ahead.rest
  obtain ⟨bare, reached, tagged, whole, untagged, skipped, aheadBare⟩ := skipTag_ahead ahead within
  by_cases isText : majorOf bare = some 3
  · obtain ⟨content, string, short⟩ := WellFormed.text whole isText
    have differs : content ≠ name := by
      rintro rfl
      exact unnamed ⟨bare, tagged, string⟩
    obtain ⟨again, next, skippedAgain, text, compared, aheadNext⟩ :=
      compare_key ahead tagged string short countable each nonzero
    rw [decide_eq_false differs] at compared
    refine ⟨next, aheadNext, ?_⟩
    intro fuel
    simp only [mapFindLoop, ahead.going, Bool.false_eq_true, if_false, skippedAgain, bind, Except.bind, text, if_true, compared]
  · have placeBare : reached.rest = bare ++ ((value :: items).flatten ++ (ending broken ++ tail)) := by
      simpa using aheadBare.rest
    have notText := (aheadBare.ready (by simp)).notText whole placeBare isText
    obtain ⟨next, advanced, aheadNext⟩ := advance_within aheadBare whole untagged countable each
    refine ⟨next, aheadNext, ?_⟩
    intro fuel
    simp only [mapFindLoop, ahead.going, Bool.false_eq_true, if_false, skipped, bind, Except.bind, notText, advanced]

/-- The loop fails at a key that the parser cannot step over. -/
theorem refuse_key (ahead : AheadOf broken true (key :: value :: items) tail it) (wellFormed : WellFormed limit depth key)
    (beyond : ¬ Within key) : ∃ code, ∀ fuel, mapFindLoop name (fuel + 1) it = failWith code := by
  obtain ⟨bare, reached, tagged, whole, untagged, skipped, aheadBare⟩ := skipTag_ahead ahead wellFormed
  have beyondBare : ¬ Within bare := fun within => beyond (tagged.wellFormed within)
  have other : majorOf bare ≠ some 3 := by
    intro isText
    obtain ⟨content, string, short⟩ := WellFormed.text whole isText
    exact beyondBare (string.wellFormed (.inr rfl) short)
  have placeBare : reached.rest = bare ++ ((value :: items).flatten ++ (ending broken ++ tail)) := by
    simpa using aheadBare.rest
  have notText := (aheadBare.ready (by simp)).notText whole placeBare other
  obtain ⟨code, failed⟩ := advance_beyond aheadBare whole beyondBare untagged
  refine ⟨code, ?_⟩
  intro fuel
  simp only [mapFindLoop, ahead.going, Bool.false_eq_true, if_false, skipped, bind, Except.bind, notText, failed]
  rfl

/-- One round of the loop steps over an entry with another name. -/
theorem find_other (ahead : AheadOf broken true (key :: value :: items) tail it) (over_ : SteppedOver name ⟨key, value⟩)
    (countable : Countable broken (key :: value :: items)) (each : ∀ other ∈ value :: items, WellFormed limit depth other)
    (nonzero : 0 ∉ name) :
    ∃ next, AheadOf broken true items tail next ∧ ∀ fuel, mapFindLoop name (fuel + 1) it = mapFindLoop name fuel next := by
  obtain ⟨unnamed, withinKey, withinValue⟩ := over_
  obtain ⟨middle, aheadMiddle, passed⟩ := pass_key ahead unnamed withinKey countable each nonzero
  obtain ⟨next, advanced, aheadNext⟩ := value_within aheadMiddle withinValue (Countable.rest countable)
    fun other member => each other (by simp [member])
  refine ⟨next, aheadNext, ?_⟩
  intro fuel
  rw [passed, advanced]
  rfl

/-- It fails at an entry with another name that the parser cannot step over. -/
theorem find_refused (ahead : AheadOf broken true (key :: value :: items) tail it) (unnamed : ¬ Named key name)
    (beyond : ¬ (Within key ∧ Within value)) (countable : Countable broken (key :: value :: items))
    (wellFormed : WellFormed limit depth key) (each : ∀ other ∈ value :: items, WellFormed limit depth other)
    (nonzero : 0 ∉ name) : ∃ code, ∀ fuel, mapFindLoop name (fuel + 1) it = failWith code := by
  by_cases within : Within key
  · obtain ⟨middle, aheadMiddle, passed⟩ := pass_key ahead unnamed within countable each nonzero
    obtain ⟨code, failed⟩ := value_beyond aheadMiddle (each value (by simp)) fun other => beyond ⟨within, other⟩
    refine ⟨code, ?_⟩
    intro fuel
    rw [passed, failed]
    rfl
  · exact refuse_key ahead wellFormed within

/-- The loop comes to the entries behind those that it steps over. -/
theorem find_others {before pairs : List Pair} (ahead : AheadOf broken true (pairItems (before ++ pairs)) tail it)
    (others : ∀ pair ∈ before, SteppedOver name pair) (countable : Countable broken (pairItems (before ++ pairs)))
    (each : ∀ item ∈ pairItems (before ++ pairs), WellFormed limit depth item) (nonzero : 0 ∉ name) :
    ∃ next, AheadOf broken true (pairItems pairs) tail next ∧
      ∀ fuel, mapFindLoop name (fuel + before.length) it = mapFindLoop name fuel next := by
  induction before generalizing it with
  | nil => exact ⟨it, ahead, fun _ => rfl⟩
  | cons pair before ih =>
    rw [List.cons_append, pairItems_cons] at ahead countable each
    have behind : ∀ other ∈ pair.value :: pairItems (before ++ pairs), WellFormed limit depth other :=
      fun other member => each other (List.mem_cons_of_mem _ member)
    obtain ⟨next, aheadNext, stepped⟩ := find_other ahead (others pair (by simp)) countable behind nonzero
    obtain ⟨last, aheadLast, found⟩ := ih aheadNext (fun other member => others other (by simp [member]))
      (Countable.rest (Countable.rest countable)) fun other member => behind other (List.mem_cons_of_mem _ member)
    refine ⟨last, aheadLast, ?_⟩
    intro fuel
    rw [← found, ← stepped]
    rfl

end

/-! Maps, with a count of their entries or up to a break. -/

/-- The item is a map with these entries; `broken` tells whether a break ends it. -/
inductive MapOf (pairs : List Pair) : Bool → Bytes → Prop where
  | counted {bytes} (isHead : Head 5 pairs.length bytes) : MapOf pairs false (bytes ++ (pairItems pairs).flatten)
  | open : MapOf pairs true (openByte 5 :: ((pairItems pairs).flatten ++ [breakByte]))

section
variable {limit depth : Nat} {broken : Bool} {pairs before after : List Pair} {item key value name tail : Bytes}
  {map : CborValue}

theorem MapOf.isMap (isMap : MapOf pairs broken item) (ready : Ready map) (rest : map.rest = item ++ tail) :
    map.isMap = true := by
  cases isMap with
  | counted isHead =>
    rw [List.append_assoc] at rest
    rw [(ready.atHead isHead (by decide) rest).isMap (.inr rfl)]
    rfl
  | «open» =>
    have type := (ready.atOpen (by decide) rest).type
    rw [CborValue.isMap, type]
    rfl

theorem MapOf.enter (isMap : MapOf pairs broken item) (ready : Ready map) (rest : map.rest = item ++ tail)
    (countable : Countable broken (pairItems pairs)) (each : ∀ item ∈ pairItems pairs, WellFormed limit depth item) :
    ∃ recursed, cborValueEnterContainer map = .ok recursed ∧ AheadOf broken true (pairItems pairs) tail recursed := by
  cases isMap with
  | counted isHead => exact enterContainer_counted ready (.inr rfl) isHead (pairItems_length pairs) (countable rfl) each rest
  | «open» =>
    have even : (pairItems pairs).length % 2 = 0 := by
      rw [pairItems_length]
      exact Nat.mul_mod_left _ 2
    exact enterContainer_open ready (.inr rfl) (fun _ => even) each rest

/-- Looking for a name is the loop over the entries, with as much fuel as it needs. -/
theorem MapOf.loop (name : Bytes) (isMap : MapOf pairs broken item) (ready : Ready map) (rest : map.rest = item ++ tail)
    (countable : Countable broken (pairItems pairs)) (each : ∀ item ∈ pairItems pairs, WellFormed limit depth item) :
    ∃ element fuel, AheadOf broken true (pairItems pairs) tail element ∧ pairs.length ≤ fuel ∧
      cborValueMapFindValue1 map name = mapFindLoop name fuel element := by
  obtain ⟨element, entered, ahead⟩ := isMap.enter ready rest countable each
  refine ⟨element, element.rest.length, ahead, ?_, ?_⟩
  · have long : (pairItems pairs).length ≤ (pairItems pairs).flatten.length :=
      length_le_flatten fun item member => (each item member).length_pos
    rw [pairItems_length] at long
    rw [ahead.rest, List.length_append]
    omega
  · rw [cborValueMapFindValue1, isMap.isMap ready rest, entered]
    rfl

/-- A name is found at the first entry with it, when those in front are stepped over. -/
theorem find_value (isMap : MapOf (before ++ ⟨key, value⟩ :: after) broken item) (ready : Ready map)
    (rest : map.rest = item ++ tail) (countable : Countable broken (pairItems (before ++ ⟨key, value⟩ :: after)))
    (each : ∀ item ∈ pairItems (before ++ ⟨key, value⟩ :: after), WellFormed limit depth item)
    (others : ∀ pair ∈ before, SteppedOver name pair) (named : Named key name) (nonzero : 0 ∉ name)
    (short : name.length < 2 ^ 64) :
    ∃ found, cborValueMapFindValue1 map name = .ok found ∧ AheadOf broken true (value :: pairItems after) tail found := by
  obtain ⟨element, fuel, ahead, enough, looked⟩ := isMap.loop name ready rest countable each
  obtain ⟨next, aheadNext, stepped⟩ := find_others ahead others countable each nonzero
  rw [List.length_append, List.length_cons] at enough
  obtain ⟨left, rfl⟩ : ∃ left, fuel = left + 1 + before.length := ⟨fuel - 1 - before.length, by omega⟩
  rw [pairItems_append, pairItems_cons] at countable each
  have fewer : Countable broken (key :: value :: pairItems after) := by
    intro counted
    have few := countable counted
    rw [List.length_append] at few
    exact Nat.lt_of_le_of_lt (Nat.le_add_left _ _) few
  obtain ⟨found, ended, aheadFound⟩ := find_named aheadNext named fewer
    (fun other member => each other (List.mem_append_right _ (List.mem_cons_of_mem _ member))) nonzero short left
  refine ⟨found, ?_, aheadFound⟩
  rw [looked, stepped, ended]

/-- A name that no entry has is not found. -/
theorem find_nothing (isMap : MapOf pairs broken item) (ready : Ready map) (rest : map.rest = item ++ tail)
    (countable : Countable broken (pairItems pairs)) (each : ∀ item ∈ pairItems pairs, WellFormed limit depth item)
    (others : ∀ pair ∈ pairs, SteppedOver name pair) (nonzero : 0 ∉ name) :
    ∃ found, cborValueMapFindValue1 map name = .ok found ∧ found.isValid = false := by
  obtain ⟨element, fuel, ahead, enough, looked⟩ := isMap.loop name ready rest countable each
  rw [← List.append_nil pairs] at ahead countable each
  obtain ⟨next, aheadNext, stepped⟩ := find_others ahead others countable each nonzero
  obtain ⟨left, rfl⟩ := Nat.exists_eq_add_of_le' enough
  refine ⟨{ next with type := .invalid }, ?_, rfl⟩
  rw [looked, stepped]
  cases left <;> simp [mapFindLoop, AheadOf.ended aheadNext, pure, Except.pure]

/-- The search fails at an entry in front of the name that the parser cannot step over. -/
theorem find_fails (isMap : MapOf (before ++ ⟨key, value⟩ :: after) broken item) (ready : Ready map)
    (rest : map.rest = item ++ tail) (countable : Countable broken (pairItems (before ++ ⟨key, value⟩ :: after)))
    (each : ∀ item ∈ pairItems (before ++ ⟨key, value⟩ :: after), WellFormed limit depth item)
    (others : ∀ pair ∈ before, SteppedOver name pair) (unnamed : ¬ Named key name) (beyond : ¬ (Within key ∧ Within value))
    (nonzero : 0 ∉ name) : ∃ code, cborValueMapFindValue1 map name = failWith code := by
  obtain ⟨element, fuel, ahead, enough, looked⟩ := isMap.loop name ready rest countable each
  obtain ⟨next, aheadNext, stepped⟩ := find_others ahead others countable each nonzero
  rw [List.length_append, List.length_cons] at enough
  obtain ⟨left, rfl⟩ : ∃ left, fuel = left + 1 + before.length := ⟨fuel - 1 - before.length, by omega⟩
  rw [pairItems_append, pairItems_cons] at countable each
  have fewer : Countable broken (key :: value :: pairItems after) := by
    intro counted
    have few := countable counted
    rw [List.length_append] at few
    exact Nat.lt_of_le_of_lt (Nat.le_add_left _ _) few
  obtain ⟨code, failed⟩ := find_refused aheadNext unnamed beyond fewer (each key (by simp))
    (fun other member => each other (List.mem_append_right _ (List.mem_cons_of_mem _ member))) nonzero
  refine ⟨code, ?_⟩
  rw [looked, stepped, failed]

/-- A map that says it has more entries than the parser counts is not looked through. -/
theorem find_beyond (isMap : MapOf pairs broken item) (ready : Ready map) (rest : map.rest = item ++ tail)
    (beyond : ¬ Countable broken (pairItems pairs)) : ∃ code, cborValueMapFindValue1 map name = failWith code := by
  have whole := isMap.isMap ready rest
  cases isMap with
  | «open» => exact absurd (countable_broken _) beyond
  | counted isHead =>
    have at_ := ready.atHead isHead (by decide) (by rw [rest, List.append_assoc])
    have large : uint32Max ≤ itemCount 5 pairs.length := by
      have many : ¬ (pairItems pairs).length < uint32Max := fun few => beyond fun _ => few
      rw [pairItems_length] at many
      exact Nat.le_of_not_lt many
    refine ⟨.dataTooLarge, ?_⟩
    rw [cborValueMapFindValue1, whole, enterContainer_beyond at_ (.inr rfl) large]
    rfl

/-- What a search comes to first: the name, an entry that it cannot step over, or the end. -/
theorem search_cases (name : Bytes) (pairs : List Pair) :
    (∃ before key value after, pairs = before ++ ⟨key, value⟩ :: after ∧ (∀ pair ∈ before, SteppedOver name pair) ∧
      Named key name) ∨
    (∃ before key value after, pairs = before ++ ⟨key, value⟩ :: after ∧ (∀ pair ∈ before, SteppedOver name pair) ∧
      ¬ Named key name ∧ ¬ (Within key ∧ Within value)) ∨ ∀ pair ∈ pairs, SteppedOver name pair := by
  induction pairs with
  | nil => exact .inr (.inr nofun)
  | cons pair pairs ih =>
    by_cases named : Named pair.key name
    · exact .inl ⟨[], pair.key, pair.value, pairs, rfl, nofun, named⟩
    by_cases within : Within pair.key ∧ Within pair.value
    · have first : SteppedOver name pair := ⟨named, within⟩
      have extended : ∀ {others : List Pair}, (∀ other ∈ others, SteppedOver name other) →
          ∀ other ∈ pair :: others, SteppedOver name other := by
        intro others each other member
        rcases List.mem_cons.mp member with rfl | member
        · exact first
        · exact each other member
      rcases ih with ⟨before, key, value, after, rfl, each, found⟩ | ⟨before, key, value, after, rfl, each, refused⟩ | all
      · exact .inl ⟨pair :: before, key, value, after, rfl, extended each, found⟩
      · exact .inr (.inl ⟨pair :: before, key, value, after, rfl, extended each, refused⟩)
      · exact .inr (.inr (extended all))
    · exact .inr (.inl ⟨[], pair.key, pair.value, pairs, rfl, nofun, named, within⟩)

end

end AxbyCore.Tinycbor.Proofs
