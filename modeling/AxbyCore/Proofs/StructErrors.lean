import AxbyCore.Proofs.LeafErrors
import AxbyCore.Proofs.RoundTrip

/-! What a struct decode that reports success has decoded. The branch for structs returns no
error whatever became of its fields, so every field was decoded only if the item is complete. -/

namespace AxbyCore.Serialization.Proofs
open Tinycbor Tinycbor.Proofs Rfc8949

/-- `cbor_value_advance`, or `cbor_value_advance_fixed` where the elements have a fixed size. -/
def advanceElement (fixedSize : Bool) (it : CborValue) : Parse CborValue :=
  if fixedSize then cborValueAdvanceFixed it else cborValueAdvance it

/-- The loop decodes every element without an error and advances over it, and in every
element everything is decoded. -/
def ElementsDecoded {α : Type} (fixedSize : Bool) (decode : Decode α) (decoded : CborValue → α → Prop) :
    CborValue → List α → Prop
  | _, [] => True
  | it, elem :: rest =>
    (∃ result, decode it elem = some (.noError, result)) ∧ decoded it elem ∧
      ∃ next, advanceElement fixedSize it = .ok next ∧ ElementsDecoded fixedSize decode decoded next rest

/-- The list is entered, and the loop decodes its elements. -/
def ListDecoded {α : Type} (fixedSize : Bool) (resize : Nat → List α → List α) (decode : Decode α)
    (decoded : CborValue → α → Prop) (it : CborValue) (out : List α) : Prop :=
  ∃ length valueIt, it.getArrayLength = .ok length ∧ cborValueEnterContainer it = .ok valueIt ∧
    ElementsDecoded fixedSize decode decoded valueIt (resize length out)

mutual

/-- In the item at the value, every field of every struct is present and decoded without an
error, inside lists and other structs, too. -/
def Decoded (target : Target) : (type : Ty) → CborValue → type.denote → Prop
  | .array elem size => fun it out =>
    isDecodeLeaf target (.array elem size) = true ∨
      ListDecoded (isFixedSize elem) (fun _ items => items) (decode target elem) (Decoded target elem) it out.val
  | .vector elem => fun it out =>
    isDecodeLeaf target (.vector elem) = true ∨
      ListDecoded (isFixedSize elem) (resizeTo (target.fresh elem)) (decode target elem) (Decoded target elem) it out
  | .struct fields => fun it out => FieldsDecoded target fields it out
  | _ => fun _ _ => True

def FieldsDecoded (target : Target) : (fields : Fields) → CborValue → fields.denote → Prop
  | .nil => fun _ _ => True
  | .cons name type rest => fun it out =>
    (∃ element result, cborValueMapFindValue1 it name = .ok element ∧ element.isValid = true ∧
      decode target type element out.1 = some (.noError, result) ∧ Decoded target type element out.1) ∧
    FieldsDecoded target rest it out.2

end

/-- A list that says how long it is, has fewer items than the parser counts and only items
that the parser can step over, each of them complete. -/
def ListComplete (complete : Bytes → Prop) (item : Bytes) : Prop :=
  ∃ bytes items, Head 4 (List.length items) bytes ∧ item = bytes ++ List.flatten items ∧ items.length < uint32Max ∧
    ∀ other ∈ items, Within other ∧ complete other

/-- An entry with the name whose value is complete, behind others that are stepped over. -/
def FieldComplete (complete : Bytes → Prop) (name : Bytes) (broken : Bool) (pairs : List Pair) : Prop :=
  Countable broken (pairItems pairs) ∧ ∃ before key value after, pairs = before ++ ⟨key, value⟩ :: after ∧
    (∀ pair ∈ before, SteppedOver name pair) ∧ Named key name ∧ complete value

mutual

/-- The maps in the item have an entry for each field that can be reached, and lists and
strings say how long they are. -/
def Complete (target : Target) : Ty → Bytes → Prop
  | .array elem size =>
    if isDecodeLeaf target (.array elem size) then Definite else ListComplete (Complete target elem)
  | .vector elem => if isDecodeLeaf target (.vector elem) then Definite else ListComplete (Complete target elem)
  | .struct fields => fun item =>
    ∃ limit depth broken pairs, MapOf pairs broken item ∧ (∀ other ∈ pairItems pairs, WellFormed limit depth other) ∧
      FieldsComplete target fields broken pairs
  | _ => Definite

def FieldsComplete (target : Target) : Fields → Bool → List Pair → Prop
  | .nil => fun _ _ => True
  | .cons name type rest => fun broken pairs =>
    FieldComplete (Complete target type) name broken pairs ∧ FieldsComplete target rest broken pairs

end

/-! Lists. -/

section
variable {α : Type} {fixedSize : Bool} {decode : Decode α} {decoded : CborValue → α → Prop} {complete : Bytes → Prop}

/-- Where the decoder returns, it is not at a tag, and it has decoded everything without an
error exactly when the item is complete. -/
def Completes {α : Type} (decode : Decode α) (decoded : CborValue → α → Prop) (complete : Bytes → Prop) : Prop :=
  ∀ limit depth item it out err result, WellFormed limit depth item → Placed item it → decode it out = some (err, result) →
    it.type ≠ .tag ∧ ((err = .noError ∧ decoded it out) ↔ complete item)

/-- A value that is no tag is at an item without tags. -/
theorem untagged_item {limit depth : Nat} {item tail : Bytes} {it : CborValue} (ready : Ready it)
    (wellFormed : WellFormed limit depth item) (rest : it.rest = item ++ tail) (notTag : it.type ≠ .tag) :
    majorOf item ≠ some 6 := by
  intro isTag
  obtain ⟨major, first, ⟨known, type⟩ | ⟨seven, -⟩⟩ := ready.typed wellFormed rest
  · rw [isTag] at first
    cases first
    exact notTag type
  · rw [isTag] at first
    cases first
    cases seven

/-- At a number it makes no difference how the loop advances. -/
theorem advanceElement_eq {it : CborValue} (fixed : fixedSize = true → isFixedType it.type = true) :
    advanceElement fixedSize it = cborValueAdvance it := by
  unfold advanceElement
  split
  next yes =>
    have type := fixed yes
    unfold cborValueAdvanceFixed cborValueAdvance
    rw [type]
    unfold advanceRecursive
    rw [type]
    rfl
  next => rfl

/-- The loop returns without an error behind elements that are all complete, and only then. -/
theorem elements_complete (completes : Completes decode decoded complete)
    (numbers : fixedSize = true → ∀ {it out read}, decode it out = some read → isFixedType it.type = true)
    {limit depth : Nat} {items : List Bytes} {tail : Bytes} {it : CborValue} {outs results : List α} {err : CborError}
    (ahead : AheadOf false false items tail it) (short : items.length < uint32Max)
    (each : ∀ item ∈ items, WellFormed limit depth item) (size : outs.length = items.length)
    (returned : decodeElements fixedSize decode it outs = some (err, results)) :
    (err = .noError ∧ ElementsDecoded fixedSize decode decoded it outs) ↔ ∀ item ∈ items, Within item ∧ complete item := by
  induction items generalizing it outs results with
  | nil =>
    obtain rfl := List.eq_nil_of_length_eq_zero size
    cases returned
    exact ⟨fun _ item member => absurd member List.not_mem_nil, fun _ => ⟨rfl, trivial⟩⟩
  | cons item items ih =>
    cases outs with
    | nil => cases size
    | cons out outs =>
      have others : ∀ other ∈ items, WellFormed limit depth other := fun other member => each other (by simp [member])
      have place : it.rest = item ++ (items.flatten ++ (ending false ++ tail)) := by simpa using ahead.rest
      have ready := ahead.ready (by simp)
      have wellFormed := each item (by simp)
      have placed := ahead.placed (fun _ => short) others
      unfold decodeElements at returned
      cases first : decode it out with
      | none =>
        rw [first] at returned
        cases returned
      | some read =>
        obtain ⟨code, elem⟩ := read
        obtain ⟨notTag, exact_⟩ := completes _ _ item it out code elem wellFormed placed first
        have untagged := untagged_item ready wellFormed place notTag
        have advance := advanceElement_eq fun yes => numbers yes first
        unfold advanceElement at advance
        rw [first, advance] at returned
        dsimp only at returned
        by_cases none : code = .noError
        · rw [if_neg (not_not.mpr none)] at returned
          subst none
          by_cases within : Within item
          · obtain ⟨next, advanced, aheadNext⟩ := advance_within ahead within untagged (fun _ => short) others
            rw [advanced] at returned
            obtain ⟨⟨last, values⟩, loop, same⟩ := Option.map_eq_some_iff.mp returned
            cases same
            rw [List.length_cons] at short
            have rest := ih aheadNext (by omega) others (Nat.succ.inj size) loop
            constructor
            · rintro ⟨done, decodedFirst, nested, after, went, decodedRest⟩
              rw [advanceElement, advance, advanced] at went
              obtain rfl := Except.ok.inj went
              intro other member
              rcases List.mem_cons.mp member with rfl | member
              · exact ⟨within, exact_.mp ⟨rfl, nested⟩⟩
              · exact rest.mp ⟨done, decodedRest⟩ other member
            · intro all
              obtain ⟨done, decodedRest⟩ := rest.mpr fun other member => all other (by simp [member])
              have nested := (exact_.mpr (all item (by simp)).2).2
              refine ⟨done, ⟨elem, first⟩, nested, next, ?_, decodedRest⟩
              rw [advanceElement, advance, advanced]
          · obtain ⟨fault, failed⟩ := advance_beyond ahead wellFormed within untagged
            constructor
            · rintro ⟨-, -, -, after, went, -⟩
              rw [advanceElement, advance, failed] at went
              cases went
            · intro all
              exact absurd (all item (by simp)).1 within
        · rw [if_pos none] at returned
          cases returned
          constructor
          · rintro ⟨done, -⟩
            exact absurd done none
          · intro all
            exact absurd (exact_.mpr (all item (by simp)).2).1 none

section
variable {resize : Nat → List α → List α} {limit depth : Nat} {item : Bytes} {it : CborValue} {out results : List α}
  {err : CborError}

/-- A list of known length that can be counted is entered, and the loop starts at its items. -/
theorem range_enters {bytes tail : Bytes} {items : List Bytes} (ready : Ready it) (isHead : Head 4 items.length bytes)
    (rest : it.rest = bytes ++ items.flatten ++ tail) (short : items.length < uint32Max)
    (each : ∀ item ∈ items, WellFormed limit depth item) (fixedSize : Bool) (resize : Nat → List α → List α) (decode : Decode α)
    (out : List α) :
    ∃ valueIt, it.getArrayLength = .ok items.length ∧ cborValueEnterContainer it = .ok valueIt ∧
      AheadOf false false items tail valueIt ∧ decodeRange fixedSize resize decode it out =
        if (resize items.length out).length ≠ items.length then none
        else decodeElements fixedSize decode valueIt (resize items.length out) := by
  have at_ := ready.atHead isHead (by decide) (by rw [rest, List.append_assoc])
  have isArray : it.isArray = true := by simp [CborValue.isArray, at_.type, majorTypeOf]
  have length : it.getArrayLength = .ok items.length := by
    rw [CborValue.getArrayLength, isArray, assertThat_true, at_.value, CborValue.isLengthKnown, at_.known]
    rfl
  obtain ⟨valueIt, entered, ahead⟩ := enterContainer_counted ready (.inl rfl) isHead rfl short each rest
  refine ⟨valueIt, length, entered, ahead, ?_⟩
  rw [decodeRange, isArray, length, entered]
  rfl

/-- What a list of known length that can be counted comes to. -/
theorem range_counted (completes : Completes decode decoded complete)
    (numbers : fixedSize = true → ∀ {it out read}, decode it out = some read → isFixedType it.type = true)
    {bytes tail : Bytes} {items : List Bytes} (ready : Ready it) (isHead : Head 4 items.length bytes)
    (rest : it.rest = bytes ++ items.flatten ++ tail) (short : items.length < uint32Max)
    (each : ∀ item ∈ items, WellFormed limit depth item)
    (returned : decodeRange fixedSize resize decode it out = some (err, results)) :
    (err = .noError ∧ ListDecoded fixedSize resize decode decoded it out) ↔ ∀ item ∈ items, Within item ∧ complete item := by
  obtain ⟨valueIt, length, entered, ahead, ranges⟩ :=
    range_enters ready isHead rest short each fixedSize resize decode out
  rw [ranges] at returned
  split at returned
  · cases returned
  next size =>
    have loop := elements_complete completes numbers ahead short each (not_not.mp size) returned
    constructor
    · rintro ⟨done, counted, first, sameLength, enteredFirst, elements⟩
      rw [length] at sameLength
      obtain rfl := Except.ok.inj sameLength
      rw [entered] at enteredFirst
      obtain rfl := Except.ok.inj enteredFirst
      exact loop.mp ⟨done, elements⟩
    · intro all
      obtain ⟨done, elements⟩ := loop.mpr all
      exact ⟨done, _, valueIt, length, entered, elements⟩

/-- A list decode returns no error and has decoded everything exactly when the list is complete. -/
theorem range_complete (completes : Completes decode decoded complete)
    (numbers : fixedSize = true → ∀ {it out read}, decode it out = some read → isFixedType it.type = true)
    (wellFormed : WellFormed limit depth item) (placed : Placed item it)
    (returned : decodeRange fixedSize resize decode it out = some (err, results)) :
    (err = .noError ∧ ListDecoded fixedSize resize decode decoded it out) ↔ ListComplete complete item := by
  obtain ⟨ready, tail, rest, -⟩ := placed
  have backward : ListComplete complete item → err = .noError ∧ ListDecoded fixedSize resize decode decoded it out := by
    rintro ⟨bytes, items, isHead, rfl, short, all⟩
    exact (range_counted completes numbers ready isHead rest short (fun other member => (all other member).1) returned).mpr all
  refine ⟨?_, backward⟩
  rintro ⟨done, counted, valueIt, length, entered, elements⟩
  have isArray : it.isArray = true := by
    by_contra other
    rw [Bool.not_eq_true] at other
    rw [CborValue.getArrayLength, other] at length
    cases length
  have kind := ready.kindOf wellFormed rest
  rw [show it.type = .array from beq_iff_eq.mp isArray] at kind
  cases kind with
  | simple other => simp at other
  | @array _ bytes items isHead each =>
    have at_ := ready.atHead isHead (by decide) (by rw [rest, List.append_assoc])
    by_cases short : items.length < uint32Max
    · exact ⟨bytes, items, isHead, rfl, short,
        (range_counted completes numbers ready isHead rest short each returned).mp
          ⟨done, counted, valueIt, length, entered, elements⟩⟩
    · have failed := enterContainer_beyond at_ (.inl rfl) (Nat.le_of_not_lt short)
      rw [failed] at entered
      cases entered
  | openArray each =>
    have at_ := ready.atOpen (by decide) rest
    rw [CborValue.getArrayLength, isArray, CborValue.isLengthKnown, at_.unknown] at length
    cases length

end

end

/-! Fields. -/

section
variable {target : Target} {limit depth : Nat} {broken : Bool} {pairs : List Pair} {item tail name : Bytes} {map : CborValue}

/-- The value that a name is found with is placed. -/
theorem find_placed {before after : List Pair} {key value : Bytes} (isMap : MapOf (before ++ ⟨key, value⟩ :: after) broken item)
    (ready : Ready map) (rest : map.rest = item ++ tail)
    (countable : Countable broken (pairItems (before ++ ⟨key, value⟩ :: after)))
    (each : ∀ item ∈ pairItems (before ++ ⟨key, value⟩ :: after), WellFormed limit depth item)
    (others : ∀ pair ∈ before, SteppedOver name pair) (named : Named key name) (nonzero : 0 ∉ name)
    (short : name.length < 2 ^ 64) :
    ∃ element, cborValueMapFindValue1 map name = .ok element ∧ element.isValid = true ∧ WellFormed limit depth value ∧
      Placed value element := by
  obtain ⟨element, found, ahead⟩ := find_value isMap ready rest countable each others named nonzero short
  rw [pairItems_append, pairItems_cons] at each countable
  have wellFormed := each value (by simp)
  have later : ∀ other ∈ pairItems after, WellFormed limit depth other := fun other member => each other (by simp [member])
  have fewer : Countable broken (value :: pairItems after) := by
    intro counted
    have few := countable counted
    simp only [List.length_append, List.length_cons] at few ⊢
    omega
  have placed := ahead.placed fewer later
  obtain ⟨behind, place, -⟩ := placed.followed
  exact ⟨element, found, placed.ready.valid wellFormed place, wellFormed, placed⟩

/-- A field is found and decoded, with everything in it, exactly when the map has it complete. -/
theorem field_complete {α : Type} {decode : Decode α} {decoded : CborValue → α → Prop} {complete : Bytes → Prop}
    (completes : Completes decode decoded complete) (isMap : MapOf pairs broken item) (ready : Ready map)
    (rest : map.rest = item ++ tail) (each : ∀ item ∈ pairItems pairs, WellFormed limit depth item) (nonzero : 0 ∉ name)
    (short : name.length < 2 ^ 64) {f result : α} {err : CborError} (returned : decodeField name decode map f = some (err, result)) :
    (∃ element result, cborValueMapFindValue1 map name = .ok element ∧ element.isValid = true ∧
      decode element f = some (.noError, result) ∧ decoded element f) ↔ FieldComplete complete name broken pairs := by
  have countedOrFails : Countable broken (pairItems pairs) ∨ ∃ code, cborValueMapFindValue1 map name = failWith code := by
    by_cases countable : Countable broken (pairItems pairs)
    · exact .inl countable
    · exact .inr (find_beyond isMap ready rest countable)
  -- a field that is there is decoded where it was found
  have there : ∀ before key value after, pairs = before ++ ⟨key, value⟩ :: after → Countable broken (pairItems pairs) →
      (∀ pair ∈ before, SteppedOver name pair) → Named key name →
      ∃ element, cborValueMapFindValue1 map name = .ok element ∧ element.isValid = true ∧ decode element f = some (err, result) ∧
        ((err = .noError ∧ decoded element f) ↔ complete value) := by
    rintro before key value after rfl countable others named
    obtain ⟨element, found, valid, wellFormed, placed⟩ :=
      find_placed isMap ready rest countable each others named nonzero short
    have decodedThere : decode element f = some (err, result) := by
      simpa [decodeField, found, afterParse, valid] using returned
    exact ⟨element, found, valid, decodedThere, (completes _ _ value element f err result wellFormed placed decodedThere).2⟩
  constructor
  · rintro ⟨element, value, found, valid, decodedValue, nested⟩
    rcases countedOrFails with countable | ⟨code, failed⟩
    · rcases search_cases name pairs with ⟨before, key, item, after, same, others, named⟩ | refused | all
      · obtain ⟨again, foundAgain, -, decodedAgain, exact_⟩ := there before key item after same countable others named
        rw [found] at foundAgain
        obtain rfl := Except.ok.inj foundAgain
        rw [decodedValue] at decodedAgain
        have none := (Prod.mk.inj (Option.some.inj decodedAgain)).1
        exact ⟨countable, before, key, item, after, same, others, named, exact_.mp ⟨none.symm, nested⟩⟩
      · obtain ⟨before, key, item, after, rfl, others, unnamed, beyond⟩ := refused
        obtain ⟨code, failed⟩ := find_fails isMap ready rest countable each others unnamed beyond nonzero
        rw [failed] at found
        cases found
      · obtain ⟨nothing, searched, invalid⟩ := find_nothing isMap ready rest countable each all nonzero
        rw [found] at searched
        obtain rfl := Except.ok.inj searched
        rw [invalid] at valid
        cases valid
    · rw [failed] at found
      cases found
  · rintro ⟨countable, before, key, item, after, same, others, named, whole⟩
    obtain ⟨element, found, valid, decodedThere, exact_⟩ := there before key item after same countable others named
    obtain ⟨rfl, nested⟩ := exact_.mpr whole
    exact ⟨element, result, found, valid, decodedThere, nested⟩

/-- A field that is decoded makes the lambda return no error. -/
theorem decodeField_found {α : Type} {decode : Decode α} {f result : α} {element : CborValue}
    (found : cborValueMapFindValue1 map name = .ok element) (valid : element.isValid = true)
    (decoded : decode element f = some (.noError, result)) : decodeField name decode map f = some (.noError, result) := by
  simp [decodeField, found, afterParse, valid, decoded]

end

/-! All types. -/

theorem leaf_completes (target : Target) {type : Ty} {decoder : Decode type.denote} {decoded : CborValue → type.denote → Prop}
    (leaf : decodeLeaf target type = some decoder) (nothing : ∀ it out, decoded it out) : Completes decoder decoded Definite := by
  intro limit depth item it out err result wellFormed placed returned
  obtain ⟨notTag, exact_⟩ := decodeLeaf_judges leaf wellFormed placed out err result returned
  exact ⟨notTag, fun done => exact_.mp done.1, fun definite => ⟨exact_.mpr definite, nothing it out⟩⟩

section
variable {target : Target}

/-- The elements that are advanced over without a look at the item are numbers. -/
theorem fixedSize_numbers (elem : Ty) (compiles : decodes target elem = true) (fixed : isFixedSize elem = true)
    {it : CborValue} {out : elem.denote} {read : CborError × elem.denote} (returned : decode target elem it out = some read) :
    isFixedType it.type = true := by
  cases elem with
  | bool => cases compiles
  | uint width => exact (getUint64_number.returned returned).2.fixed
  | sint width => exact (getInt64_number.returned returned).2.fixed
  | float => exact (decodeFloat_returned returned).2.fixed
  | double => exact (getDouble_number.returned returned).2.fixed
  | _ => cases fixed

theorem range_completes {elem : Ty} {resize : Nat → List elem.denote → List elem.denote} (compiles : decodes target elem = true)
    (completes : Completes (decode target elem) (Decoded target elem) (Complete target elem)) :
    Completes (decodeRange (isFixedSize elem) resize (decode target elem))
      (ListDecoded (isFixedSize elem) resize (decode target elem) (Decoded target elem)) (ListComplete (Complete target elem)) := by
  intro limit depth item it out err result wellFormed placed returned
  refine ⟨?_, range_complete completes (fun fixed _ _ _ read => fixedSize_numbers elem compiles fixed read) wellFormed placed
    returned⟩
  intro isTag
  have notArray : it.isArray = false := by simp [CborValue.isArray, isTag]
  rw [decodeRange, notArray] at returned
  cases returned

theorem decoded_array {elem : Ty} {size : Nat} (notLeaf : ¬ isDecodeLeaf target (.array elem size) = true) (it : CborValue)
    (out : (Ty.array elem size).denote) : Decoded target (.array elem size) it out ↔
      ListDecoded (isFixedSize elem) (fun _ items => items) (decode target elem) (Decoded target elem) it out.val :=
  or_iff_right notLeaf

theorem decoded_vector {elem : Ty} (notLeaf : ¬ isDecodeLeaf target (.vector elem) = true) (it : CborValue)
    (out : (Ty.vector elem).denote) : Decoded target (.vector elem) it out ↔
      ListDecoded (isFixedSize elem) (resizeTo (target.fresh elem)) (decode target elem) (Decoded target elem) it out :=
  or_iff_right notLeaf

mutual

/-- The decoder of a type decodes everything without an error exactly from a complete item. -/
theorem decode_completes : (type : Ty) → decodes target type = true → type.Legal →
    Completes (decode target type) (Decoded target type) (Complete target type)
  | .bool, compiles, _ => by cases compiles
  | .uint _, _, _ => leaf_completes target rfl fun _ _ => trivial
  | .sint _, _, _ => leaf_completes target rfl fun _ _ => trivial
  | .float, _, _ => leaf_completes target rfl fun _ _ => trivial
  | .double, _, _ => leaf_completes target rfl fun _ _ => trivial
  | .byte, compiles, _ => by cases compiles
  | .string, _, _ => leaf_completes target rfl fun _ _ => trivial
  | .stringView, _, _ => leaf_completes target rfl fun _ _ => trivial
  | .smallString _, _, _ => leaf_completes target rfl fun _ _ => trivial
  | .byteSpan, _, _ => leaf_completes target rfl fun _ _ => trivial
  | .uint8Span, _, _ => leaf_completes target rfl fun _ _ => trivial
  | .enumeration _, _, _ => leaf_completes target rfl fun _ _ => trivial
  | .array elem size, compiles, legal => by
    by_cases leaf : isDecodeLeaf target (.array elem size) = true
    · have some : (decodeLeaf target (.array elem size)).isSome = true := by simpa [decodes, leaf] using compiles
      obtain ⟨decoder, same⟩ := Option.isSome_iff_exists.mp some
      rw [decode, if_pos leaf, same, Complete, if_pos leaf]
      exact leaf_completes target same fun _ _ => .inl leaf
    · have inner : decodes target elem = true := by simpa [decodes, leaf] using compiles
      have ranges := @range_completes target elem (fun _ items => items) inner (decode_completes elem inner legal)
      intro limit depth item it out err result wellFormed placed returned
      rw [decode, if_neg leaf] at returned
      split at returned
      · cases returned
      next code items loop =>
        split at returned
        · cases returned
          obtain ⟨notTag, exact_⟩ := ranges limit depth item it out.val err items wellFormed placed loop
          refine ⟨notTag, ?_⟩
          rw [Complete, if_neg leaf, ← exact_]
          exact and_congr_right fun _ => decoded_array leaf it out
        · cases returned
  | .vector elem, compiles, legal => by
    by_cases leaf : isDecodeLeaf target (.vector elem) = true
    · have some : (decodeLeaf target (.vector elem)).isSome = true := by simpa [decodes, leaf] using compiles
      obtain ⟨decoder, same⟩ := Option.isSome_iff_exists.mp some
      rw [decode_vector_leaf leaf, same, Complete, if_pos leaf]
      exact leaf_completes target same fun _ _ => .inl leaf
    · have inner : decodes target elem = true := by simpa [decodes, leaf] using compiles
      have ranges := @range_completes target elem (resizeTo (target.fresh elem)) inner (decode_completes elem inner legal)
      intro limit depth item it out err result wellFormed placed returned
      rw [decode_vector_range leaf] at returned
      obtain ⟨notTag, exact_⟩ := ranges limit depth item it out err result wellFormed placed returned
      refine ⟨notTag, ?_⟩
      rw [Complete, if_neg leaf, ← exact_]
      exact and_congr_right fun _ => decoded_vector leaf it out
  | .struct fields, compiles, legal => by
    obtain ⟨notLeaf, inner⟩ := struct_notLeaf compiles
    intro limit depth item it out err result wellFormed placed returned
    obtain ⟨tail, rest, -⟩ := placed.followed
    rw [decode, if_neg (by simp [notLeaf])] at returned
    dsimp only at returned
    split at returned
    · cases returned
    next map =>
      have isMap : it.type = .map := by simpa [CborValue.isMap] using map
      obtain ⟨⟨code, values⟩, fieldsReturned, same⟩ := Option.map_eq_some_iff.mp returned
      cases same
      refine ⟨by rw [isMap]; decide, ?_⟩
      have kind := placed.ready.kindOf wellFormed rest
      rw [isMap] at kind
      constructor
      · rintro ⟨-, decoded⟩
        cases kind with
        | simple other => simp at other
        | map mapOf each =>
          exact ⟨_, _, _, _, mapOf, each, (decodeFields_complete fields inner legal.2.2 mapOf placed.ready rest each
            fieldsReturned).mp decoded⟩
      · rintro ⟨_, _, _, _, mapOf, each, whole⟩
        exact ⟨rfl, (decodeFields_complete fields inner legal.2.2 mapOf placed.ready rest each fieldsReturned).mpr whole⟩

theorem decodeFields_complete : (fields : Fields) → fieldsDecode target fields = true → fields.Legal →
    ∀ {limit depth : Nat} {broken : Bool} {pairs : List Pair} {item tail : Bytes} {map : CborValue}
      {out result : fields.denote} {err : CborError}, MapOf pairs broken item → Ready map → map.rest = item ++ tail →
      (∀ other ∈ pairItems pairs, WellFormed limit depth other) → decodeFields target fields map out = some (err, result) →
      (FieldsDecoded target fields map out ↔ FieldsComplete target fields broken pairs)
  | .nil, _, _, _, _, _, _, _, _, _, _, _, _, _, _, _, _, _ => Iff.rfl
  | .cons name type rest, compiles, legal, limit, depth, broken, pairs, item, tail, map, out, result, err, isMap, ready, place,
      each, returned => by
    have both := fieldsDecode_cons.mp compiles
    unfold decodeFields at returned
    cases first : decodeField name (decode target type) map out.1 with
    | none =>
      rw [first] at returned
      cases returned
    | some read =>
      obtain ⟨code, f⟩ := read
      have field := field_complete (decode_completes type both.1 legal.2.1) isMap ready place each legal.1.1 legal.1.2 first
      rw [first] at returned
      dsimp only at returned
      -- behind a field without an error the others are decoded, too
      have others : code = .noError →
          (FieldsDecoded target rest map out.2 ↔ FieldsComplete target rest broken pairs) := by
        intro none
        rw [if_neg (not_not.mpr none)] at returned
        obtain ⟨⟨last, values⟩, restReturned, -⟩ := Option.map_eq_some_iff.mp returned
        exact decodeFields_complete rest both.2 legal.2.2 isMap ready place each restReturned
      have none : (∃ element result, cborValueMapFindValue1 map name = .ok element ∧ element.isValid = true ∧
          decode target type element out.1 = some (.noError, result) ∧ Decoded target type element out.1) → code = .noError := by
        rintro ⟨element, value, found, valid, decoded, -⟩
        rw [decodeField_found found valid decoded] at first
        exact (Prod.mk.inj (Option.some.inj first)).1.symm
      constructor
      · rintro ⟨here, decodedRest⟩
        exact ⟨field.mp here, (others (none here)).mp decodedRest⟩
      · rintro ⟨here, wholeRest⟩
        have decodedHere := field.mpr here
        exact ⟨decodedHere, (others (none decodedHere)).mpr wholeRest⟩

end

/-- When `deserialize_cbor` returns for a struct, its success means that every field was found
and decoded without an error if and only if the item is complete. -/
theorem success_decoded {fields : Fields} (compiles : decodes target (.struct fields) = true)
    (legal : (Ty.struct fields).Legal) {limit depth : Nat} {item : Bytes} (wellFormed : WellFormed limit depth item)
    (trailing : Bytes) (out : (Ty.struct fields).denote)
    (returned : (deserializeCbor target (.struct fields) out (item ++ trailing)).isSome = true) :
    (∀ result, deserializeCbor target (.struct fields) out (item ++ trailing) = some (true, result) →
      ∃ val, cborParserInit (item ++ trailing) = .ok val ∧ Decoded target (.struct fields) val out) ↔
        Complete target (.struct fields) item := by
  obtain ⟨val, parsed, placed⟩ := placed_init wellFormed trailing
  obtain ⟨⟨ok, result⟩, deserialized⟩ := Option.isSome_iff_exists.mp returned
  have whole : (decode target (.struct fields) val out).map (fun (error, item) => (error == .noError, item)) = some (ok, result) := by
    rw [← deserialized, deserializeCbor, parsed]
  obtain ⟨⟨err, values⟩, decoded, same⟩ := Option.map_eq_some_iff.mp whole
  obtain ⟨-, exact_⟩ := decode_completes (.struct fields) compiles legal limit depth item val out err values wellFormed placed decoded
  constructor
  · intro success
    -- the branch for structs returns no error
    have none : err = .noError := by
      obtain ⟨notLeaf, -⟩ := struct_notLeaf compiles
      rw [decode, if_neg (by simp [notLeaf])] at decoded
      dsimp only at decoded
      split at decoded
      · cases decoded
      · obtain ⟨fieldsDecoded, -, same⟩ := Option.map_eq_some_iff.mp decoded
        exact (Prod.mk.inj same).1.symm
    have true_ : ok = true := by
      have first := (Prod.mk.inj same).1
      rw [← first, none]
      rfl
    rw [true_] at deserialized
    obtain ⟨start, again, everything⟩ := success result deserialized
    rw [parsed] at again
    obtain rfl := Except.ok.inj again
    exact exact_.mp ⟨none, everything⟩
  · intro complete result _
    exact ⟨val, parsed, (exact_.mpr complete).2⟩

end

/-- `struct { uint8_t a; }` -/
def oneField : Fields := .cons [0x61] (.uint .w8) .nil

theorem success_decoded_field :
    (∀ result, deserializeCbor ieeeTarget (.struct oneField) (0#8, ()) [0xa1, 0x61, 0x61, 0x02] = some (true, result) →
      ∃ val, cborParserInit [0xa1, 0x61, 0x61, 0x02] = .ok val ∧ Decoded ieeeTarget (.struct oneField) val (0#8, ())) ↔
        Complete ieeeTarget (.struct oneField) [0xa1, 0x61, 0x61, 0x02] := by
  have legal : (Ty.struct oneField).Legal := ⟨by decide, by decide, ⟨by decide, by decide⟩, trivial, trivial⟩
  have nameHead : Head 3 (List.length [(0x61 : UInt8)]) [0x61] := .short (by decide)
  have key : WellFormed uint32Max 0 [0x61, 0x61] := .string (.inr rfl) nameHead
  have valueHead : Head 0 2 [0x02] := .short (by decide)
  have value : WellFormed uint32Max 0 [0x02] := .integer (by decide) valueHead
  have each : ∀ item ∈ [[0x61, 0x61], [0x02]], WellFormed uint32Max 0 item := by
    intro item member
    rcases List.mem_cons.mp member with rfl | member
    · exact key
    · obtain rfl := List.mem_singleton.mp member
      exact value
  have isHead : Head 5 1 [0xa1] := .short (by decide)
  have wellFormed : WellFormed uint32Max 1 [0xa1, 0x61, 0x61, 0x02] := .container (.inr rfl) isHead rfl (by decide) each
  have returned : (deserializeCbor ieeeTarget (.struct oneField) (0#8, ()) [0xa1, 0x61, 0x61, 0x02]).isSome = true := by
    decide +kernel
  exact success_decoded rfl legal wellFormed [] (0#8, ()) returned

/-- An empty map is decoded into a struct with a field, and reports success. -/
theorem success_without_field :
    decodes ieeeTarget (.struct oneField) = true ∧ (Ty.struct oneField).Legal ∧ WellFormed uint32Max 1 [0xa0] ∧
      deserializeCbor ieeeTarget (.struct oneField) (7#8, ()) [0xa0] = some (true, (7#8, ())) ∧
      ¬ ∃ val, cborParserInit [0xa0] = .ok val ∧ Decoded ieeeTarget (.struct oneField) val (7#8, ()) := by
  have isHead : Head 5 0 [0xa0] := .short (by decide)
  have wellFormed : WellFormed uint32Max 1 [0xa0] :=
    .container (.inr rfl) isHead rfl (by decide) fun item member => absurd member List.not_mem_nil
  refine ⟨rfl, ⟨by decide, by decide, ⟨by decide, by decide⟩, trivial, trivial⟩, wellFormed, rfl, ?_⟩
  rintro ⟨val, parsed, ⟨element, result, found, valid, -⟩, -⟩
  obtain rfl := Except.ok.inj parsed
  obtain rfl := Except.ok.inj found
  cases valid

end AxbyCore.Serialization.Proofs
