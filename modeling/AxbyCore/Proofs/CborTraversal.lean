import AxbyCore.Library.WellFormed
import AxbyCore.Proofs.CborSkipping

/-! Going through well-formed items of any kind: a loop of the parser passes over each,
stepping over its tags one by one, until the count or the break of the container ends it. -/

namespace AxbyCore.Tinycbor.Proofs
open Rfc8949 Endian

/-! Parsing where an item starts. -/

/-- The value at an item of indefinite length. -/
structure AtOpen (major : Nat) (it : CborValue) : Prop where
  type : it.type = majorTypeOf major
  unknown : it.flags.unknownLength = true
  negative : it.flags.negativeInteger = false
  iterating : it.flags.iteratingStringChunks = false

section
variable {limit depth major : Nat} {item tail : Bytes} {it : CborValue}

theorem preparse_open (kind : 2 ≤ major ∧ major ≤ 5) (rest : it.rest = openByte major :: tail) :
    ∃ ready, preparseValue it = .ok ready ∧ SamePlace it ready ∧ AtOpen major ready := by
  have first : it.rest.head? = some (UInt8.ofNat (32 * major + 31)) := by rw [rest]; rfl
  have value : smallValue (UInt8.ofNat (32 * major + 31)) = 31 := smallValue_headByte (by omega) (by omega)
  have type : (UInt8.ofNat (32 * major + 31)).toNat / 32 = major := major_headByte (by omega) (by omega)
  have notFixed : isFixedType (majorTypeOf major) = false := by
    obtain rfl | rfl | rfl | rfl : major = 2 ∨ major = 3 ∨ major = 4 ∨ major = 5 := by omega
    all_goals rfl
  unfold preparseValue
  rw [first]
  dsimp only
  rw [value, type, if_pos (by decide), if_neg (by decide), notFixed]
  exact ⟨_, rfl, ⟨rfl, rfl, rfl, rfl⟩, rfl, rfl, rfl, rfl⟩

/-- Every item can be parsed where it starts. -/
theorem preparse_wellFormed (wellFormed : WellFormed limit depth item) (rest : it.rest = item ++ tail) :
    ∃ ready, preparseValue it = .ok ready ∧ SamePlace it ready := by
  cases wellFormed with
  | integer kind isHead =>
    obtain ⟨ready, parsed, same, -⟩ := preparse_head isHead (by omega) rest
    exact ⟨ready, parsed, same⟩
  | simple isHead legal =>
    obtain ⟨ready, parsed, same, -⟩ := preparse_simple isHead legal rest
    exact ⟨ready, parsed, same⟩
  | string kind isHead =>
    rw [List.append_assoc] at rest
    obtain ⟨ready, parsed, same, -⟩ := preparse_head isHead (by omega) rest
    exact ⟨ready, parsed, same⟩
  | chunks kind each counted =>
    obtain ⟨ready, parsed, same, -⟩ := preparse_open (by omega) rest
    exact ⟨ready, parsed, same⟩
  | container kind isHead counted short each =>
    rw [List.append_assoc] at rest
    obtain ⟨ready, parsed, same, -⟩ := preparse_head isHead (by omega) rest
    exact ⟨ready, parsed, same⟩
  | openContainer kind pairs each =>
    obtain ⟨ready, parsed, same, -⟩ := preparse_open (by omega) rest
    exact ⟨ready, parsed, same⟩
  | tag isHead inner =>
    rw [List.append_assoc] at rest
    obtain ⟨ready, parsed, same, -⟩ := preparse_head isHead (by decide) rest
    exact ⟨ready, parsed, same⟩

theorem Ready.atOpen (ready : Ready it) (kind : 2 ≤ major ∧ major ≤ 5) (rest : it.rest = openByte major :: tail) :
    AtOpen major it := by
  obtain ⟨before, same, parsed⟩ := ready
  rw [same.rest] at rest
  obtain ⟨value, again, -, at_⟩ := preparse_open kind rest
  obtain rfl := Except.ok.inj (parsed.symm.trans again)
  exact at_

/-- The type of a parsed value follows from the first byte, except that of a simple value. -/
theorem Ready.typed (ready : Ready it) (wellFormed : WellFormed limit depth item) (rest : it.rest = item ++ tail) :
    ∃ major, majorOf item = some major ∧ ((major < 7 ∧ it.type = majorTypeOf major) ∨
      (major = 7 ∧ isFixedType it.type = true ∧ it.isTag = false ∧ it.isValid = true)) := by
  cases wellFormed with
  | @integer _ major argument _ kind isHead =>
    have first := isHead.majorOf (by omega) []
    rw [List.append_nil] at first
    exact ⟨major, first, .inl ⟨by omega, (ready.atHead isHead (by omega) rest).type⟩⟩
  | simple isHead legal =>
    have first := isHead.majorOf (by decide) []
    rw [List.append_nil] at first
    have at_ := ready.atFixed isHead legal rest
    exact ⟨7, first, .inr ⟨rfl, at_.fixed, at_.notTag, at_.valid⟩⟩
  | @string _ major _ _ kind isHead =>
    rw [List.append_assoc] at rest
    exact ⟨major, isHead.majorOf (by omega) _, .inl ⟨by omega, (ready.atHead isHead (by omega) rest).type⟩⟩
  | @chunks _ major _ kind each counted =>
    exact ⟨major, openByte_majorOf (by omega) _, .inl ⟨by omega, (ready.atOpen (by omega) rest).type⟩⟩
  | @container _ major _ _ _ kind isHead counted short each =>
    rw [List.append_assoc] at rest
    exact ⟨major, isHead.majorOf (by omega) _, .inl ⟨by omega, (ready.atHead isHead (by omega) rest).type⟩⟩
  | @openContainer _ major _ kind pairs each =>
    exact ⟨major, openByte_majorOf (by omega) _, .inl ⟨by omega, (ready.atOpen (by omega) rest).type⟩⟩
  | tag isHead inner =>
    rw [List.append_assoc] at rest
    exact ⟨6, isHead.majorOf (by decide) _, .inl ⟨by decide, (ready.atHead isHead (by decide) rest).type⟩⟩

theorem Ready.valid (ready : Ready it) (wellFormed : WellFormed limit depth item) (rest : it.rest = item ++ tail) :
    it.isValid = true := by
  obtain ⟨major, -, ⟨known, type⟩ | ⟨-, -, -, valid⟩⟩ := ready.typed wellFormed rest
  · rw [CborValue.isValid, type]
    unfold majorTypeOf
    split <;> rfl
  · exact valid

/-- Only a tag is parsed as a tag. -/
theorem Ready.bare (ready : Ready it) (wellFormed : WellFormed limit depth item) (rest : it.rest = item ++ tail)
    (untagged : majorOf item ≠ some 6) : it.isTag = false := by
  obtain ⟨major, first, ⟨known, type⟩ | ⟨-, -, notTag, -⟩⟩ := ready.typed wellFormed rest
  · rw [CborValue.isTag, type]
    unfold majorTypeOf
    split <;> first | rfl | exact absurd first untagged
  · exact notTag

/-- Only a text string is parsed as a text string. -/
theorem Ready.notText (ready : Ready it) (wellFormed : WellFormed limit depth item) (rest : it.rest = item ++ tail)
    (other : majorOf item ≠ some 3) : it.isTextString = false := by
  obtain ⟨major, first, ⟨known, type⟩ | ⟨-, fixed, -, -⟩⟩ := ready.typed wellFormed rest
  · rw [CborValue.isTextString, type]
    unfold majorTypeOf
    split <;> first | rfl | exact absurd first other
  · simp only [isFixedType, Bool.and_eq_true, bne_iff_ne] at fixed
    simpa [CborValue.isTextString] using fixed.1.1.1

/-- A parsed string has the type of a string. -/
theorem Ready.stringType {content bare : Bytes} (ready : Ready it) (kind : major = 2 ∨ major = 3)
    (string : StringOf major content bare) (rest : it.rest = bare ++ tail) : it.type = majorTypeOf major := by
  cases string with
  | whole isHead => exact (ready.atString kind isHead rest).type
  | chunks each same => exact (ready.atOpen (by omega) rest).type

end

/-! From one item to the next. -/

/-- The value behind an item, before what follows is parsed. -/
structure Past (it : CborValue) (tail : Bytes) (behind : CborValue) : Prop where
  rest : behind.rest = tail
  remaining : behind.remaining = it.remaining
  notTag : behind.isTag = false
  containerIsMap : behind.flags.containerIsMap = it.flags.containerIsMap
  nextIsMapKey : behind.flags.nextIsMapKey = it.flags.nextIsMapKey

def ending (broken : Bool) : Bytes := if broken then [breakByte] else []

/-- So many items are ahead in a container, which a break ends or its count; the first of
them, if there is one, has been parsed. -/
structure AheadOf (broken isMap : Bool) (items : List Bytes) (tail : Bytes) (it : CborValue) : Prop where
  rest : it.rest = items.flatten ++ (ending broken ++ tail)
  remaining : it.remaining = if broken && !items.isEmpty then uint32Max else items.length
  container : broken = true → items ≠ [] → it.flags.containerIsMap = isMap
  parity : broken = true → items ≠ [] → isMap = true → it.flags.nextIsMapKey = (items.length % 2 == 1)
  ready : items ≠ [] → Ready it
  done : items = [] → it.type = .invalid ∧ it.flags.unknownLength = broken

/-- How many items a container may have ahead for the loop to count them. -/
def Countable (broken : Bool) (items : List Bytes) : Prop := broken = false → items.length < uint32Max

theorem countable_broken (items : List Bytes) : Countable true items := fun counted => absurd counted.symm Bool.false_ne_true

theorem SamePlace.ready {before after : CborValue} (same : SamePlace before after) (parsed : preparseValue before = .ok after) :
    Ready after := ready_of_preparse same parsed

section
variable {limit depth : Nat} {broken isMap : Bool} {items : List Bytes} {item tail : Bytes} {it behind : CborValue}

/-- Nothing is ahead when the count of the container is used up. -/
theorem AheadOf.last (rest : it.rest = tail) (remaining : it.remaining = 0) (type : it.type = .invalid)
    (known : it.flags.unknownLength = false) : AheadOf false isMap [] tail it :=
  ⟨rest, remaining, fun ends => absurd ends Bool.false_ne_true, fun ends => absurd ends Bool.false_ne_true,
    fun some => absurd rfl some, fun _ => ⟨type, known⟩⟩

/-- Parsing the first item that is ahead, or finding the end. -/
theorem AheadOf.parse (rest : it.rest = items.flatten ++ (ending broken ++ tail))
    (remaining : it.remaining = if broken then uint32Max else items.length)
    (container : broken = true → it.flags.containerIsMap = isMap)
    (parity : broken = true → isMap = true → it.flags.nextIsMapKey = (items.length % 2 == 1))
    (notTag : it.isTag = false) (countable : Countable broken items) (some : broken = false → items ≠ [])
    (each : ∀ item ∈ items, WellFormed limit depth item) :
    ∃ next, preparseNextValueNodecrement it = .ok next ∧ AheadOf broken isMap items tail next := by
  cases items with
  | nil =>
    cases broken with
    | false => exact absurd rfl (some rfl)
    | true =>
      have atBreak : it.remaining = uint32Max ∧ it.rest.head? = .some 0xff := by
        rw [remaining, rest]
        exact ⟨rfl, rfl⟩
      have even : (it.flags.containerIsMap && it.flags.nextIsMapKey || it.isTag) = false := by
        rw [container rfl, notTag, Bool.or_false]
        cases isMap with
        | false => rfl
        | true =>
          rw [parity rfl rfl]
          rfl
      unfold preparseNextValueNodecrement
      rw [if_pos atBreak, even]
      refine ⟨_, rfl, rest, rfl, fun _ none => absurd rfl none, fun _ none => absurd rfl none, fun none => absurd rfl none,
        fun _ => ⟨rfl, rfl⟩⟩
  | cons first items =>
    have place : it.rest = first ++ (items.flatten ++ (ending broken ++ tail)) := by simpa using rest
    have notBreak : ¬ (it.remaining = uint32Max ∧ it.rest.head? = .some 0xff) := by
      rintro ⟨-, byte⟩
      rw [place] at byte
      exact (each first (by simp)).notBreak _ byte
    obtain ⟨next, parsed, same⟩ := preparse_wellFormed (each first (by simp)) place
    unfold preparseNextValueNodecrement
    rw [if_neg notBreak]
    refine ⟨next, parsed, ?_, ?_, ?_, ?_, fun _ => same.ready parsed,
      fun none => absurd none (List.cons_ne_nil _ _)⟩
    · rw [same.rest, rest]
    · rw [same.remaining, remaining]
      cases broken <;> rfl
    · intro ends _
      rw [same.containerIsMap, container ends]
    · intro ends _ map
      rw [same.nextIsMapKey, parity ends map]

/-- Behind an item the next one is parsed, if there is one. -/
theorem Past.next (ahead : AheadOf broken isMap (item :: items) tail it)
    (past : Past it (items.flatten ++ (ending broken ++ tail)) behind) (countable : Countable broken (item :: items))
    (each : ∀ item ∈ items, WellFormed limit depth item) :
    ∃ next, preparseNextValue behind = .ok next ∧ AheadOf broken isMap items tail next := by
  cases broken with
  | true =>
    unfold preparseNextValue
    rw [past.notTag]
    have remaining : behind.remaining = uint32Max := by
      rw [past.remaining, ahead.remaining]
      rfl
    have same : (behind.remaining != uint32Max) = false := by simp [remaining]
    simp only [Bool.not_false, Bool.true_and, same, Bool.false_eq_true, if_false, if_true, Bool.false_and]
    have parity : isMap = true → (!behind.flags.nextIsMapKey) = (items.length % 2 == 1) := by
      intro map
      rw [past.nextIsMapKey, ahead.parity rfl (by simp) map, List.length_cons]
      rcases Nat.mod_two_eq_zero_or_one items.length with zero | one
      · rw [show (items.length + 1) % 2 = 1 by omega, zero]
        rfl
      · rw [show (items.length + 1) % 2 = 0 by omega, one]
        rfl
    exact AheadOf.parse past.rest remaining (fun _ => by rw [← ahead.container rfl (by simp)]; exact past.containerIsMap)
      (fun _ => parity) past.notTag (countable_broken _) (fun counted => absurd counted.symm Bool.false_ne_true) each
  | false =>
    have short := countable rfl
    rw [List.length_cons] at short
    have remaining : behind.remaining = items.length + 1 := by
      rw [past.remaining, ahead.remaining]
      rfl
    rw [preparseNextValue_counted past.notTag remaining (by omega)]
    cases items with
    | nil => exact ⟨_, rfl, AheadOf.last past.rest rfl rfl rfl⟩
    | cons following items =>
      rw [if_neg (by simp)]
      exact AheadOf.parse past.rest rfl (fun ends => absurd ends Bool.false_ne_true)
        (fun ends => absurd ends Bool.false_ne_true) past.notTag
        (fun _ => by omega) (fun _ => by simp) each

end

/-! Strings, in one piece or in chunks. -/

/-- Whether the pieces of a string pass `func`, each with the offset that it has. -/
def piecesPass (func : Nat → Bytes → Bool) (buflen : Nat) : Nat → Bool → List Bytes → Bool
  | _, result, [] => result
  | offset, result, piece :: pieces =>
    piecesPass func buflen (offset + piece.length)
      (result && decide (offset + piece.length ≤ buflen) && func offset piece) pieces

/-- The result for all pieces and, where the buffer has room for it, a zero byte. -/
def piecesResult (func : Nat → Bytes → Bool) (buflen : Nat) (pieces : List Bytes) : Bool :=
  let result := piecesPass func buflen 0 true pieces
  if result && decide (pieces.flatten.length < buflen) then func pieces.flatten.length [0] else result

theorem piecesPass_false (func : Nat → Bytes → Bool) (buflen offset : Nat) (pieces : List Bytes) :
    piecesPass func buflen offset false pieces = false := by
  induction pieces generalizing offset with
  | nil => rfl
  | cons piece pieces ih => exact ih _

theorem piecesPass_all {buflen offset : Nat} {pieces : List Bytes} (enough : offset + pieces.flatten.length ≤ buflen) :
    piecesPass (fun _ _ => true) buflen offset true pieces = true := by
  induction pieces generalizing offset with
  | nil => rfl
  | cons piece pieces ih =>
    rw [List.flatten_cons, List.length_append] at enough
    have fits : offset + piece.length ≤ buflen := by omega
    rw [piecesPass, decide_eq_true fits]
    exact ih (by omega)

/-- Comparing piece by piece compares with the part of the name that is left. -/
theorem piecesPass_memcmp {name : Bytes} {offset : Nat} (pieces : List Bytes) (inside : offset ≤ name.length) :
    piecesPass (iterateMemcmp name) name.length offset true pieces =
      decide ((name.drop offset).take pieces.flatten.length = pieces.flatten) := by
  induction pieces generalizing offset with
  | nil => simp [piecesPass]
  | cons piece pieces ih =>
    rw [piecesPass, Bool.true_and, List.flatten_cons, List.length_append, List.take_add, List.drop_drop]
    by_cases same : (name.drop offset).take piece.length = piece
    · have fits : offset + piece.length ≤ name.length := by
        have length := congrArg List.length same
        rw [List.length_take, List.length_drop] at length
        omega
      have passes : (decide (offset + piece.length ≤ name.length) && iterateMemcmp name offset piece) = true := by
        simp [fits, iterateMemcmp, same]
      rw [passes, ih fits, same]
      simp
    · have fails : (decide (offset + piece.length ≤ name.length) && iterateMemcmp name offset piece) = false := by
        simp [iterateMemcmp, same]
      have differs : (name.drop offset).take piece.length ++ (name.drop (offset + piece.length)).take pieces.flatten.length ≠
          piece ++ pieces.flatten := by
        intro equal
        have long : piece.length ≤ (name.drop offset).length := by
          have length := congrArg List.length equal
          simp only [List.length_append, List.length_take, List.length_drop] at length ⊢
          omega
        exact same (List.append_inj_left equal (by rw [List.length_take]; omega))
      rw [fails, piecesPass_false, decide_eq_false differs]

/-- With a zero byte at the end, comparing piece by piece finds the same names. -/
theorem piecesResult_memcmp {name : Bytes} (nonzero : 0 ∉ name) (pieces : List Bytes) :
    piecesResult (iterateMemcmp name) name.length pieces = decide (pieces.flatten = name) := by
  have compared := piecesPass_memcmp pieces (Nat.zero_le name.length)
  rw [List.drop_zero] at compared
  unfold piecesResult
  dsimp only
  rw [compared]
  by_cases isPrefix : name.take pieces.flatten.length = pieces.flatten
  · rw [decide_eq_true isPrefix, Bool.true_and]
    by_cases shorter : pieces.flatten.length < name.length
    · have differs : pieces.flatten ≠ name := by
        intro same
        rw [same] at shorter
        exact Nat.lt_irrefl _ shorter
      have behind : (name.drop pieces.flatten.length).take 1 ≠ [0] := by
        intro zero
        have held : (0 : UInt8) ∈ (name.drop pieces.flatten.length).take 1 := by rw [zero]; simp
        exact nonzero (List.mem_of_mem_drop (List.mem_of_mem_take held))
      rw [decide_eq_true shorter, if_pos rfl, decide_eq_false differs]
      simpa [iterateMemcmp] using behind
    · have same : pieces.flatten = name := by
        rw [← isPrefix]
        exact List.take_of_length_le (by omega)
      rw [decide_eq_false shorter, decide_eq_true same]
      rfl
  · have differs : pieces.flatten ≠ name := by
      intro same
      rw [same, List.take_length] at isPrefix
      exact isPrefix rfl
    rw [decide_eq_false isPrefix, decide_eq_false differs]
    rfl

/-- The value while the chunks of a string are gone through. -/
structure AtChunks (major : Nat) (from_ it : CborValue) : Prop where
  type : it.type = majorTypeOf major
  unknown : it.flags.unknownLength = true
  remaining : it.remaining = from_.remaining
  containerIsMap : it.flags.containerIsMap = from_.flags.containerIsMap
  nextIsMapKey : it.flags.nextIsMapKey = from_.flags.nextIsMapKey

section
variable {major : Nat} {tail : Bytes} {from_ it : CborValue}

theorem getStringChunk_chunk {chunk : Chunk} {more : Bytes} (kind : major = 2 ∨ major = 3) (at_ : AtChunks major from_ it)
    (isHead : Head major chunk.content.length chunk.start) (rest : it.rest = chunk.bytes ++ more) :
    ∃ next, getStringChunk it = .ok (chunk.content, next) ∧ next.rest = more ∧ AtChunks major from_ next := by
  have going : (it.isLengthKnown && !it.flags.negativeInteger) = false := by simp [CborValue.isLengthKnown, at_.unknown]
  have size := getStringChunkSize_string kind at_.type going isHead rest
  have behind : (advanceBytes it chunk.start.length).rest = chunk.content ++ more := by
    simp [advanceBytes, rest, Chunk.bytes]
  have readable : canReadBytes (advanceBytes it chunk.start.length) chunk.content.length = true := by
    simp [canReadBytes, behind]
  unfold getStringChunk
  rw [size]
  simp only [bind, Except.bind, readable, if_true, behind, List.take_left]
  refine ⟨_, rfl, ?_, at_.type, at_.unknown, at_.remaining, at_.containerIsMap, at_.nextIsMapKey⟩
  rw [advanceBytes, behind, List.drop_left]

theorem getStringChunk_break {more : Bytes} (at_ : AtChunks major from_ it) (rest : it.rest = breakByte :: more) :
    getStringChunk it = .error (.error .noMoreStringChunks) := by
  have size : getStringChunkSize it = .error (.error .noMoreStringChunks) := by
    simp [getStringChunkSize, CborValue.isLengthKnown, at_.unknown, rest, breakByte, failWith, throw, throwThe,
      MonadExceptOf.throw]
  simp [getStringChunk, size, bind, Except.bind]

/-- The loop hands over the chunks and stops at the break. -/
theorem iterateChunks_chunks {chunks : List Chunk} (kind : major = 2 ∨ major = 3) (each : Chunked major chunks)
    (at_ : AtChunks major from_ it) (rest : it.rest = chunkBytes chunks ++ breakByte :: tail) :
    ∃ last, last.rest = breakByte :: tail ∧ AtChunks major from_ last ∧
      ∀ func buflen fuel result data, chunks.length < fuel → iterateChunks func buflen fuel it result data =
        .ok (piecesPass func buflen data.length result (chunks.map Chunk.content), data ++ contentOf chunks, last) := by
  induction chunks generalizing it with
  | nil =>
    refine ⟨it, rest, at_, ?_⟩
    intro func buflen fuel result data enough
    cases fuel with
    | zero => cases enough
    | succ fuel =>
      rw [iterateChunks, getStringChunk_break at_ rest]
      simp [piecesPass, contentOf, pure, Except.pure]
  | cons chunk chunks ih =>
    have place : it.rest = chunk.bytes ++ (chunkBytes chunks ++ breakByte :: tail) := by
      rw [rest, chunkBytes, List.flatMap_cons, List.append_assoc]
      rfl
    obtain ⟨next, taken, left, atNext⟩ := getStringChunk_chunk kind at_ (each chunk (by simp)) place
    obtain ⟨last, stopped, atLast, passed⟩ := ih (fun other member => each other (by simp [member])) atNext left
    refine ⟨last, stopped, atLast, ?_⟩
    intro func buflen fuel result data enough
    cases fuel with
    | zero => cases enough
    | succ fuel =>
      rw [iterateChunks, taken]
      dsimp only
      rw [passed _ _ _ _ _ (Nat.lt_of_succ_lt_succ enough)]
      simp [piecesPass, contentOf]

end

theorem chunkBytes_length {major : Nat} {chunks : List Chunk} (each : Chunked major chunks) :
    chunks.length ≤ (chunkBytes chunks).length := by
  induction chunks with
  | nil => exact Nat.le_refl _
  | cons chunk chunks ih =>
    have first := (each chunk (by simp)).length_pos
    have others := ih fun other member => each other (by simp [member])
    simp only [chunkBytes, List.flatMap_cons, List.length_cons, List.length_append, Chunk.bytes] at others ⊢
    omega

section
variable {major : Nat} {content bare tail : Bytes} {it : CborValue}

theorem Past.ofString (string : AtString major content tail it) : Past it tail (pastString it tail) :=
  ⟨rfl, rfl, (pastString_behind string).notTag, rfl, rfl⟩

/-- Iterating a string hands over its pieces and goes on behind it. -/
theorem iterateStringChunks_pieces (ready : Ready it) (kind : major = 2 ∨ major = 3) (string : StringOf major content bare)
    (rest : it.rest = bare ++ tail) :
    ∃ behind pieces, Past it tail behind ∧ pieces.flatten = content ∧ ∀ buflen func, iterateStringChunks it buflen func =
      (preparseNextValue behind).map fun next => (piecesResult func buflen pieces, content, next) := by
  cases string with
  | whole isHead =>
    have at_ := ready.atString kind isHead rest
    refine ⟨pastString it tail, [content], Past.ofString at_, by simp, ?_⟩
    intro buflen func
    rw [iterateStringChunks_string at_]
    simp [piecesResult, piecesPass, stringResult]
  | @chunks chunks each same =>
    have at_ := ready.atOpen (by omega) rest
    have isString := isString_of_type at_.type kind
    have notTag : majorTypeOf major ≠ .tag := by
      rcases kind with rfl | rfl <;> decide
    have begun : AtChunks major it (beginStringIteration it) := by
      refine ⟨?_, ?_, ?_, ?_, ?_⟩ <;> simp [beginStringIteration, CborValue.isLengthKnown, at_.unknown, advanceBytes, at_.type]
    have place : (beginStringIteration it).rest = chunkBytes chunks ++ breakByte :: tail := by
      simp [beginStringIteration, CborValue.isLengthKnown, at_.unknown, advanceBytes, rest]
    have enough : chunks.length < it.rest.length + 1 := by
      have long := chunkBytes_length each
      rw [rest]
      simp only [List.length_append, List.length_cons]
      omega
    have flatten : (chunks.map Chunk.content).flatten = content := by
      rw [← same, contentOf, List.flatMap]
    obtain ⟨last, stopped, atLast, passed⟩ := iterateChunks_chunks kind each begun place
    refine ⟨advanceBytes last 1, chunks.map Chunk.content, ⟨?_, atLast.remaining, ?_, atLast.containerIsMap, atLast.nextIsMapKey⟩,
      flatten, ?_⟩
    · simp [advanceBytes, stopped]
    · simp [CborValue.isTag, advanceBytes, atLast.type, notTag]
    · intro buflen func
      have finish : finishStringIteration last = preparseNextValue (advanceBytes last 1) := by
        simp [finishStringIteration, CborValue.isLengthKnown, atLast.unknown]
      unfold iterateStringChunks
      rw [isString]
      simp only [assertThat, if_true, bind, Except.bind, pure, Except.pure, passed _ _ _ _ _ enough, finish, piecesResult,
        flatten, same, List.length_nil, List.nil_append]
      cases preparseNextValue (advanceBytes last 1) <;> rfl

/-- Comparing a string with a name tells whether its content is that name. -/
theorem iterate_name (ready : Ready it) (kind : major = 2 ∨ major = 3) (string : StringOf major content bare)
    (rest : it.rest = bare ++ tail) {name : Bytes} (nonzero : 0 ∉ name) :
    ∃ behind, Past it tail behind ∧ iterateStringChunks it name.length (iterateMemcmp name) =
      (preparseNextValue behind).map fun next => (decide (content = name), content, next) := by
  obtain ⟨behind, pieces, past, same, iterated⟩ := iterateStringChunks_pieces ready kind string rest
  refine ⟨behind, past, ?_⟩
  rw [iterated, piecesResult_memcmp nonzero, same]

theorem copyString_of (ready : Ready it) (kind : major = 2 ∨ major = 3) (string : StringOf major content bare)
    (rest : it.rest = bare ++ tail) {buflen : Nat} (enough : content.length ≤ buflen) :
    ∃ behind, Past it tail behind ∧ copyString it buflen = (preparseNextValue behind).map fun next => (content, next) := by
  obtain ⟨behind, pieces, past, same, iterated⟩ := iterateStringChunks_pieces ready kind string rest
  refine ⟨behind, past, ?_⟩
  have result : piecesResult (fun _ _ => true) buflen pieces = true := by
    unfold piecesResult
    dsimp only
    rw [piecesPass_all (by rw [same, Nat.zero_add]; exact enough)]
    split <;> rfl
  unfold copyString
  rw [iterated, result]
  cases preparseNextValue behind <;> rfl

end

/-! Containers. -/

section
variable {limit depth major count : Nat} {bytes tail : Bytes} {items : List Bytes} {it : CborValue}

/-- Entering a container that says how many items it has puts them ahead. -/
theorem enterContainer_counted (ready : Ready it) (kind : major = 4 ∨ major = 5) (isHead : Head major count bytes)
    (counted : items.length = itemCount major count) (short : items.length < uint32Max)
    (each : ∀ item ∈ items, WellFormed limit depth item) (rest : it.rest = bytes ++ items.flatten ++ tail) :
    ∃ recursed, cborValueEnterContainer it = .ok recursed ∧ AheadOf false (decide (major = 5)) items tail recursed := by
  have at_ := ready.atHead isHead (by omega) (by rw [rest, List.append_assoc])
  have behind : (advanceBytes it bytes.length).rest = items.flatten ++ (ending false ++ tail) := by
    simp [advanceBytes, rest, ending]
  rw [at_.enters kind counted short]
  by_cases none : count = 0
  · have empty : items = [] := List.eq_nil_of_length_eq_zero (by rw [counted, itemCount, none]; split <;> rfl)
    subst empty
    rw [if_pos none]
    exact ⟨_, rfl, AheadOf.last behind rfl rfl at_.known⟩
  · have some : items ≠ [] := by
      rintro rfl
      unfold itemCount at counted
      split at counted <;> simp only [List.length_nil] at counted <;> omega
    rw [if_neg none]
    have notTag := notTag_of_type at_.type (by omega)
    have entered : ∃ recursed, preparseNextValueNodecrement { advanceBytes it bytes.length with
        remaining := items.length, flags := { containerIsMap := it.isMap } } = .ok recursed ∧
        AheadOf false (decide (major = 5)) items tail recursed :=
      AheadOf.parse behind rfl (fun ends => absurd ends Bool.false_ne_true) (fun ends => absurd ends Bool.false_ne_true)
        notTag (fun _ => short) (fun _ => some) each
    exact entered

/-- Entering a container of indefinite length does, too. -/
theorem enterContainer_open (ready : Ready it) (kind : major = 4 ∨ major = 5) (pairs : major = 5 → items.length % 2 = 0)
    (each : ∀ item ∈ items, WellFormed limit depth item)
    (rest : it.rest = openByte major :: (items.flatten ++ [breakByte]) ++ tail) :
    ∃ recursed, cborValueEnterContainer it = .ok recursed ∧ AheadOf true (decide (major = 5)) items tail recursed := by
  have at_ := ready.atOpen (by omega) rest
  have container := isContainer_of_type at_.type kind
  have map := isMap_of_type at_.type kind
  have notTag := notTag_of_type at_.type (by omega)
  unfold cborValueEnterContainer
  rw [container, at_.unknown]
  simp only [assertThat, if_true, bind, Except.bind, pure, Except.pure]
  have behind : (advanceBytes it 1).rest = items.flatten ++ (ending true ++ tail) := by simp [advanceBytes, rest, ending]
  have parity : decide (major = 5) = true → false = (items.length % 2 == 1) := by
    intro five
    rw [pairs (of_decide_eq_true five)]
    rfl
  have entered : ∃ recursed, preparseNextValueNodecrement { advanceBytes it 1 with
      remaining := uint32Max, flags := { containerIsMap := it.isMap } } = .ok recursed ∧
      AheadOf true (decide (major = 5)) items tail recursed :=
    AheadOf.parse behind rfl (fun _ => map) (fun _ => parity) notTag (countable_broken _)
      (fun counted => absurd counted.symm Bool.false_ne_true) each
  exact entered

end

/-! Tags. -/

/-- The value that was reached from `it` without counting an item, and has been parsed. -/
structure Onto (it : CborValue) (rest : Bytes) (reached : CborValue) : Prop where
  ready : Ready reached
  rest : reached.rest = rest
  remaining : reached.remaining = it.remaining
  containerIsMap : reached.flags.containerIsMap = it.flags.containerIsMap
  nextIsMapKey : reached.flags.nextIsMapKey = it.flags.nextIsMapKey

theorem Onto.trans {it middle reached : CborValue} {first second : Bytes} (one : Onto it first middle)
    (two : Onto middle second reached) : Onto it second reached :=
  ⟨two.ready, two.rest, two.remaining.trans one.remaining, two.containerIsMap.trans one.containerIsMap,
    two.nextIsMapKey.trans one.nextIsMapKey⟩

theorem Past.onto {it reached behind : CborValue} {rest tail : Bytes} (onto : Onto it rest reached)
    (past : Past reached tail behind) : Past it tail behind :=
  ⟨past.rest, past.remaining.trans onto.remaining, past.notTag, past.containerIsMap.trans onto.containerIsMap,
    past.nextIsMapKey.trans onto.nextIsMapKey⟩

/-- An item that is ahead may be exchanged for the one that was reached in its place. -/
theorem AheadOf.onto {broken isMap : Bool} {item bare : Bytes} {items : List Bytes} {tail : Bytes} {it reached : CborValue}
    (ahead : AheadOf broken isMap (item :: items) tail it)
    (onto : Onto it (bare ++ (items.flatten ++ (ending broken ++ tail))) reached) :
    AheadOf broken isMap (bare :: items) tail reached := by
  refine ⟨by simpa using onto.rest, ?_, ?_, ?_, fun _ => onto.ready, fun none => absurd none (List.cons_ne_nil _ _)⟩
  · exact onto.remaining.trans ahead.remaining
  · intro ends _
    exact onto.containerIsMap.trans (ahead.container ends (by simp))
  · intro ends _ map
    exact onto.nextIsMapKey.trans (ahead.parity ends (by simp) map)

section
variable {limit depth number : Nat} {bytes item bare tail : Bytes} {it : CborValue}

/-- Stepping over a tag reaches the item behind it. -/
theorem advance_tag (ready : Ready it) (isHead : Head 6 number bytes) (inner : WellFormed limit depth item)
    (rest : it.rest = bytes ++ item ++ tail) :
    it.isTag = true ∧ isFixedType it.type = true ∧ ∃ reached, advanceInternal it = .ok reached ∧
      Onto it (item ++ tail) reached := by
  rw [List.append_assoc] at rest
  have at_ := ready.atHead isHead (by decide) rest
  have type : it.type = .tag := at_.type
  have fixed : isFixedType it.type = true := by rw [type]; rfl
  refine ⟨by simp [CborValue.isTag, type], fixed, ?_⟩
  have place : (advanceBytes it bytes.length).rest = item ++ tail := by simp [advanceBytes, rest]
  have notBreak : ¬ ((advanceBytes it bytes.length).remaining = uint32Max ∧
      (advanceBytes it bytes.length).rest.head? = some 0xff) := by
    rintro ⟨-, byte⟩
    rw [place] at byte
    exact inner.notBreak tail byte
  obtain ⟨reached, parsed, same⟩ := preparse_wellFormed inner place
  have notString : ((advanceBytes it bytes.length).isByteString || (advanceBytes it bytes.length).isTextString) = false := by
    simp [advanceBytes, CborValue.isByteString, CborValue.isTextString, type]
  have isTag : (advanceBytes it bytes.length).isTag = true := by simp [advanceBytes, CborValue.isTag, type]
  have step : advanceInternal it = .ok reached := by
    unfold advanceInternal
    rw [at_.advance]
    simp only [notString, Bool.false_eq_true, if_false]
    unfold preparseNextValue
    simp only [isTag, Bool.not_true, Bool.false_and, Bool.false_eq_true, if_false]
    unfold preparseNextValueNodecrement
    rw [if_neg notBreak]
    exact parsed
  exact ⟨reached, step, same.ready parsed, same.rest.trans place, same.remaining, same.containerIsMap, same.nextIsMapKey⟩

/-- Skipping the tags in front of an item reaches the item. -/
theorem skipTags_tagged (tagged : Tagged bare item) (wellFormed : WellFormed limit depth bare)
    (untagged : majorOf bare ≠ some 6) (ready : Ready it) (some : it.remaining ≠ 0) (rest : it.rest = item ++ tail)
    {fuel : Nat} (enough : item.length ≤ fuel) :
    ∃ reached, skipTags fuel it = .ok reached ∧ Onto it (bare ++ tail) reached := by
  induction tagged generalizing it fuel with
  | bare =>
    have notTag := ready.bare wellFormed rest untagged
    refine ⟨it, ?_, ready, rest, rfl, rfl, rfl⟩
    cases fuel <;> simp [skipTags, notTag, pure, Except.pure]
  | @tag number bytes item isHead inner ih =>
    obtain ⟨isTag, fixed, reached, advanced, onto⟩ := advance_tag ready isHead (inner.wellFormed wellFormed) rest
    have long := isHead.length_pos
    rw [List.length_append] at enough
    cases fuel with
    | zero => omega
    | succ fuel =>
      have valid := ready.valid (.tag isHead (inner.wellFormed wellFormed)) rest
      have shorter : item.length ≤ fuel := by omega
      obtain ⟨last, skipped, ontoLast⟩ := ih onto.ready (by rw [onto.remaining]; exact some) onto.rest shorter
      refine ⟨last, ?_, onto.trans ontoLast⟩
      rw [← skipped]
      simp [skipTags, isTag, cborValueAdvanceFixed, valid, fixed, assertThat, some, advanced, bind, Except.bind, pure,
        Except.pure]

theorem skipTag_tagged (tagged : Tagged bare item) (wellFormed : WellFormed limit depth bare)
    (untagged : majorOf bare ≠ some 6) (ready : Ready it) (some : it.remaining ≠ 0) (rest : it.rest = item ++ tail) :
    ∃ reached, cborValueSkipTag it = .ok reached ∧ Onto it (bare ++ tail) reached :=
  skipTags_tagged tagged wellFormed untagged ready some rest (by rw [rest, List.length_append]; omega)

end

end AxbyCore.Tinycbor.Proofs
