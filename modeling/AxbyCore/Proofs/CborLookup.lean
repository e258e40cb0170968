import AxbyCore.Proofs.CborSkipping

/-! Finding a key in a map: the entries in front of it are stepped over, and the value
behind it is what is found. -/

namespace AxbyCore.Tinycbor.Proofs
open Rfc8949 Endian

/-- A key that is a text string, and the item of its value. -/
structure Entry where
  name : Bytes
  value : Bytes

def keyItem (name : Bytes) : Bytes := head 3 name.length ++ name

def entryItems (entries : List Entry) : List Bytes := entries.flatMap fun entry => [keyItem entry.name, entry.value]

@[simp] theorem entryItems_cons (entry : Entry) (entries : List Entry) :
    entryItems (entry :: entries) = keyItem entry.name :: entry.value :: entryItems entries := rfl

theorem entryItems_append (first second : List Entry) :
    entryItems (first ++ second) = entryItems first ++ entryItems second := by
  simp [entryItems]

theorem entryItems_length (entries : List Entry) : (entryItems entries).length = entries.length * 2 := by
  induction entries with
  | nil => rfl
  | cons entry entries ih =>
    simp only [entryItems_cons, List.length_cons, ih]
    omega

/-- The entries of a map that can be looked through. -/
structure Entries (depth : Nat) (entries : List Entry) : Prop where
  short : entries.length < 2 ^ 31
  names : ∀ entry ∈ entries, entry.name.length < 2 ^ 64
  values : ∀ entry ∈ entries, Item depth entry.value

section
variable {depth : Nat} {entries : List Entry} {entry : Entry}

theorem Entries.tail (sound : Entries depth (entry :: entries)) : Entries depth entries :=
  ⟨Nat.lt_of_succ_lt sound.short, fun other member => sound.names other (by simp [member]),
    fun other member => sound.values other (by simp [member])⟩

theorem Entries.items (sound : Entries depth entries) : ∀ item ∈ entryItems entries, Item depth item := by
  intro item member
  obtain ⟨entry, held, which⟩ := List.mem_flatMap.mp member
  rcases List.mem_cons.mp which with rfl | which
  · exact .string (Or.inr rfl) (head_isHead 3 (sound.names entry held))
  · obtain rfl := List.mem_singleton.mp which
    exact sound.values entry held

theorem Entries.length_lt (sound : Entries depth entries) : (entryItems entries).length < uint32Max := by
  have short := sound.short
  rw [entryItems_length]
  unfold uint32Max
  omega

end

/-- Comparing chunk by chunk, with a zero byte at the end, finds the same names. -/
theorem stringResult_memcmp {name content : Bytes} (nonzero : 0 ∉ name) :
    stringResult content name.length (iterateMemcmp name) = decide (content = name) := by
  by_cases same : content = name
  · subst same
    simp [stringResult, iterateMemcmp]
  · rw [decide_eq_false same]
    by_cases isPrefix : content.length ≤ name.length ∧ name.take content.length = content
    · obtain ⟨short, equal⟩ := isPrefix
      have shorter : content.length < name.length := by
        apply Nat.lt_of_le_of_ne short
        intro length
        rw [length, List.take_length] at equal
        exact same equal.symm
      have behind : (name.drop content.length).take 1 ≠ [0] := by
        intro zero
        have held : (0 : UInt8) ∈ (name.drop content.length).take 1 := by rw [zero]; simp
        exact nonzero (List.mem_of_mem_drop (List.mem_of_mem_take held))
      simp [stringResult, iterateMemcmp, short, equal, shorter, behind]
    · have differs : (decide (content.length ≤ name.length) && iterateMemcmp name 0 content) = false := by
        simpa [iterateMemcmp] using isPrefix
      simp [stringResult, differs]

section
variable {depth : Nat} {item tail : Bytes} {it : CborValue}

/-- A parsed item is valid and no tag. -/
theorem Ready.notTag (ready : Ready it) (isItem : Item depth item) (rest : it.rest = item ++ tail) :
    it.isTag = false ∧ it.isValid = true := by
  have ofHead : ∀ {major argument : Nat} {size : Nat}, AtHead major argument size it → major < 6 →
      it.isTag = false ∧ it.isValid = true := by
    intro major argument size at_ known
    obtain rfl | rfl | rfl | rfl | rfl | rfl : major = 0 ∨ major = 1 ∨ major = 2 ∨ major = 3 ∨ major = 4 ∨ major = 5 := by
      omega
    all_goals simp [CborValue.isTag, CborValue.isValid, at_.type, majorTypeOf]
  cases isItem with
  | integer kind isHead => exact ofHead (ready.atHead isHead (by omega) rest) (by omega)
  | simple isHead legal =>
    have at_ := ready.atFixed isHead legal rest
    exact ⟨at_.notTag, at_.valid⟩
  | string kind isHead =>
    rw [List.append_assoc] at rest
    exact ofHead (ready.atHead isHead (by omega) rest) (by omega)
  | array isHead short each =>
    rw [List.append_assoc] at rest
    exact ofHead (ready.atHead isHead (by omega) rest) (by omega)
  | map isHead pairs short each =>
    rw [List.append_assoc] at rest
    exact ofHead (ready.atHead isHead (by omega) rest) (by omega)

theorem skipTag_item (ready : Ready it) (isItem : Item depth item) (rest : it.rest = item ++ tail) :
    cborValueSkipTag it = .ok it := by
  have notTag := (ready.notTag isItem rest).1
  unfold cborValueSkipTag
  cases it.rest.length with
  | zero => simp [skipTags, notTag, pure, Except.pure]
  | succ fuel => simp [skipTags, notTag, pure, Except.pure]

end

/-- Advancing over the first of several items puts the others ahead. -/
theorem advance_ahead {depth : Nat} {item tail : Bytes} {items : List Bytes} {it : CborValue}
    (ahead : Ahead (item :: items) tail it) (each : ∀ other ∈ item :: items, Item depth other)
    (deep : depth ≤ cborParserMaxRecursions) (short : (item :: items).length < uint32Max) :
    ∃ next, cborValueAdvance it = .ok next ∧ Ahead items tail next := by
  have place : it.rest = item ++ (items.flatten ++ tail) := by simpa using ahead.rest
  have ready := ahead.ready (by simp)
  have isItem := each item (by simp)
  obtain ⟨behind, past, advanced⟩ := skips_item isItem deep it _ ready place
  rw [List.length_cons] at short
  obtain ⟨next, parsed, aheadNext⟩ := past.next ahead (by omega) fun other member => each other (by simp [member])
  refine ⟨next, ?_, aheadNext⟩
  have valid := (ready.notTag isItem place).2
  have some : ¬ it.remaining = 0 := by
    rw [ahead.remaining]
    simp
  simp [cborValueAdvance, valid, assertThat, some, bind, Except.bind, pure, Except.pure, advanced, parsed]

/-- Comparing the key of the first entry parses its value. -/
theorem compareKey {depth : Nat} {name tail : Bytes} {entry : Entry} {entries : List Entry} {it : CborValue}
    (ahead : Ahead (entryItems (entry :: entries)) tail it) (sound : Entries depth (entry :: entries)) (nonzero : 0 ∉ name) :
    it.isTextString = true ∧ cborValueSkipTag it = .ok it ∧ ∃ next,
      iterateStringChunks it name.length (iterateMemcmp name) = .ok (decide (entry.name = name), entry.name, next) ∧
        Ahead (entry.value :: entryItems entries) tail next := by
  rw [entryItems_cons] at ahead
  have isHead := head_isHead 3 (sound.names entry (by simp))
  have place : it.rest = keyItem entry.name ++ ((entry.value :: entryItems entries).flatten ++ tail) := by
    simpa using ahead.rest
  have ready := ahead.ready (by simp)
  have string := ready.atString (Or.inr rfl) isHead place
  have items := sound.items
  have short := sound.length_lt
  simp only [entryItems_cons, List.length_cons] at short
  obtain ⟨next, parsed, aheadNext⟩ := (pastString_behind string).next ahead
    (by simp only [List.length_cons]; omega) fun other member => items other (by simp [member])
  refine ⟨?_, skipTag_item ready (items (keyItem entry.name) (by simp)) place, next, ?_, aheadNext⟩
  · simp [CborValue.isTextString, string.type, majorTypeOf]
  · rw [iterateStringChunks_string string, parsed, stringResult_memcmp nonzero]
    rfl

/-- A value that has been compared is parsed once more, and is the same. -/
theorem preparse_again {depth : Nat} {item tail : Bytes} {items : List Bytes} {it : CborValue}
    (ahead : Ahead (item :: items) tail it) (isItem : Item depth item) :
    ∃ found, preparseValue it = .ok found ∧ Ahead (item :: items) tail found := by
  have place : it.rest = item ++ (items.flatten ++ tail) := by simpa using ahead.rest
  obtain ⟨found, parsed, same⟩ := preparse_item isItem place
  refine ⟨found, parsed, ?_, ?_, fun _ => ready_of_preparse same parsed, fun none => by cases none⟩
  · rw [same.rest, ahead.rest]
  · rw [same.remaining, ahead.remaining]

/-- The loop finds the first entry with the name, behind others that differ. -/
theorem mapFindLoop_finds {depth : Nat} {name item tail : Bytes} {before after : List Entry} {it : CborValue} {fuel : Nat}
    (ahead : Ahead (entryItems (before ++ ⟨name, item⟩ :: after)) tail it)
    (sound : Entries depth (before ++ ⟨name, item⟩ :: after)) (deep : depth ≤ cborParserMaxRecursions) (nonzero : 0 ∉ name)
    (differ : ∀ entry ∈ before, entry.name ≠ name) (enough : before.length < fuel) :
    ∃ found, mapFindLoop name fuel it = .ok found ∧ Ahead (item :: entryItems after) tail found := by
  induction before generalizing it fuel with
  | nil =>
    cases fuel with
    | zero => cases enough
    | succ fuel =>
      have going : it.atEnd = false := by simp [CborValue.atEnd, ahead.remaining]
      obtain ⟨isText, skipped, next, compared, aheadNext⟩ := compareKey ahead sound nonzero
      obtain ⟨found, again, aheadFound⟩ := preparse_again aheadNext (sound.values ⟨name, item⟩ (by simp))
      refine ⟨found, ?_, aheadFound⟩
      rw [decide_eq_true rfl] at compared
      simp only [mapFindLoop, going, Bool.false_eq_true, if_false, skipped, bind, Except.bind, isText, if_true, compared]
      exact again
  | cons entry before ih =>
    cases fuel with
    | zero => cases enough
    | succ fuel =>
      rw [List.cons_append] at ahead sound
      have going : it.atEnd = false := by simp [CborValue.atEnd, ahead.remaining]
      obtain ⟨isText, skipped, next, compared, aheadNext⟩ := compareKey ahead sound nonzero
      have other : decide (entry.name = name) = false := decide_eq_false (differ entry (by simp))
      rw [other] at compared
      have items := sound.items
      have short := sound.length_lt
      simp only [entryItems_cons, List.length_cons] at short
      have rest : ∀ other ∈ entry.value :: entryItems (before ++ ⟨name, item⟩ :: after), Item depth other :=
        fun other member => items other (by rw [entryItems_cons]; exact List.mem_cons_of_mem _ member)
      have place : next.rest = entry.value ++ ((entryItems (before ++ ⟨name, item⟩ :: after)).flatten ++ tail) := by
        simpa using aheadNext.rest
      have skippedValue := skipTag_item (aheadNext.ready (by simp)) (rest entry.value (by simp)) place
      obtain ⟨following, advanced, aheadFollowing⟩ := advance_ahead aheadNext rest deep
        (by simp only [List.length_cons]; omega)
      obtain ⟨found, reached, aheadFound⟩ := ih aheadFollowing sound.tail
        (fun entry member => differ entry (by simp [member])) (Nat.lt_of_succ_lt_succ enough)
      refine ⟨found, ?_, aheadFound⟩
      simp only [mapFindLoop, going, Bool.false_eq_true, if_false, skipped, bind, Except.bind, isText, if_true, compared,
        skippedValue, advanced]
      exact reached

/-- A name in a map is found with its value. -/
theorem mapFindValue1_finds {depth : Nat} {name item tail bytes : Bytes} {before after : List Entry} {map : CborValue}
    (ready : Ready map) (isHead : Head 5 (before ++ ⟨name, item⟩ :: after).length bytes)
    (rest : map.rest = bytes ++ (entryItems (before ++ ⟨name, item⟩ :: after)).flatten ++ tail)
    (sound : Entries depth (before ++ ⟨name, item⟩ :: after)) (deep : depth ≤ cborParserMaxRecursions) (nonzero : 0 ∉ name)
    (differ : ∀ entry ∈ before, entry.name ≠ name) :
    ∃ found, cborValueMapFindValue1 map name = .ok found ∧ Ahead (item :: entryItems after) tail found := by
  have at_ := ready.atHead isHead (by decide) (by rw [rest, List.append_assoc])
  have contents : Contents 5 (before ++ ⟨name, item⟩ :: after).length depth (entryItems (before ++ ⟨name, item⟩ :: after)) :=
    ⟨Or.inr rfl, entryItems_length _, sound.length_lt, sound.items⟩
  obtain ⟨element, entered, ahead⟩ := enterContainer_ahead at_ contents rest
  have enough : before.length < element.rest.length := by
    have long := length_le_flatten fun item member => (contents.each item member).length_pos
    rw [entryItems_length] at long
    rw [ahead.rest, List.length_append]
    simp only [List.length_append, List.length_cons] at long
    omega
  obtain ⟨found, reached, aheadFound⟩ := mapFindLoop_finds ahead sound deep nonzero differ enough
  refine ⟨found, ?_, aheadFound⟩
  have isMap := at_.isMap (Or.inr rfl)
  simp [cborValueMapFindValue1, isMap, assertThat, bind, Except.bind, pure, Except.pure, entered, reached]

end AxbyCore.Tinycbor.Proofs
