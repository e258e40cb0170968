import AxbyCore.Library.Rfc8949
import AxbyCore.Tinycbor.Parser

/-! What the parser makes of a head, and of an item it steps over. -/

namespace AxbyCore.Tinycbor.Proofs
open Rfc8949 Endian

/-- The value at a head, whose argument has been read or is behind the first byte. -/
structure AtHead (major argument size : Nat) (it : CborValue) : Prop where
  type : it.type = majorTypeOf major
  value : it.extractInt64Helper = argument
  advance : extractNumberAndAdvance it = (argument, advanceBytes it size)
  known : it.flags.unknownLength = false
  negative : it.flags.negativeInteger = (major == 1)
  iterating : it.flags.iteratingStringChunks = false

/-- What parsing the head leaves as it was. -/
structure SamePlace (before after : CborValue) : Prop where
  rest : after.rest = before.rest
  remaining : after.remaining = before.remaining
  containerIsMap : after.flags.containerIsMap = before.flags.containerIsMap
  nextIsMapKey : after.flags.nextIsMapKey = before.flags.nextIsMapKey

/-! The kind of a value follows from its major type. -/

section
variable {major : Nat} {it : CborValue} (type : it.type = majorTypeOf major)
include type

theorem isString_of_type (kind : major = 2 ∨ major = 3) : (it.isByteString || it.isTextString) = true := by
  rcases kind with rfl | rfl
  · simp [CborValue.isByteString, type, majorTypeOf]
  · simp [CborValue.isTextString, type, majorTypeOf]

theorem isContainer_of_type (kind : major = 4 ∨ major = 5) : it.isContainer = true := by
  rcases kind with rfl | rfl <;> simp [CborValue.isContainer, type, majorTypeOf]

theorem notContainer_of_type (kind : major = 2 ∨ major = 3) : it.isContainer = false := by
  rcases kind with rfl | rfl <;> simp [CborValue.isContainer, type, majorTypeOf]

theorem isMap_of_type (kind : major = 4 ∨ major = 5) : it.isMap = decide (major = 5) := by
  rcases kind with rfl | rfl <;> simp [CborValue.isMap, type, majorTypeOf]

theorem notFixed_of_type (kind : 2 ≤ major ∧ major ≤ 5) : isFixedType it.type = false := by
  rw [type]
  obtain rfl | rfl | rfl | rfl : major = 2 ∨ major = 3 ∨ major = 4 ∨ major = 5 := by omega
  all_goals rfl

theorem notTag_of_type (kind : 2 ≤ major ∧ major ≤ 5) : it.isTag = false := by
  rw [CborValue.isTag, type]
  obtain rfl | rfl | rfl | rfl : major = 2 ∨ major = 3 ∨ major = 4 ∨ major = 5 := by omega
  all_goals rfl

end

section
variable {major argument : Nat} {it : CborValue} {tail : Bytes}

theorem toNat_headByte {descriptor : Nat} (known : major < 8) (small : descriptor < 32) :
    (UInt8.ofNat (32 * major + descriptor)).toNat = 32 * major + descriptor := by
  rw [UInt8.toNat_ofNat']
  omega

theorem smallValue_headByte {descriptor : Nat} (known : major < 8) (small : descriptor < 32) :
    smallValue (UInt8.ofNat (32 * major + descriptor)) = descriptor := by
  rw [smallValue, toNat_headByte known small]
  omega

theorem major_headByte {descriptor : Nat} (known : major < 8) (small : descriptor < 32) :
    (UInt8.ofNat (32 * major + descriptor)).toNat / 32 = major := by
  rw [toNat_headByte known small]
  omega

theorem readUint_wide {more : Nat} (fits : argument < 256 ^ 2 ^ more) (rest : it.rest = wideHead major more argument ++ tail) :
    it.readUint 1 (2 ^ more) = argument := by
  have behind : (it.rest.drop 1).take (2 ^ more) = big (2 ^ more) argument := by
    rw [rest, wideHead, List.cons_append, List.drop_one, List.tail_cons]
    rw [List.take_append_of_le_length (by simp), List.take_of_length_le (by simp)]
  rw [CborValue.readUint, behind, ofBig_big_of_lt fits]

theorem classify_number (descriptor : Nat) (notSimple : major ≠ 7) (it : CborValue)
    (unmarked : it.flags.negativeInteger = false) :
    classify it major descriptor = .ok { it with flags := { it.flags with negativeInteger := major == 1 } } := by
  unfold classify
  by_cases negative : major = 1
  · subst negative
    rfl
  · have bit : (major == 1) = false := by simpa using negative
    rw [if_neg negative, if_neg notSimple, bit, ← unmarked]
    rfl

/-- Parsing a head whose first byte and size are known. -/
theorem preparse_first {byte : UInt8} {descriptor : Nat} (first : it.rest.head? = some byte)
    (type : byte.toNat / 32 = major) (value : smallValue byte = descriptor) (low : descriptor ≤ 27)
    (long : bytesNeeded descriptor + 1 ≤ it.rest.length) :
    preparseValue it = classify (readExtra { it with type := majorTypeOf major, extra := descriptor, flags := it.flags.keep }
      (bytesNeeded descriptor)) major descriptor := by
  have readable : ¬ (bytesNeeded descriptor ≠ 0 ∧ !canReadBytes it (bytesNeeded descriptor + 1)) := by
    simp [canReadBytes, long]
  unfold preparseValue
  rw [first]
  dsimp only
  rw [value, type, if_neg (by omega)]
  exact if_neg readable

theorem readExtra_samePlace (it : CborValue) (needed : Nat) : SamePlace it (readExtra it needed) := by
  unfold readExtra
  split <;> exact ⟨rfl, rfl, rfl, rfl⟩

theorem readExtra_type (it : CborValue) (needed : Nat) : (readExtra it needed).type = it.type := by
  unfold readExtra
  split <;> rfl

theorem SamePlace.trans {first second third : CborValue} (one : SamePlace first second) (two : SamePlace second third) :
    SamePlace first third :=
  ⟨two.rest.trans one.rest, two.remaining.trans one.remaining, two.containerIsMap.trans one.containerIsMap,
    two.nextIsMapKey.trans one.nextIsMapKey⟩

/-- The first byte of a head and the bytes it needs. -/
theorem head_first {bytes : Bytes} (isHead : Head major argument bytes) (known : major < 8)
    (rest : it.rest = bytes ++ tail) :
    ∃ byte descriptor, it.rest.head? = some byte ∧ byte.toNat / 32 = major ∧ smallValue byte = descriptor ∧
      descriptor ≤ 27 ∧ bytesNeeded descriptor + 1 = bytes.length ∧
      (descriptor < 24 → descriptor = argument) ∧ (24 ≤ descriptor → it.readUint 1 (bytesNeeded descriptor) = argument) := by
  cases isHead with
  | short small =>
    have none : bytesNeeded argument = 0 := by simp [bytesNeeded, small]
    refine ⟨UInt8.ofNat (32 * major + argument), argument, by rw [rest]; rfl, major_headByte known (by omega),
      smallValue_headByte known (by omega), by omega, by simp [none, shortHead], fun _ => rfl, fun _ => by omega⟩
  | wide more width fits =>
    have needed : bytesNeeded (24 + more) = 2 ^ more := by
      rw [bytesNeeded, if_neg (by omega), Nat.add_sub_cancel_left]
    refine ⟨UInt8.ofNat (32 * major + (24 + more)), 24 + more, by rw [rest, ← Nat.add_assoc]; rfl,
      major_headByte known (by omega), smallValue_headByte known (by omega), by omega, ?_, fun _ => by omega, fun _ => ?_⟩
    · rw [needed, wideHead_length]
    · rw [needed]
      exact readUint_wide fits rest

/-- The value once the argument of its head has been read, before it is classified. -/
structure HeadRead (major argument size descriptor : Nat) (it read : CborValue) : Prop where
  same : SamePlace it read
  type : read.type = majorTypeOf major
  value : read.extractInt64Helper = argument
  negative : read.flags.negativeInteger = false
  known : read.flags.unknownLength = false
  iterating : read.flags.iteratingStringChunks = false
  again : (it.rest.head?.map smallValue).getD 0 = descriptor
  size : bytesNeeded descriptor + 1 = size
  byte : descriptor = 24 → read.extra = argument

theorem readExtra_flags (it : CborValue) (needed : Nat) :
    (readExtra it needed).flags.negativeInteger = it.flags.negativeInteger ∧
      (readExtra it needed).flags.unknownLength = it.flags.unknownLength ∧
      (readExtra it needed).flags.iteratingStringChunks = it.flags.iteratingStringChunks := by
  unfold readExtra
  split <;> exact ⟨rfl, rfl, rfl⟩

/-- An argument is the descriptor, or in as many bytes as the descriptor tells. -/
theorem readExtra_value {descriptor : Nat} (low : descriptor ≤ 27) (short : descriptor < 24 → descriptor = argument)
    (number : 24 ≤ descriptor → it.readUint 1 (bytesNeeded descriptor) = argument) (extra : it.extra = descriptor)
    (small : it.flags.integerValueTooLarge = false) (narrow : it.flags.integerValueIs64Bit = false) :
    (readExtra it (bytesNeeded descriptor)).extractInt64Helper = argument := by
  by_cases one : descriptor < 24
  · have none : bytesNeeded descriptor = 0 := by simp [bytesNeeded, one]
    rw [none, readExtra, CborValue.extractInt64Helper, small, extra]
    exact short one
  · have read := number (by omega)
    obtain rfl | rfl | rfl | rfl : descriptor = 24 ∨ descriptor = 25 ∨ descriptor = 26 ∨ descriptor = 27 := by omega
    · rw [← read]
      simp [readExtra, bytesNeeded, CborValue.extractInt64Helper, small]
    · rw [← read]
      simp [readExtra, bytesNeeded, CborValue.extractInt64Helper, small]
    · rw [← read]
      simp [readExtra, bytesNeeded, CborValue.extractInt64Helper, CborValue.decodeInt64Internal, narrow, CborValue.readUint]
    · rw [← read]
      simp [readExtra, bytesNeeded, CborValue.extractInt64Helper, CborValue.decodeInt64Internal, CborValue.readUint]

theorem preparse_reads {bytes : Bytes} (isHead : Head major argument bytes) (known : major < 8)
    (rest : it.rest = bytes ++ tail) :
    ∃ descriptor read, preparseValue it = classify read major descriptor ∧
      HeadRead major argument bytes.length descriptor it read := by
  obtain ⟨byte, descriptor, first, type, value, low, size, short, number⟩ := head_first isHead known rest
  have long : bytesNeeded descriptor + 1 ≤ it.rest.length := by
    rw [size, rest, List.length_append]
    omega
  have parsed := preparse_first first type value low long
  generalize placed : ({ it with type := majorTypeOf major, extra := descriptor, flags := it.flags.keep } : CborValue) = start
    at parsed
  have same : SamePlace it start := by
    subst placed
    exact ⟨rfl, rfl, rfl, rfl⟩
  have whole : (readExtra start (bytesNeeded descriptor)).extractInt64Helper = argument := by
    subst placed
    exact readExtra_value low short number rfl rfl rfl
  obtain ⟨negative, unknown, iterating⟩ := readExtra_flags start (bytesNeeded descriptor)
  refine ⟨descriptor, _, parsed, same.trans (readExtra_samePlace start _), ?_, whole, ?_, ?_, ?_, ?_, size, ?_⟩
  · rw [readExtra_type, ← placed]
  · rw [negative, ← placed]
    rfl
  · rw [unknown, ← placed]
    rfl
  · rw [iterating, ← placed]
    rfl
  · rw [first]
    exact value
  · rintro rfl
    have read : (readExtra start (bytesNeeded 24)).extra = it.readUint 1 1 := by
      rw [← placed]
      rfl
    rw [read]
    exact number (Nat.le_refl _)

/-- The head of a number, string or container is parsed into its type and argument. -/
theorem preparse_head {bytes : Bytes} (isHead : Head major argument bytes) (known : major < 7)
    (rest : it.rest = bytes ++ tail) :
    ∃ ready, preparseValue it = .ok ready ∧ SamePlace it ready ∧ AtHead major argument bytes.length ready := by
  obtain ⟨descriptor, read, parsed, head⟩ := preparse_reads isHead (by omega) rest
  have notSimple : major ≠ 7 := by omega
  have classified := classify_number descriptor notSimple read head.negative
  generalize marked : ({ read with flags := { read.flags with negativeInteger := major == 1 } } : CborValue) = ready
    at classified
  have same : SamePlace read ready := by
    subst marked
    exact ⟨rfl, rfl, rfl, rfl⟩
  have value : ready.extractInt64Helper = argument := by
    subst marked
    exact head.value
  have place := head.same.trans same
  refine ⟨ready, parsed.trans classified, place, ?_, value, ?_, ?_, ?_, ?_⟩
  · rw [← marked]
    exact head.type
  · rw [extractNumberAndAdvance, value, place.rest, head.again, head.size]
  · rw [← marked]
    exact head.known
  · rw [← marked]
  · rw [← marked]
    exact head.iterating

/-- A value whose type is no string, container or tag. -/
structure AtFixed (size : Nat) (it : CborValue) : Prop where
  fixed : isFixedType it.type = true
  notTag : it.isTag = false
  valid : it.isValid = true
  advance : (extractNumberAndAdvance it).2 = advanceBytes it size

theorem classify_simple {descriptor : Nat} (it : CborValue) (simple : it.type = .simple)
    (legal : descriptor = 24 → 32 ≤ it.extra) :
    ∃ after, classify it 7 descriptor = .ok after ∧ SamePlace it after ∧ isFixedType after.type = true ∧
      after.isTag = false ∧ after.isValid = true := by
  unfold classify
  rw [if_neg (by decide), if_pos rfl]
  split
  · exact ⟨_, rfl, ⟨rfl, rfl, rfl, rfl⟩, rfl, rfl, rfl⟩
  · exact ⟨_, rfl, ⟨rfl, rfl, rfl, rfl⟩, rfl, rfl, rfl⟩
  · exact ⟨_, rfl, ⟨rfl, rfl, rfl, rfl⟩, rfl, rfl, rfl⟩
  · exact ⟨_, rfl, ⟨rfl, rfl, rfl, rfl⟩, rfl, rfl, rfl⟩
  · have known := legal rfl
    rw [if_neg (by omega)]
    exact ⟨it, rfl, ⟨rfl, rfl, rfl, rfl⟩, by rw [simple]; rfl, by simp [CborValue.isTag, simple],
      by simp [CborValue.isValid, simple]⟩
  · exact ⟨_, rfl, ⟨rfl, rfl, rfl, rfl⟩, rfl, rfl, rfl⟩
  · exact ⟨_, rfl, ⟨rfl, rfl, rfl, rfl⟩, rfl, rfl, rfl⟩
  · exact ⟨_, rfl, ⟨rfl, rfl, rfl, rfl⟩, rfl, rfl, rfl⟩
  · exact ⟨it, rfl, ⟨rfl, rfl, rfl, rfl⟩, by rw [simple]; rfl, by simp [CborValue.isTag, simple],
      by simp [CborValue.isValid, simple]⟩

/-- Simple values and floating-point numbers are parsed. -/
theorem preparse_simple {bytes : Bytes} (isHead : Head 7 argument bytes) (legal : bytes.length = 2 → 32 ≤ argument)
    (rest : it.rest = bytes ++ tail) :
    ∃ ready, preparseValue it = .ok ready ∧ SamePlace it ready ∧ AtFixed bytes.length ready := by
  obtain ⟨descriptor, read, parsed, head⟩ := preparse_reads isHead (by decide) rest
  have known : descriptor = 24 → 32 ≤ read.extra := by
    intro one
    have two : bytes.length = 2 := by
      rw [← head.size, one]
      rfl
    rw [head.byte one]
    exact legal two
  obtain ⟨ready, classified, place, fixed, notTag, valid⟩ := classify_simple read head.type known
  have whole := head.same.trans place
  refine ⟨ready, parsed.trans classified, whole, fixed, notTag, valid, ?_⟩
  rw [extractNumberAndAdvance, whole.rest, head.again, head.size]

theorem preparse_float (fits : argument < 2 ^ 32) (rest : it.rest = wideHead 7 2 argument ++ tail) :
    ∃ ready, preparseValue it = .ok ready ∧ ready.type = .float ∧ ready.flags.integerValueTooLarge = true ∧
      ready.decodeInt64Internal = argument := by
  have first : it.rest.head? = some 0xfa := by rw [rest]; rfl
  have long : bytesNeeded 26 + 1 ≤ it.rest.length := by
    rw [rest, List.length_append, wideHead_length]
    exact Nat.le_add_right 5 _
  have read : it.readUint 1 (2 ^ 2) = argument := readUint_wide (by omega) rest
  exact ⟨_, preparse_first first rfl rfl (by decide) long, rfl, rfl, read⟩

theorem preparse_double (fits : argument < 2 ^ 64) (rest : it.rest = wideHead 7 3 argument ++ tail) :
    ∃ ready, preparseValue it = .ok ready ∧ ready.type = .double ∧ ready.flags.integerValueTooLarge = true ∧
      ready.decodeInt64Internal = argument := by
  have first : it.rest.head? = some 0xfb := by rw [rest]; rfl
  have long : bytesNeeded 27 + 1 ≤ it.rest.length := by
    rw [rest, List.length_append, wideHead_length]
    exact Nat.le_add_right 9 _
  have read : it.readUint 1 (2 ^ 3) = argument := readUint_wide (by omega) rest
  exact ⟨_, preparse_first first rfl rfl (by decide) long, rfl, rfl, read⟩

/-! Strings. -/

/-- The value before the only chunk of a string: its head has been parsed and its
bytes are behind it. -/
structure AtString (major : Nat) (content tail : Bytes) (it : CborValue) : Prop where
  kind : major = 2 ∨ major = 3
  type : it.type = majorTypeOf major
  known : it.flags.unknownLength = false
  head : ∃ bytes, Head major content.length bytes ∧ it.rest = bytes ++ content ++ tail

/-- The value behind it. -/
def pastString (it : CborValue) (tail : Bytes) : CborValue :=
  { it with
    rest := tail
    flags := { it.flags with iteratingStringChunks := true, negativeInteger := false } }

theorem getStringChunkSize_string {content bytes : Bytes} (kind : major = 2 ∨ major = 3) (type : it.type = majorTypeOf major)
    (going : (it.isLengthKnown && !it.flags.negativeInteger) = false) (isHead : Head major content.length bytes)
    (rest : it.rest = bytes ++ content ++ tail) : getStringChunkSize it = .ok (bytes.length, content.length) := by
  rw [List.append_assoc] at rest
  obtain ⟨byte, descriptor, first, same, value, low, size, short, number⟩ := head_first isHead (by omega) rest
  have notBreak : byte ≠ 0xff := by
    rintro rfl
    have seven : (0xff : UInt8).toNat / 32 = 7 := by decide
    omega
  have readable : canReadBytes it (1 + bytesNeeded descriptor) = true := by
    rw [canReadBytes, Nat.add_comm, size, rest, List.length_append]
    simp
  unfold getStringChunkSize
  rw [going, first]
  simp only [Bool.false_eq_true, if_false, notBreak, same, type, ne_eq, not_true_eq_false, value]
  by_cases small : descriptor < 24
  · have none : bytesNeeded descriptor = 0 := by simp [bytesNeeded, small]
    rw [if_pos small, short small, ← size, none]
    rfl
  · rw [if_neg small, if_neg (by omega), readable, number (by omega), size]
    rfl

end

section
variable {major : Nat} {content tail : Bytes} {it : CborValue}

theorem getStringChunk_string (string : AtString major content tail it) :
    getStringChunk (beginStringIteration it) = .ok (content, pastString it tail) := by
  obtain ⟨kind, type, known, bytes, isHead, rest⟩ := string
  have begun : beginStringIteration it =
      { it with flags := { it.flags with iteratingStringChunks := true, negativeInteger := true } } := by
    simp [beginStringIteration, CborValue.isLengthKnown, known]
  have size : getStringChunkSize (beginStringIteration it) = .ok (bytes.length, content.length) :=
    getStringChunkSize_string kind (by rw [begun, type]) (by rw [begun]; exact Bool.and_false _) isHead (by rw [begun, rest])
  have behind : (advanceBytes (beginStringIteration it) bytes.length).rest = content ++ tail := by
    simp [advanceBytes, begun, rest]
  have readable : canReadBytes (advanceBytes (beginStringIteration it) bytes.length) content.length = true := by
    simp [canReadBytes, behind]
  unfold getStringChunk
  rw [size]
  simp only [bind, Except.bind, readable, if_true, behind, List.take_left]
  simp [pastString, advanceBytes, begun, rest, pure, Except.pure]

theorem getStringChunk_past (known : it.flags.unknownLength = false) :
    getStringChunk (pastString it tail) = .error (.error .noMoreStringChunks) := by
  have size : getStringChunkSize (pastString it tail) = .error (.error .noMoreStringChunks) := by
    simp [getStringChunkSize, CborValue.isLengthKnown, pastString, known, failWith, throw, throwThe, MonadExceptOf.throw]
  simp [getStringChunk, size, bind, Except.bind]

/-- Whether a string of one chunk passes `func`. -/
def stringResult (content : Bytes) (buflen : Nat) (func : Nat → Bytes → Bool) : Bool :=
  let result := decide (content.length ≤ buflen) && func 0 content
  if result && decide (content.length < buflen) then func content.length [0] else result

/-- Iterating a string of known length hands over its bytes and goes on behind them. -/
theorem iterateStringChunks_string (string : AtString major content tail it) (buflen : Nat) (func : Nat → Bytes → Bool) :
    iterateStringChunks it buflen func =
      (preparseNextValue (pastString it tail)).map fun next => (stringResult content buflen func, content, next) := by
  have chunk := getStringChunk_string string
  have none : getStringChunk (pastString it tail) = .error (.error .noMoreStringChunks) :=
    getStringChunk_past string.known
  have isString := isString_of_type string.type string.kind
  obtain ⟨fuel, enough⟩ : ∃ fuel, it.rest.length + 1 = fuel + 1 + 1 := by
    obtain ⟨bytes, isHead, rest⟩ := string.head
    have := isHead.length_pos
    refine ⟨it.rest.length - 1, ?_⟩
    rw [rest]
    simp only [List.length_append]
    omega
  have finish : finishStringIteration (pastString it tail) = preparseNextValue (pastString it tail) := by
    simp [finishStringIteration, CborValue.isLengthKnown, pastString, string.known]
  unfold iterateStringChunks
  rw [isString, enough]
  simp only [assertThat, if_true, iterateChunks, chunk, none]
  simp only [List.length_nil, Nat.zero_add, List.nil_append, Bool.true_and, pure, Except.pure, bind, Except.bind, finish]
  cases preparseNextValue (pastString it tail) <;> rfl

theorem copyString_string (string : AtString major content tail it) {buflen : Nat} (enough : content.length ≤ buflen) :
    copyString it buflen = (preparseNextValue (pastString it tail)).map fun next => (content, next) := by
  have result : stringResult content buflen (fun _ _ => true) = true := by simp [stringResult, enough]
  unfold copyString
  rw [iterateStringChunks_string string, result]
  cases preparseNextValue (pastString it tail) <;> rfl

end

end AxbyCore.Tinycbor.Proofs
