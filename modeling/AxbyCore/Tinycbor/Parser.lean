import AxbyCore.Tinycbor.Cbor

/-! The functions of third_party/tinycbor/src/cborparser.c that the serializer uses.
A loop has as fuel the bytes ahead of it: whatever it steps over takes a byte. -/

namespace AxbyCore.Tinycbor

def advanceBytes (it : CborValue) (n : Nat) : CborValue := { it with rest := it.rest.drop n }

def canReadBytes (it : CborValue) (n : Nat) : Bool := n ≤ it.rest.length

/-- `descriptor & SmallValueMask` -/
def smallValue (byte : UInt8) : Nat := byte.toNat % 32

/-- How many bytes behind the first a head takes. -/
def bytesNeeded (descriptor : Nat) : Nat := if descriptor < 24 then 0 else 2 ^ (descriptor - 24)

def extractNumberAndAdvance (it : CborValue) : Nat × CborValue :=
  let descriptor := (it.rest.head?.map smallValue).getD 0
  (it.extractInt64Helper, advanceBytes it (bytesNeeded descriptor + 1))

def isFixedType (type : CborType) : Bool :=
  type != .textString && type != .byteString && type != .array && type != .map

/-- `descriptor & MajorTypeMask`, where a negative integer is an integer already. -/
def majorTypeOf (majortype : Nat) : CborType :=
  match majortype with
  | 2 => .byteString
  | 3 => .textString
  | 4 => .array
  | 5 => .map
  | 6 => .tag
  | 7 => .simple
  | _ => .integer

/-- `FlagsToKeep` -/
def Flags.keep (flags : Flags) : Flags := { containerIsMap := flags.containerIsMap, nextIsMapKey := flags.nextIsMapKey }

/-- Up to 16 bits of a number go into `extra`; for more, the flags tell its size. -/
def readExtra (it : CborValue) (needed : Nat) : CborValue :=
  match needed with
  | 0 => it
  | 1 => { it with extra := it.readUint 1 1 }
  | 2 => { it with extra := it.readUint 1 2 }
  | 4 => { it with extra := 0, flags := { it.flags with integerValueTooLarge := true } }
  | _ => { it with extra := 0, flags := { it.flags with integerValueTooLarge := true, integerValueIs64Bit := true } }

/-- The end of `preparse_value`, where negative integers and simple values are told apart. -/
def classify (it : CborValue) (majortype descriptor : Nat) : Parse CborValue :=
  if majortype = 1 then return { it with flags := { it.flags with negativeInteger := true } }
  else if majortype = 7 then
    match descriptor with
    | 20 => return { it with extra := 0, type := .boolean }
    | 21 => return { it with type := .boolean }
    | 22 => return { it with type := .null }
    | 23 => return { it with type := .undefined }
    | 24 => if it.extra < 32 then failWith .illegalSimpleType else return it
    | 25 => return { it with type := .halfFloat }
    | 26 => return { it with type := .float }
    | 27 => return { it with type := .double }
    | _ => return it
  else return it

def preparseValue (it : CborValue) : Parse CborValue :=
  match it.rest.head? with
  | none => failWith .unexpectedEOF
  | some byte =>
    let majortype := byte.toNat / 32
    let descriptor := smallValue byte
    let needed := bytesNeeded descriptor
    let it := { it with type := majorTypeOf majortype, extra := descriptor, flags := it.flags.keep }
    if descriptor > 27 then
      if descriptor ≠ 31 then failWith (if majortype = 7 then .unknownType else .illegalNumber)
      else if !isFixedType it.type then return { it with flags := { it.flags with unknownLength := true } }
      else failWith (if majortype = 7 then .unexpectedBreak else .illegalNumber)
    else if needed ≠ 0 ∧ !canReadBytes it (needed + 1) then failWith .unexpectedEOF
    else classify (readExtra it needed) majortype descriptor

def preparseNextValueNodecrement (it : CborValue) : Parse CborValue :=
  if it.remaining = uint32Max ∧ it.rest.head? = some 0xff then
    if (it.flags.containerIsMap && it.flags.nextIsMapKey) || it.isTag then failWith .unexpectedBreak
    else return { it with type := .invalid, remaining := 0, flags := { it.flags with unknownLength := true } }
  else preparseValue it

def preparseNextValue (it : CborValue) : Parse CborValue :=
  let itemCounts := !it.isTag
  let remaining := if itemCounts && it.remaining != uint32Max then (it.remaining + uint32Max) % 2 ^ 32 else it.remaining
  if itemCounts && it.remaining != uint32Max && remaining == 0 then
    return { it with remaining, type := .invalid, flags := { it.flags with unknownLength := false } }
  else
    let nextIsMapKey := if itemCounts then !it.flags.nextIsMapKey else it.flags.nextIsMapKey
    preparseNextValueNodecrement { it with remaining, flags := { it.flags with nextIsMapKey } }

def advanceInternal (it : CborValue) : Parse CborValue := do
  let (length, it) := extractNumberAndAdvance it
  if it.isByteString || it.isTextString then
    assertThat it.isLengthKnown
    preparseNextValue (advanceBytes it length)
  else preparseNextValue it

def cborParserInit (buffer : Bytes) : Parse CborValue := preparseValue { rest := buffer, remaining := 1 }

def cborValueAdvanceFixed (it : CborValue) : Parse CborValue := do
  assertThat it.isValid
  assertThat (isFixedType it.type)
  if it.remaining = 0 then failWith .advancePastEOF else advanceInternal it

def cborValueEnterContainer (it : CborValue) : Parse CborValue := do
  assertThat it.isContainer
  if it.flags.unknownLength then
    let recursed := advanceBytes { it with remaining := uint32Max } 1
    preparseNextValueNodecrement { recursed with flags := { containerIsMap := recursed.isMap } }
  else
    let (len, recursed) := extractNumberAndAdvance it
    if len ≥ uint32Max then failWith .dataTooLarge
    else if recursed.isMap ∧ len > uint32Max / 2 then failWith .dataTooLarge
    else
      let recursed := { recursed with remaining := if recursed.isMap then len * 2 else len }
      if len = 0 then return { recursed with type := .invalid }
      else preparseNextValueNodecrement { recursed with flags := { containerIsMap := recursed.isMap } }

def cborValueLeaveContainer (it recursed : CborValue) : Parse CborValue := do
  assertThat it.isContainer
  assertThat (!recursed.isValid)
  let it := { it with rest := recursed.rest }
  preparseNextValue (if recursed.flags.unknownLength then advanceBytes it 1 else it)

def beginStringIteration (it : CborValue) : CborValue :=
  let it := { it with flags := { it.flags with iteratingStringChunks := true, negativeInteger := true } }
  if it.isLengthKnown then it else advanceBytes it 1

def finishStringIteration (it : CborValue) : Parse CborValue :=
  preparseNextValue (if it.isLengthKnown then it else advanceBytes it 1)

/-- The offset of the next chunk and its length. -/
def getStringChunkSize (it : CborValue) : Parse (Nat × Nat) :=
  if it.isLengthKnown && !it.flags.negativeInteger then failWith .noMoreStringChunks
  else match it.rest.head? with
    | none => failWith .unexpectedEOF
    | some byte =>
      let descriptor := smallValue byte
      let needed := bytesNeeded descriptor
      if byte = 0xff then failWith .noMoreStringChunks
      else if majorTypeOf (byte.toNat / 32) ≠ it.type then failWith .illegalType
      else if descriptor < 24 then return (1, descriptor)
      else if descriptor > 27 then failWith .illegalNumber
      else if !canReadBytes it (1 + needed) then failWith .unexpectedEOF
      else return (needed + 1, it.readUint 1 needed)

def getStringChunk (it : CborValue) : Parse (Bytes × CborValue) := do
  let (offset, len) ← getStringChunkSize it
  let it := advanceBytes it offset
  if canReadBytes it len then
    return (it.rest.take len, { advanceBytes it len with flags := { it.flags with negativeInteger := false } })
  else failWith .unexpectedEOF

/-- The loop over the chunks: whether `func` held of all of them, and their bytes. -/
def iterateChunks (func : Nat → Bytes → Bool) (buflen : Nat) :
    Nat → CborValue → Bool → Bytes → Parse (Bool × Bytes × CborValue)
  | 0, _, _, _ => throw .assertion
  | fuel + 1, next, result, data =>
    match getStringChunk next with
    | .error (.error .noMoreStringChunks) => return (result, data, next)
    | .error fault => throw fault
    | .ok (chunk, next) =>
      let newTotal := data.length + chunk.length
      iterateChunks func buflen fuel next (result && decide (newTotal ≤ buflen) && func data.length chunk) (data ++ chunk)

/-- `func` is given the offset of a chunk and the chunk, and at the end, when the
buffer has room for it, a zero byte. -/
def iterateStringChunks (value : CborValue) (buflen : Nat) (func : Nat → Bytes → Bool) :
    Parse (Bool × Bytes × CborValue) := do
  assertThat (value.isByteString || value.isTextString)
  let next := beginStringIteration value
  let (result, data, next) ← iterateChunks func buflen (value.rest.length + 1) next true []
  let result := if result && decide (data.length < buflen) then func data.length [0] else result
  let next ← finishStringIteration next
  return (result, data, next)

/-- The bytes of a string, and the value behind it. -/
def copyString (value : CborValue) (buflen : Nat) : Parse (Bytes × CborValue) := do
  let (copiedAll, data, next) ← iterateStringChunks value buflen fun _ _ => true
  if copiedAll then return (data, next) else failWith .outOfMemory

def untilEnd (advance : CborValue → Parse CborValue) : Nat → CborValue → Parse CborValue
  | 0, it => if it.atEnd then return it else throw .assertion
  | fuel + 1, it => if it.atEnd then return it else advance it >>= untilEnd advance fuel

def advanceRecursive (nestingLevel : Nat) (it : CborValue) : Parse CborValue :=
  if isFixedType it.type then advanceInternal it
  else if !it.isContainer then do
    let (_, next) ← copyString it (2 ^ 64 - 1)
    return next
  else match nestingLevel with
    | 0 => failWith .nestingTooDeep
    | nestingLevel + 1 => do
      let recursed ← cborValueEnterContainer it
      let recursed ← untilEnd (advanceRecursive nestingLevel) recursed.rest.length recursed
      cborValueLeaveContainer it recursed

def cborParserMaxRecursions : Nat := 1024

def cborValueAdvance (it : CborValue) : Parse CborValue := do
  assertThat it.isValid
  if it.remaining = 0 then failWith .advancePastEOF else advanceRecursive cborParserMaxRecursions it

def skipTags : Nat → CborValue → Parse CborValue
  | 0, it => if it.isTag then throw .assertion else return it
  | fuel + 1, it => if it.isTag then cborValueAdvanceFixed it >>= skipTags fuel else return it

def cborValueSkipTag (it : CborValue) : Parse CborValue := skipTags it.rest.length it

/-- `iterate_memcmp` against a name -/
def iterateMemcmp (string : Bytes) (offset : Nat) (chunk : Bytes) : Bool :=
  (string.drop offset).take chunk.length == chunk

def mapFindLoop (string : Bytes) : Nat → CborValue → Parse CborValue
  | 0, element => if element.atEnd then return { element with type := .invalid } else throw .assertion
  | fuel + 1, element =>
    if element.atEnd then return { element with type := .invalid }
    else do
      let element ← cborValueSkipTag element
      if element.isTextString then
        let (equals, _, element) ← iterateStringChunks element string.length (iterateMemcmp string)
        if equals then preparseValue element
        else cborValueSkipTag element >>= cborValueAdvance >>= mapFindLoop string fuel
      else
        let element ← cborValueAdvance element
        cborValueSkipTag element >>= cborValueAdvance >>= mapFindLoop string fuel

def cborValueMapFindValue1 (map : CborValue) (string : Bytes) : Parse CborValue := do
  assertThat map.isMap
  let element ← cborValueEnterContainer map
  mapFindLoop string element.rest.length element

end AxbyCore.Tinycbor
