import AxbyCore.Proofs.EncodingItems

/-! The round trip of the serializer: by induction on the type, the decoder reads back
what the encoder wrote, with the iterator behind every element on the next one. -/

namespace AxbyCore.Serialization.Proofs
open Tinycbor Tinycbor.Proofs Rfc8949

/-- The decoder reads the value back wherever its item is followed by something that
can be parsed, or by nothing that counts. -/
def ReadsBack {α : Type} (decode : Decode α) (bytes : Bytes) (value : α) : Prop :=
  ∀ it tail out, Ready it → it.rest = bytes ++ tail → Continues it tail → decode it out = some (.noError, value)

theorem Ahead.continues {depth : Nat} {item tail : Bytes} {items : List Bytes} {it : CborValue}
    (ahead : Ahead (item :: items) tail it) (each : ∀ other ∈ items, Item depth other)
    (short : items.length < uint32Max - 1) : Continues it (items.flatten ++ tail) := by
  intro behind past
  obtain ⟨next, parsed, -⟩ := past.next ahead short each
  exact ⟨next, parsed⟩

/-- Advancing over a number puts the other items ahead. -/
theorem advanceFixed_ahead {depth : Nat} {item tail : Bytes} {items : List Bytes} {it : CborValue}
    (ahead : Ahead (item :: items) tail it) (each : ∀ other ∈ items, Item depth other)
    (at_ : AtFixed item.length it) (short : items.length < uint32Max - 1) :
    ∃ next, cborValueAdvanceFixed it = .ok next ∧ Ahead items tail next := by
  have place : it.rest = item ++ (items.flatten ++ tail) := by simpa using ahead.rest
  have past : Behind it (items.flatten ++ tail) (advanceBytes it item.length) :=
    ⟨by simp [advanceBytes, place], rfl, at_.notTag⟩
  obtain ⟨next, parsed, aheadNext⟩ := past.next ahead short each
  have some : ¬ it.remaining = 0 := by
    rw [ahead.remaining]
    simp
  refine ⟨next, ?_, aheadNext⟩
  rw [cborValueAdvanceFixed, at_.valid, at_.fixed, assertThat_true, if_neg some, advanceInternal_fixed at_]
  exact parsed

section
variable {α : Type} {fixedSize : Bool} {decode : Decode α} {item : α → Bytes} {depth : Nat}

/-- The loop over the elements reads them all back. -/
theorem decodeElements_back {values : List α} {outs : List α} {tail : Bytes} {it : CborValue}
    (ahead : Ahead (values.map item) tail it) (reads : ∀ value ∈ values, ReadsBack decode (item value) value)
    (each : ∀ value ∈ values, Item depth (item value)) (deep : depth ≤ cborParserMaxRecursions)
    (fixed : fixedSize = true → ∀ value ∈ values, ∀ it tail, Ready it → it.rest = item value ++ tail →
      AtFixed (item value).length it)
    (short : values.length < uint32Max) (size : outs.length = values.length) :
    decodeElements fixedSize decode it outs = some (.noError, values) := by
  induction values generalizing it outs with
  | nil =>
    obtain rfl := List.eq_nil_of_length_eq_zero size
    rfl
  | cons value values ih =>
    cases outs with
    | nil => cases size
    | cons out outs =>
      rw [List.map_cons] at ahead
      have items : ∀ other ∈ values.map item, Item depth other := by
        intro other member
        obtain ⟨value, held, rfl⟩ := List.mem_map.mp member
        exact each value (by simp [held])
      have place : it.rest = item value ++ ((values.map item).flatten ++ tail) := by simpa using ahead.rest
      have ready := ahead.ready (by simp)
      rw [List.length_cons] at short
      have fewer : (values.map item).length < uint32Max - 1 := by
        rw [List.length_map]
        omega
      have decoded := reads value (by simp) it _ out ready place (Ahead.continues ahead items fewer)
      obtain ⟨next, advanced, aheadNext⟩ : ∃ next,
          (if fixedSize then cborValueAdvanceFixed it else cborValueAdvance it) = .ok next ∧
            Ahead (values.map item) tail next := by
        cases kind : fixedSize with
        | true => exact advanceFixed_ahead ahead items (fixed kind value (by simp) it _ ready place) fewer
        | false =>
          have all : ∀ other ∈ item value :: values.map item, Item depth other := by
            intro other member
            rcases List.mem_cons.mp member with rfl | member
            · exact each value (by simp)
            · exact items other member
          exact advance_ahead ahead all deep (by rw [List.length_cons]; omega)
      have others := ih aheadNext (fun value member => reads value (by simp [member]))
        (fun value member => each value (by simp [member])) (fun kind value member => fixed kind value (by simp [member]))
        (by omega) (Nat.succ.inj size)
      simp only [decodeElements, decoded, ne_eq, not_true_eq_false, if_false, advanced, afterParse, others, Option.map_some]

/-- A range reads its list back, into whatever has its size once it is resized. -/
theorem decodeRange_back {values : List α} {resize : Nat → List α → List α} {out : List α} {tail : Bytes} {it : CborValue}
    (ready : Ready it) (rest : it.rest = head 4 values.length ++ values.flatMap item ++ tail)
    (reads : ∀ value ∈ values, ReadsBack decode (item value) value) (each : ∀ value ∈ values, Item depth (item value))
    (deep : depth ≤ cborParserMaxRecursions)
    (fixed : fixedSize = true → ∀ value ∈ values, ∀ it tail, Ready it → it.rest = item value ++ tail →
      AtFixed (item value).length it)
    (short : values.length < uint32Max) (size : (resize values.length out).length = values.length) :
    decodeRange fixedSize resize decode it out = some (.noError, values) := by
  have isHead : Head 4 values.length (head 4 values.length) :=
    head_isHead 4 (by unfold uint32Max at short; omega)
  have at_ := ready.atHead isHead (by decide) (by rw [rest, List.append_assoc])
  have isArray : it.isArray = true := by simp [CborValue.isArray, at_.type, majorTypeOf]
  have length : it.getArrayLength = .ok values.length := by
    rw [CborValue.getArrayLength, isArray, assertThat_true, at_.value, CborValue.isLengthKnown, at_.known]
    rfl
  have contents : Contents 4 values.length depth (values.map item) := by
    refine ⟨Or.inl rfl, List.length_map .., by rw [List.length_map]; exact short, ?_⟩
    intro other member
    obtain ⟨value, held, rfl⟩ := List.mem_map.mp member
    exact each value held
  rw [List.flatMap_def] at rest
  obtain ⟨valueIt, entered, ahead⟩ := enterContainer_ahead at_ contents rest
  have elements := decodeElements_back ahead reads each deep fixed short size
  simp [decodeRange, isArray, length, afterParse, size, entered, elements]

/-- A range with 2^32 - 1 or more elements is resized, and none of them is read. -/
theorem decodeRange_tooLarge {resize : Nat → List α → List α} {count : Nat} {out : List α} {bytes : Bytes} {it : CborValue}
    (at_ : AtHead 4 count bytes.length it) (large : uint32Max ≤ count) (size : (resize count out).length = count) :
    decodeRange fixedSize resize decode it out = some (.dataTooLarge, resize count out) := by
  have isArray : it.isArray = true := by simp [CborValue.isArray, at_.type, majorTypeOf]
  have length : it.getArrayLength = .ok count := by
    rw [CborValue.getArrayLength, isArray, assertThat_true, at_.value, CborValue.isLengthKnown, at_.known]
    rfl
  have entered : cborValueEnterContainer it = .error (.error .dataTooLarge) :=
    enterContainer_tooLarge at_ (Or.inl rfl) large
  simp [decodeRange, isArray, length, afterParse, size, entered]

end

/-- The element types that are advanced over without a look at the item are numbers. -/
theorem encoding_atFixed : (elem : Ty) → isFixedSize elem = true → (value : elem.denote) → ∀ it tail, Ready it →
    it.rest = encoding elem value ++ tail → AtFixed (encoding elem value).length it
  | .bool, _, value, it, tail, ready, rest => ready.atFixed (boolItem value).1 (fun two => absurd two (boolItem value).2) rest
  | .uint _, _, value, it, tail, ready, rest =>
    (ready.atHead (uintItem_head value) (by decide) rest).atFixed (Nat.zero_le 1)
  | .sint _, _, value, it, tail, ready, rest => by
    obtain ⟨major, argument, kind, isHead⟩ := sintItem_head value
    exact (ready.atHead isHead (by omega) rest).atFixed kind
  | .float, _, value, it, tail, ready, rest => ready.atFixed (floatItem_head value) (fun two => by cases two) rest
  | .double, _, value, it, tail, ready, rest => ready.atFixed (doubleItem_head value) (fun two => by cases two) rest

/-- A branch that assigns a view of the payload. -/
theorem decodeAs_back {α : Type} {view : Decode Bytes} {assign : Bytes → Option α} {it : CborValue} {payload : Bytes}
    {value : α} (viewed : view it [] = some (.noError, payload)) (assigned : assign payload = some value) (out : α) :
    decodeAs view assign it out = some (.noError, value) := by
  simp [decodeAs, viewed, assigned]

theorem enumCast_enumName (enumerators : Enumerators) (value : Fin enumerators.names.length) :
    enumerators.names.finIdxOf? (enumerators.names.get value) = some value := by
  rw [List.finIdxOf?_eq_some_iff]
  refine ⟨rfl, ?_⟩
  intro earlier before same
  exact List.pairwise_iff_getElem.mp enumerators.distinct earlier value earlier.isLt value.isLt before same

/-- Bytes can be assigned to every range that is a span of bytes and compiles. -/
theorem assignBytes_asSpan {type : Ty} {bytes : type.denote → Bytes} {assign : Bytes → Option type.denote}
    (span : asSpan type = some bytes) (compiles : assignBytes type = some assign) (value : type.denote) :
    assign (bytes value) = some value := by
  unfold assignBytes at compiles
  split at compiles
  · obtain rfl := Option.some.inj compiles
    obtain rfl := Option.some.inj span
    rfl
  · obtain rfl := Option.some.inj compiles
    obtain rfl := Option.some.inj span
    exact dif_pos value.property
  · cases compiles

section
variable {target : Target}

theorem fieldsDecode_cons {name : Bytes} {type : Ty} {rest : Fields} :
    fieldsDecode target (.cons name type rest) = true ↔ decodes target type = true ∧ fieldsDecode target rest = true := by
  rw [fieldsDecode, Bool.and_eq_true]

theorem decodeLeaf_span {type : Ty} {bytes : type.denote → Bytes} (overload : decodeOverload target type = none)
    (notEnum : enumCast type = none) (span : asSpan type = some bytes) :
    decodeLeaf target type = (assignBytes type).map (decodeAs decodeSpan) := by
  simp [decodeLeaf, overload, notEnum, span]

/-- Where a range is a span of bytes, the branch for bytes assigns them. -/
theorem decodeLeaf_assigns {type : Ty} {bytes : type.denote → Bytes} (overload : decodeOverload target type = none)
    (notEnum : enumCast type = none) (span : asSpan type = some bytes) (compiles : (decodeLeaf target type).isSome = true) :
    ∃ assign, (decodeLeaf target type).getD uncompiled = decodeAs decodeSpan assign ∧
      ∀ value, assign (bytes value) = some value := by
  have leaf := decodeLeaf_span overload notEnum span
  cases assigned : assignBytes type with
  | none => simp [leaf, assigned] at compiles
  | some assign =>
    rw [leaf, assigned]
    exact ⟨assign, rfl, assignBytes_asSpan span assigned⟩

/-- That branch reads a value back. -/
theorem decodeLeaf_back {type : Ty} {bytes : type.denote → Bytes} (overload : decodeOverload target type = none)
    (notEnum : enumCast type = none) (span : asSpan type = some bytes)
    (compiles : (decodeLeaf target type).isSome = true) {value : type.denote} (fits : (bytes value).length < 2 ^ 64) :
    ReadsBack ((decodeLeaf target type).getD uncompiled) (byteString (bytes value)) value := by
  obtain ⟨assign, same, assigned⟩ := decodeLeaf_assigns overload notEnum span compiles
  intro it tail out ready rest _
  rw [same]
  exact decodeAs_back (decode_bytes ready fits rest []) (assigned value) out

/-- A range that is a span of bytes is decoded by that branch. -/
theorem array_leaf (target : Target) {elem : Ty} {size : Nat} {bytes : (Ty.array elem size).denote → Bytes}
    (span : asSpan (.array elem size) = some bytes) : isDecodeLeaf target (.array elem size) = true := by
  simp [isDecodeLeaf, span]

theorem vector_leaf (target : Target) {elem : Ty} {bytes : (Ty.vector elem).denote → Bytes}
    (span : asSpan (.vector elem) = some bytes) : isDecodeLeaf target (.vector elem) = true := by
  simp [isDecodeLeaf, span]

/-- Any other range is decoded element by element. -/
theorem array_notLeaf {elem : Ty} {size : Nat} (span : asSpan (.array elem size) = none)
    (compiles : decodes target (.array elem size) = true) :
    ¬ isDecodeLeaf target (.array elem size) = true ∧ decodes target elem = true := by
  have notLeaf : ¬ isDecodeLeaf target (.array elem size) = true := by
    simp [isDecodeLeaf, decodeOverload, enumCast, span, constructibleFromStringView]
  exact ⟨notLeaf, by simpa [decodes, notLeaf] using compiles⟩

theorem vector_notLeaf {elem : Ty} (span : asSpan (.vector elem) = none) (compiles : decodes target (.vector elem) = true) :
    ¬ isDecodeLeaf target (.vector elem) = true ∧ decodes target elem = true := by
  have notLeaf : ¬ isDecodeLeaf target (.vector elem) = true := by
    simp [isDecodeLeaf, decodeOverload, enumCast, span, constructibleFromStringView]
  exact ⟨notLeaf, by simpa [decodes, notLeaf] using compiles⟩

/-- A struct whose decoder compiles is decoded as a map. -/
theorem struct_notLeaf {fields : Fields} (compiles : decodes target (.struct fields) = true) :
    isDecodeLeaf target (.struct fields) = false ∧ fieldsDecode target fields = true := by
  cases leaf : isDecodeLeaf target (.struct fields) with
  | false => exact ⟨rfl, by simpa [decodes, leaf] using compiles⟩
  | true =>
    have none : decodeLeaf target (.struct fields) = .none := by
      simp [decodeLeaf, decodeOverload, enumCast, asSpan, assignView]
    simp [decodes, leaf, none] at compiles

/-- The lambda finds its field, behind those that were decoded before it. -/
theorem decodeField_back {α : Type} {decode : Decode α} {depth : Nat} {name item tail bytes : Bytes}
    {before after : List Entry} {map : CborValue} {value : α} (ready : Ready map)
    (isHead : Head 5 (before ++ ⟨name, item⟩ :: after).length bytes)
    (rest : map.rest = bytes ++ (entryItems (before ++ ⟨name, item⟩ :: after)).flatten ++ tail)
    (sound : Entries depth (before ++ ⟨name, item⟩ :: after)) (deep : depth ≤ cborParserMaxRecursions) (nonzero : 0 ∉ name)
    (differ : ∀ entry ∈ before, entry.name ≠ name) (reads : ReadsBack decode item value) (out : α) :
    decodeField name decode map out = some (.noError, value) := by
  obtain ⟨element, found, ahead⟩ := mapFindValue1_finds ready isHead rest sound deep nonzero differ
  have isItem : Item depth item := sound.values ⟨name, item⟩ (by simp)
  have later : ∀ other ∈ entryItems after, Item depth other :=
    fun other member => sound.items other (by simp [entryItems_append, member])
  have place : element.rest = item ++ ((entryItems after).flatten ++ tail) := by simpa using ahead.rest
  have readyElement := ahead.ready (by simp)
  have valid := (readyElement.notTag isItem place).2
  have short := sound.length_lt
  rw [entryItems_append, List.length_append, entryItems_cons, List.length_cons, List.length_cons] at short
  have decoded := reads element _ out readyElement place (Ahead.continues ahead later (by omega))
  simp [decodeField, found, afterParse, valid, decoded]

theorem resizeTo_nil {α : Type} (fresh : α) (size : Nat) : resizeTo fresh size [] = List.replicate size fresh := by
  simp [resizeTo]

theorem resizeTo_length {α : Type} (fresh : α) (size : Nat) (items : List α) :
    (resizeTo fresh size items).length = size := by
  rw [resizeTo, List.length_append, List.length_take, List.length_replicate]
  omega

/-- A struct is decoded from its map, whose entries are its fields. -/
theorem decodeStruct_fields {fields : Fields} {value out : fields.denote} {tail : Bytes} {map : CborValue} (ready : Ready map)
    (legal : (Ty.struct fields).Legal) (each : ∀ entry ∈ fieldEntries fields value, Item fields.depth entry.value)
    (rest : map.rest = head 5 fields.names.length ++ fieldsEncoding fields value ++ tail)
    (deep : fields.depth ≤ cborParserMaxRecursions)
    (reads : ∀ {depth : Nat} {before : List Entry} {bytes tail : Bytes} {map : CborValue}, Ready map →
      Head 5 (before ++ fieldEntries fields value).length bytes →
      map.rest = bytes ++ (entryItems (before ++ fieldEntries fields value)).flatten ++ tail →
      Entries depth (before ++ fieldEntries fields value) → depth ≤ cborParserMaxRecursions →
      ((before ++ fieldEntries fields value).map Entry.name).Nodup →
      decodeFields target fields map out = some (.noError, value)) :
    map.isMap = true ∧ decodeFields target fields map out = some (.noError, value) := by
  have length := fieldEntries_length fields value
  have short := legal.2.1
  have sound := fieldEntries_sound legal each
  have isHead : Head 5 (fieldEntries fields value).length (head 5 (fieldEntries fields value).length) :=
    head_isHead 5 (by omega)
  rw [fieldsEncoding_eq, ← length] at rest
  have at_ := ready.atHead isHead (by decide) (by rw [rest, List.append_assoc])
  refine ⟨?_, ?_⟩
  · rw [at_.isMap (Or.inr rfl)]
    rfl
  · have distinct : ((fieldEntries fields value).map Entry.name).Nodup := by
      rw [fieldEntries_names]
      exact legal.1
    have whole := @reads fields.depth [] (head 5 (fieldEntries fields value).length) tail map
    rw [List.nil_append] at whole
    exact whole ready isHead rest sound deep distinct

theorem decode_vector_leaf {elem : Ty} (leaf : isDecodeLeaf target (.vector elem) = true) :
    decode target (.vector elem) = (decodeLeaf target (.vector elem)).getD uncompiled := if_pos leaf

theorem decode_vector_range {elem : Ty} (notLeaf : ¬ isDecodeLeaf target (.vector elem) = true) :
    decode target (.vector elem) =
      decodeRange (isFixedSize elem) (resizeTo (target.fresh elem)) (decode target elem) := if_neg notLeaf

mutual

/-- The decoder of a type reads back what its encoder writes. -/
theorem decode_encoding : (type : Ty) → encodes type = true → decodes target type = true → type.Legal →
    type.depth ≤ cborParserMaxRecursions → (value : type.denote) → Fits uint32Max type value →
    ReadsBack (decode target type) (encoding type value) value
  | .bool, _, compiles, _, _, _, _ => by cases compiles
  | .uint _, _, _, _, _, value, _ => fun _ _ out ready rest _ => decode_uint value out ready rest
  | .sint _, _, _, _, _, value, _ => fun _ _ out ready rest _ => decode_sint value out ready rest
  | .float, _, _, _, _, value, _ => fun _ _ out ready rest _ => decode_float target value out ready rest
  | .double, _, _, _, _, value, _ => fun _ _ out ready rest _ => decode_double value out ready rest
  | .byte, compiles, _, _, _, _, _ => by cases compiles
  | .string, _, _, _, _, _, fits => fun _ _ out ready rest continues => decode_string ready fits rest continues out
  | .stringView, _, _, _, _, _, fits => fun _ _ out ready rest _ => decode_text ready fits rest out
  | .smallString _, _, _, _, _, value, fits => fun _ _ out ready rest _ =>
    decodeAs_back (decode_text ready fits rest []) (dif_pos value.property) out
  | .byteSpan, _, _, _, _, _, fits => fun _ _ out ready rest _ => decode_bytes ready fits rest out
  | .uint8Span, _, _, _, _, _, fits => fun _ _ out ready rest _ => decode_bytes ready fits rest out
  | .enumeration enumerators, _, _, legal, _, value, _ => fun _ _ out ready rest _ =>
    decodeAs_back (decode_text ready (legal _ (List.get_mem _ _)).2 rest []) (enumCast_enumName enumerators value) out
  | .array elem size, encodable, compiles, legal, deep, value, fits => by
    cases span : asSpan (.array elem size) with
    | some bytes =>
      have leaf := array_leaf target span
      have small := fits_array_span span fits
      rw [decode, if_pos leaf, encoding, span]
      exact decodeLeaf_back rfl rfl span (by simpa [decodes, leaf] using compiles) small
    | none =>
      obtain ⟨notLeaf, inner⟩ := array_notLeaf span compiles
      have encodableElem := encodes_array span encodable
      have limits := fits_array span fits
      have same := value.property
      rw [depth_array span] at deep
      intro it tail out ready rest _
      rw [encoding, span] at rest
      have elements : decodeRange (isFixedSize elem) (fun _ items => items) (decode target elem) it out.val =
          some (.noError, value.val) := decodeRange_back ready rest
        (fun item member => decode_encoding elem encodableElem inner legal (by omega) item (limits.2 item member))
        (fun item member => encoding_item elem encodableElem legal item (limits.2 item member)) (by omega)
        (fun kind item _ => encoding_atFixed elem kind item) limits.1 (out.property.trans same.symm)
      rw [decode, if_neg notLeaf]
      simp only [elements, same, dite_true]
      rfl
  | .vector elem, encodable, compiles, legal, deep, value, fits => by
    cases span : asSpan (.vector elem) with
    | some bytes =>
      have leaf := vector_leaf target span
      have small := fits_vector_span span fits
      rw [decode_vector_leaf leaf, encoding, span]
      exact decodeLeaf_back rfl rfl span (by simpa [decodes, leaf] using compiles) small
    | none =>
      obtain ⟨notLeaf, inner⟩ := vector_notLeaf span compiles
      have encodableElem := encodes_vector span encodable
      have limits := fits_vector span fits
      rw [depth_vector span] at deep
      intro it tail out ready rest _
      rw [encoding, span] at rest
      have size : (resizeTo (target.fresh elem) (List.length value) out).length = List.length value := resizeTo_length ..
      rw [decode_vector_range notLeaf]
      exact decodeRange_back ready rest
        (fun item member => decode_encoding elem encodableElem inner legal (by omega) item (limits.2 item member))
        (fun item member => encoding_item elem encodableElem legal item (limits.2 item member)) (by omega)
        (fun kind item _ => encoding_atFixed elem kind item) limits.1 size
  | .struct fields, encodable, compiles, legal, deep, value, fits => by
    obtain ⟨notLeaf, inner⟩ := struct_notLeaf compiles
    have deepFields : fields.depth ≤ cborParserMaxRecursions := by
      rw [Ty.depth] at deep
      omega
    intro it tail out ready rest _
    have fieldsBack := decodeStruct_fields ready legal (fieldEntries_items fields encodable legal.2.2 value fits) rest
      deepFields (decodeFields_entries fields encodable inner legal.2.2 deepFields value fits out)
    rw [decode, if_neg (by simp [notLeaf])]
    simp [fieldsBack.1, fieldsBack.2]

theorem decodeFields_entries : (fields : Fields) → fieldsEncode fields = true → fieldsDecode target fields = true →
    fields.Legal → fields.depth ≤ cborParserMaxRecursions → (value : fields.denote) → FieldsFit uint32Max fields value →
    ∀ {depth : Nat} {before : List Entry} {bytes tail : Bytes} {map : CborValue} (out : fields.denote), Ready map →
      Head 5 (before ++ fieldEntries fields value).length bytes →
      map.rest = bytes ++ (entryItems (before ++ fieldEntries fields value)).flatten ++ tail →
      Entries depth (before ++ fieldEntries fields value) → depth ≤ cborParserMaxRecursions →
      ((before ++ fieldEntries fields value).map Entry.name).Nodup →
      decodeFields target fields map out = some (.noError, value)
  | .nil, _, _, _, _, _, _, _, _, _, _, _, _, _, _, _, _, _, _ => rfl
  | .cons name type rest, encodable, compiles, legal, deep, value, fits, depth, before, bytes, tail, map, out, ready, isHead,
      place, sound, deepEntries, distinct => by
    have encodables := fieldsEncode_cons.mp encodable
    have both := fieldsDecode_cons.mp compiles
    rw [Fields.depth, Nat.max_le] at deep
    have reads := decode_encoding type encodables.1 both.1 legal.2.1 deep.1 value.1 fits.1
    have differ : ∀ entry ∈ before, entry.name ≠ name := by
      intro entry member
      rw [List.map_append, List.nodup_append] at distinct
      exact distinct.2.2 entry.name (List.mem_map_of_mem member) name (by simp [fieldEntries])
    have field := decodeField_back ready isHead place sound deepEntries legal.1.1 differ reads out.1
    have shift : before ++ fieldEntries (.cons name type rest) value =
        (before ++ [⟨name, encoding type value.1⟩]) ++ fieldEntries rest value.2 := by
      simp [fieldEntries]
    rw [shift] at isHead place sound distinct
    have others := decodeFields_entries rest encodables.2 both.2 legal.2.2 deep.2 value.2 fits.2 out.2 ready isHead place
      sound deepEntries distinct
    simp only [decodeFields, field, ne_eq, not_true_eq_false, if_false, others, Option.map_some]
    rfl

end

end

end AxbyCore.Serialization.Proofs
