import AxbyCore.Proofs.StructErrors
import Mathlib.Data.List.Forall2
import Mathlib.Data.List.Nodup

/-! Items that hold a value with the entries of its structs in any order and with others among
them. The decoder looks for each field by its name, so it reads the value from all of them. -/

namespace AxbyCore.Serialization.Proofs
open Tinycbor Tinycbor.Proofs Rfc8949

mutual

/-- The item is the encoding of the value, but for the maps of structs: their entries are in any
order, with others among them that have no name of a field. `named` tells which keys have a name;
the item nests no deeper than `depth`, and no map has more entries than the parser counts. -/
def Variant (named : Bytes → Bytes → Prop) : (type : Ty) → Nat → type.denote → Bytes → Prop
  | .array elem size => fun depth value item =>
    match asSpan (.array elem size) with
    | some bytes => item = byteString (bytes value)
    | none => ∃ inner items, depth = inner + 1 ∧ item = head 4 (List.length items) ++ List.flatten items ∧
      List.Forall₂ (Variant named elem inner) value.val items
  | .vector elem => fun depth value item =>
    match asSpan (.vector elem) with
    | some bytes => item = byteString (bytes value)
    | none => ∃ inner items, depth = inner + 1 ∧ item = head 4 (List.length items) ++ List.flatten items ∧
      List.Forall₂ (Variant named elem inner) (show List elem.denote from value) items
  | .struct fields => fun depth value item =>
    ∃ inner bytes own foreign entries, depth = inner + 1 ∧ item = bytes ++ List.flatten (pairItems entries) ∧
      Head 5 entries.length bytes ∧ (pairItems entries).length < uint32Max ∧ entries.Perm (own ++ foreign) ∧
      FieldVariants named fields inner value own ∧
      ∀ pair ∈ foreign, (∀ name ∈ fields.names, ¬ named pair.key name) ∧
        WellFormed uint32Max inner pair.key ∧ WellFormed uint32Max inner pair.value
  | type => fun _ value item => item = encoding type value

/-- The entries of the fields themselves. -/
def FieldVariants (named : Bytes → Bytes → Prop) : (fields : Fields) → Nat → fields.denote → List Pair → Prop
  | .nil => fun _ _ own => own = []
  | .cons name type rest => fun depth value own =>
    ∃ item others, own = ⟨textString name, item⟩ :: others ∧ Variant named type depth value.1 item ∧
      FieldVariants named rest depth value.2 others

end

/-- The decoder reads the value from the item wherever the parser stands at it. -/
def Yields {α : Type} (decode : Decode α) (item : Bytes) (value : α) : Prop :=
  ∀ it out, Placed item it → decode it out = some (.noError, value)

/-! Keys. -/

/-- A name is a text string, or a tag is in front of it. -/
theorem Named.majorOf {key name : Bytes} (named : Named key name) :
    Rfc8949.majorOf key = some 3 ∨ Rfc8949.majorOf key = some 6 := by
  obtain ⟨bare, tagged, string⟩ := named
  cases tagged with
  | bare => exact .inl (string.majorOf (by decide))
  | tag isHead inner => exact .inr (isHead.majorOf (by decide) _)

/-- A key that is a text string has its own name only. -/
theorem named_textString {text name : Bytes} (fits : text.length < 2 ^ 64) (named : Named (textString text) name) :
    name = text := by
  obtain ⟨bare, tagged, string⟩ := named
  have isHead := head_isHead 3 fits
  have first : majorOf (textString text) = some 3 := isHead.majorOf (by decide) text
  generalize same : textString text = key at tagged
  cases tagged with
  | @tag number bytes item tagHead inner =>
    have six := tagHead.majorOf (by decide) item
    rw [← same, first] at six
    cases six
  | bare =>
    cases string with
    | @whole bytes nameHead =>
      have place : ({ rest := textString text } : CborValue).rest = head 3 text.length ++ text := rfl
      have again : ({ rest := textString text } : CborValue).rest = bytes ++ name := same
      obtain ⟨ready, parsed, -, at_⟩ := preparse_head isHead (by decide) place
      obtain ⟨other, parsedAgain, -, atAgain⟩ := preparse_head nameHead (by decide) again
      rw [parsed] at parsedAgain
      obtain rfl := Except.ok.inj parsedAgain
      have length := atAgain.value.symm.trans at_.value
      exact (List.append_inj' (same.symm.trans rfl) length).2
    | chunks each content =>
      have definite : Definite (textString text) := head_definite isHead (by decide) text
      rw [same] at definite
      exact absurd definite (open_not_definite (by decide) _)

theorem textString_named (name : Bytes) (fits : name.length < 2 ^ 64) : Named (textString name) name :=
  ⟨textString name, .bare, .whole (head_isHead 3 fits)⟩

section
variable {named : Bytes → Bytes → Prop}

theorem FieldVariants.keys : {fields : Fields} → {depth : Nat} → {value : fields.denote} → {own : List Pair} →
    FieldVariants named fields depth value own → own.map Pair.key = fields.names.map textString
  | .nil, _, _, _, nothing => by
    obtain rfl := nothing
    rfl
  | .cons name type rest, depth, value, own, ⟨item, others, same, variant, variants⟩ => by
    obtain rfl := same
    rw [List.map_cons, FieldVariants.keys variants]
    rfl

end

/-! Lists and fields. -/

section
variable {α : Type} {fixedSize : Bool} {decode : Decode α}

/-- The loop reads the values from items that each yield one. -/
theorem elements_yield (numbers : fixedSize = true → ∀ {it out read}, decode it out = some read → isFixedType it.type = true)
    (untagged : ∀ {item it out read}, Within item → Placed item it → decode it out = some read → it.type ≠ .tag)
    {values outs : List α} {items : List Bytes} {tail : Bytes} {it : CborValue}
    (yields : List.Forall₂ (fun value item => Yields decode item value) values items)
    (within : ∀ item ∈ items, Within item) (short : items.length < uint32Max) (ahead : AheadOf false false items tail it)
    (size : outs.length = items.length) : decodeElements fixedSize decode it outs = some (.noError, values) := by
  induction yields generalizing it outs with
  | nil =>
    obtain rfl := List.eq_nil_of_length_eq_zero size
    rfl
  | @cons value item values items first rest ih =>
    cases outs with
    | nil => cases size
    | cons out outs =>
      have others : ∀ other ∈ items, Within other := fun other member => within other (by simp [member])
      have place : it.rest = item ++ (items.flatten ++ (ending false ++ tail)) := by simpa using ahead.rest
      have placed := ahead.placed (fun _ => short) others
      have whole := within item (by simp)
      have decoded := first it out placed
      have bare := untagged_item placed.ready whole place (untagged whole placed decoded)
      obtain ⟨next, advanced, aheadNext⟩ := advance_within ahead whole bare (fun _ => short) others
      have advance := advanceElement_eq fun yes => numbers yes decoded
      unfold advanceElement at advance
      rw [List.length_cons] at short
      have loop := ih others (by omega) aheadNext (Nat.succ.inj size)
      rw [decodeElements, decoded, advance, advanced]
      simp only [ne_eq, not_true_eq_false, if_false, afterParse, loop, Option.map_some]

theorem range_yields (numbers : fixedSize = true → ∀ {it out read}, decode it out = some read → isFixedType it.type = true)
    (untagged : ∀ {item it out read}, Within item → Placed item it → decode it out = some read → it.type ≠ .tag)
    {resize : Nat → List α → List α} {values out : List α} {items : List Bytes} {it : CborValue}
    (yields : List.Forall₂ (fun value item => Yields decode item value) values items)
    (within : ∀ item ∈ items, Within item) (short : items.length < uint32Max)
    (placed : Placed (head 4 items.length ++ items.flatten) it) (size : (resize items.length out).length = items.length) :
    decodeRange fixedSize resize decode it out = some (.noError, values) := by
  obtain ⟨ready, tail, rest, -⟩ := placed
  have isHead : Head 4 items.length (head 4 items.length) := head_isHead 4 (by unfold uint32Max at short; omega)
  obtain ⟨valueIt, -, -, ahead, ranges⟩ := range_enters ready isHead rest short within fixedSize resize decode out
  rw [ranges, if_neg (not_not.mpr size)]
  exact elements_yield numbers untagged yields within short ahead size

end

section
variable {pairs : List Pair} {item tail name : Bytes} {map : CborValue}

/-- A field is read from the only entry that has its name. -/
theorem field_yields {α : Type} {decode : Decode α} {value : α} {pair : Pair} (isMap : MapOf pairs false item) (ready : Ready map)
    (rest : map.rest = item ++ tail) (short : (pairItems pairs).length < uint32Max) (within : ∀ other ∈ pairItems pairs, Within other)
    (present : pair ∈ pairs) (named : Named pair.key name) (only : ∀ other ∈ pairs, Named other.key name → other.value = pair.value)
    (nonzero : 0 ∉ name) (fits : name.length < 2 ^ 64) (yields : Yields decode pair.value value) (f : α) :
    decodeField name decode map f = some (.noError, value) := by
  have steppable : ∀ other ∈ pairs, Within other.key ∧ Within other.value := by
    intro other member
    have items : ∀ item ∈ [other.key, other.value], item ∈ pairItems pairs :=
      fun item held => List.mem_flatMap.mpr ⟨other, member, held⟩
    exact ⟨within _ (items _ (by simp)), within _ (items _ (by simp))⟩
  rcases search_cases name pairs with ⟨before, key, found, after, rfl, others, here⟩ | ⟨before, key, found, after, rfl, refused⟩ | all
  · have same : found = pair.value := only ⟨key, found⟩ (by simp) here
    obtain ⟨element, looked, valid, -, placed⟩ := find_placed isMap ready rest (fun _ => short) within others here nonzero fits
    rw [same] at placed
    exact decodeField_found looked valid (yields element f placed)
  · exact absurd (steppable ⟨key, found⟩ (by simp)) refused.2.2
  · exact absurd named (all pair present).1

end

/-! All types. -/

section
variable {named : Bytes → Bytes → Prop} {elem : Ty} {size depth : Nat} {item : Bytes}

theorem variant_array_span {bytes : (Ty.array elem size).denote → Bytes} {value : (Ty.array elem size).denote}
    (span : asSpan (.array elem size) = some bytes) (variant : Variant named (.array elem size) depth value item) :
    item = byteString (bytes value) := by
  simpa only [Variant, span] using variant

theorem variant_array {value : (Ty.array elem size).denote} (span : asSpan (.array elem size) = none)
    (variant : Variant named (.array elem size) depth value item) :
    ∃ inner items, depth = inner + 1 ∧ item = head 4 (List.length items) ++ List.flatten items ∧
      List.Forall₂ (Variant named elem inner) value.val items := by
  simpa only [Variant, span] using variant

theorem variant_vector_span {bytes : (Ty.vector elem).denote → Bytes} {value : (Ty.vector elem).denote}
    (span : asSpan (.vector elem) = some bytes) (variant : Variant named (.vector elem) depth value item) :
    item = byteString (bytes value) := by
  simpa only [Variant, span] using variant

theorem variant_vector {value : List elem.denote} (span : asSpan (.vector elem) = none)
    (variant : Variant named (.vector elem) depth value item) :
    ∃ inner items, depth = inner + 1 ∧ item = head 4 (List.length items) ++ List.flatten items ∧
      List.Forall₂ (Variant named elem inner) value items := by
  simpa only [Variant, span] using variant

/-- What holds of all partners of the left members holds of the right members. -/
theorem right_members {α β : Type} {relation : α → β → Prop} {property : β → Prop} {left : List α} {right : List β}
    (related : List.Forall₂ relation left right) (each : ∀ a ∈ left, ∀ b, relation a b → property b) :
    ∀ b ∈ right, property b := by
  induction related with
  | nil => exact fun b member => absurd member List.not_mem_nil
  | @cons a b left right first rest ih =>
    intro other member
    rcases List.mem_cons.mp member with rfl | member
    · exact each a (by simp) other first
    · exact ih (fun a held => each a (by simp [held])) other member

end

/-- What holds of the own entries and of the foreign ones holds of all. -/
theorem permuted_members {entries own foreign : List Pair} {property : Pair → Prop} (permuted : entries.Perm (own ++ foreign))
    (ofOwn : ∀ pair ∈ own, property pair) (ofForeign : ∀ pair ∈ foreign, property pair) : ∀ pair ∈ entries, property pair := by
  intro pair held
  rcases List.mem_append.mp (permuted.mem_iff.mp held) with held | held
  · exact ofOwn pair held
  · exact ofForeign pair held

theorem encoding_wellFormed {type : Ty} (compiles : encodes type = true) (legal : type.Legal) (flat : type.depth = 0)
    {value : type.denote} (fits : Fits uint32Max type value) (depth : Nat) : WellFormed uint32Max depth (encoding type value) := by
  have isItem := encoding_item type compiles legal value fits
  rw [flat] at isItem
  exact isItem.wellFormed.deeper (Nat.zero_le depth)

theorem list_wellFormed {items : List Bytes} {depth : Nat} (short : items.length < uint32Max)
    (each : ∀ item ∈ items, WellFormed uint32Max depth item) :
    WellFormed uint32Max (depth + 1) (head 4 items.length ++ items.flatten) :=
  .container (.inl rfl) (head_isHead 4 (by unfold uint32Max at short; omega)) rfl short each

section
variable {target : Target} {named : Bytes → Bytes → Prop}

mutual

/-- Rearranging the entries of structs leaves an item well-formed. -/
theorem variant_wellFormed : (type : Ty) → encodes type = true → type.Legal → (depth : Nat) → (value : type.denote) →
    Fits uint32Max type value → (item : Bytes) → Variant named type depth value item → WellFormed uint32Max depth item
  | .bool, compiles, legal, depth, _, fits, _, same => by
    obtain rfl := same
    exact encoding_wellFormed compiles legal rfl fits depth
  | .uint _, compiles, legal, depth, _, fits, _, same => by
    obtain rfl := same
    exact encoding_wellFormed compiles legal rfl fits depth
  | .sint _, compiles, legal, depth, _, fits, _, same => by
    obtain rfl := same
    exact encoding_wellFormed compiles legal rfl fits depth
  | .float, compiles, legal, depth, _, fits, _, same => by
    obtain rfl := same
    exact encoding_wellFormed compiles legal rfl fits depth
  | .double, compiles, legal, depth, _, fits, _, same => by
    obtain rfl := same
    exact encoding_wellFormed compiles legal rfl fits depth
  | .byte, compiles, _, _, _, _, _, _ => by cases compiles
  | .string, compiles, legal, depth, _, fits, _, same => by
    obtain rfl := same
    exact encoding_wellFormed compiles legal rfl fits depth
  | .stringView, compiles, legal, depth, _, fits, _, same => by
    obtain rfl := same
    exact encoding_wellFormed compiles legal rfl fits depth
  | .smallString _, compiles, legal, depth, _, fits, _, same => by
    obtain rfl := same
    exact encoding_wellFormed compiles legal rfl fits depth
  | .byteSpan, compiles, legal, depth, _, fits, _, same => by
    obtain rfl := same
    exact encoding_wellFormed compiles legal rfl fits depth
  | .uint8Span, compiles, legal, depth, _, fits, _, same => by
    obtain rfl := same
    exact encoding_wellFormed compiles legal rfl fits depth
  | .enumeration _, compiles, legal, depth, _, fits, _, same => by
    obtain rfl := same
    exact encoding_wellFormed compiles legal rfl fits depth
  | .array elem size, compiles, legal, depth, value, fits, item, variant => by
    cases span : asSpan (.array elem size) with
    | some bytes =>
      rw [variant_array_span span variant]
      exact (byteString_item (fits_array_span span fits)).wellFormed
    | none =>
      obtain ⟨inner, items, rfl, rfl, each⟩ := variant_array span variant
      have limits := fits_array span fits
      apply list_wellFormed (by rw [← each.length_eq]; exact limits.1)
      exact right_members each fun value member item =>
        variant_wellFormed elem (encodes_array span compiles) legal inner value (limits.2 value member) item
  | .vector elem, compiles, legal, depth, value, fits, item, variant => by
    cases span : asSpan (.vector elem) with
    | some bytes =>
      rw [variant_vector_span span variant]
      exact (byteString_item (fits_vector_span span fits)).wellFormed
    | none =>
      obtain ⟨inner, items, rfl, rfl, each⟩ := variant_vector span variant
      have limits := fits_vector span fits
      apply list_wellFormed (by rw [← each.length_eq]; exact limits.1)
      exact right_members each fun value member item =>
        variant_wellFormed elem (encodes_vector span compiles) legal inner value (limits.2 value member) item
  | .struct fields, compiles, legal, depth, value, fits, item, variant => by
    obtain ⟨inner, bytes, own, foreign, entries, rfl, rfl, isHead, short, permuted, variants, others⟩ := variant
    have ownEntries := fieldVariants_wellFormed fields compiles legal.2.2 inner value fits own variants
    apply WellFormed.container (.inr rfl) isHead (pairItems_length entries) short
    apply pairItems_members
    exact permuted_members permuted ownEntries fun pair held => (others pair held).2

theorem fieldVariants_wellFormed : (fields : Fields) → fieldsEncode fields = true → fields.Legal → (depth : Nat) →
    (value : fields.denote) → FieldsFit uint32Max fields value → (own : List Pair) → FieldVariants named fields depth value own →
    ∀ pair ∈ own, WellFormed uint32Max depth pair.key ∧ WellFormed uint32Max depth pair.value
  | .nil, _, _, _, _, _, _, nothing, pair, member => by
    obtain rfl := nothing
    cases member
  | .cons name type rest, compiles, legal, depth, value, fits, own, variants, pair, member => by
    obtain ⟨item, others, rfl, variant, variants⟩ := variants
    have both := fieldsEncode_cons.mp compiles
    rcases List.mem_cons.mp member with rfl | member
    · exact ⟨(textString_item legal.1.2).wellFormed,
        variant_wellFormed type both.1 legal.2.1 depth value.1 fits.1 item variant⟩
    · exact fieldVariants_wellFormed rest both.2 legal.2.2 depth value.2 fits.2 others variants pair member

end

/-- The decoder of what compiles is never at a tag where it returns. -/
theorem returned_untagged {type : Ty} (compiles : decodes target type = true) (legal : type.Legal) {item : Bytes} {it : CborValue}
    {out : type.denote} {read : CborError × type.denote} (within : Within item) (placed : Placed item it)
    (returned : decode target type it out = some read) : it.type ≠ .tag :=
  (decode_completes type compiles legal _ _ item it out read.1 read.2 within placed returned).1

/-- Where a range is a span of bytes, the branch for bytes reads it back. -/
theorem span_yields {type : Ty} {bytes : type.denote → Bytes} (overload : decodeOverload target type = none)
    (notEnum : enumCast type = none) (span : asSpan type = some bytes) (compiles : (decodeLeaf target type).isSome = true)
    {value : type.denote} (fits : (bytes value).length < 2 ^ 64) :
    Yields ((decodeLeaf target type).getD uncompiled) (byteString (bytes value)) value := by
  obtain ⟨assign, same, assigned⟩ := decodeLeaf_assigns overload notEnum span compiles
  intro it out placed
  have viewed := (decodeSpan_strings placed).right [] _ (bytes value) (head_isHead 2 fits) rfl
  rw [same]
  exact decodeAs_back viewed (assigned value) out

/-- In a rearranged map only the own entry of a field has its name. -/
theorem only_named {fields : Fields} {depth : Nat} {value : fields.denote} {own foreign entries : List Pair}
    (distinct : fields.names.Nodup) (legal : fields.Legal) (permuted : entries.Perm (own ++ foreign))
    (variants : FieldVariants Named fields depth value own)
    (others : ∀ pair ∈ foreign, ∀ name ∈ fields.names, ¬ Named pair.key name) :
    ∀ pair ∈ own, ∀ name, Identifier name → pair.key = textString name →
      ∀ other ∈ entries, Named other.key name → other.value = pair.value := by
  have keys := FieldVariants.keys variants
  have named_eq : ∀ first ∈ fields.names, ∀ second, Named (textString first) second → second = first :=
    fun first among second named => named_textString (Fields.Legal.names_fit legal first among).2 named
  have unique : (own.map Pair.key).Nodup := by
    rw [keys]
    apply List.Nodup.map_on _ distinct
    intro first among second amongToo same
    have named := textString_named second (Fields.Legal.names_fit legal second amongToo).2
    rw [← same] at named
    exact (named_eq first among second named).symm
  have nameOf : ∀ pair ∈ own, ∃ name ∈ fields.names, pair.key = textString name := by
    intro pair held
    have listed : pair.key ∈ own.map Pair.key := List.mem_map_of_mem held
    rw [keys] at listed
    obtain ⟨name, among, same⟩ := List.mem_map.mp listed
    exact ⟨name, among, same.symm⟩
  intro pair held name identifier key other member named
  rcases List.mem_append.mp (permuted.mem_iff.mp member) with heldToo | elsewhere
  · obtain ⟨otherName, among, otherKey⟩ := nameOf other heldToo
    rw [otherKey] at named
    have same : other.key = pair.key := by rw [otherKey, key, named_eq otherName among name named]
    rw [List.inj_on_of_nodup_map unique heldToo held same]
  · obtain ⟨ownName, among, ownKey⟩ := nameOf pair held
    have isNamed := textString_named name identifier.2
    rw [← key, ownKey] at isNamed
    rw [named_eq ownName among name isNamed] at named
    exact absurd named (others other elsewhere ownName among)

/-- A range reads a list from items that each hold one of its values. -/
theorem range_variants {elem : Ty} (compiles : decodes target elem = true) (legal : elem.Legal) {less : Nat}
    {resize : Nat → List elem.denote → List elem.denote} {values out : List elem.denote} {items : List Bytes} {it : CborValue}
    (each : List.Forall₂ (Variant Named elem less) values items)
    (yields : ∀ value ∈ values, ∀ item, Variant Named elem less value item → Yields (decode target elem) item value)
    (wellFormed : ∀ value ∈ values, ∀ item, Variant Named elem less value item → WellFormed uint32Max less item)
    (deep : less ≤ cborParserMaxRecursions) (short : values.length < uint32Max)
    (placed : Placed (head 4 items.length ++ items.flatten) it) (size : (resize values.length out).length = values.length) :
    decodeRange (isFixedSize elem) resize (decode target elem) it out = some (.noError, values) := by
  have within : ∀ item ∈ items, Within item :=
    right_members each fun value member item variant => (wellFormed value member item variant).deeper deep
  have yieldsAll : List.Forall₂ (fun value item => Yields (decode target elem) item value) values items := by
    have both := (List.forall₂_and_left _ _).mpr ⟨yields, each⟩
    exact both.imp fun value item held => held.1 item held.2
  have length := each.length_eq
  apply range_yields (fun fixed _ _ _ => fixedSize_numbers elem compiles fixed)
    (fun within placed => returned_untagged compiles legal within placed) yieldsAll within
  · exact length ▸ short
  · exact placed
  · exact length ▸ size

mutual

/-- The decoder of a type reads a value from every item that it is rearranged into. -/
theorem variant_yields : (type : Ty) → encodes type = true → decodes target type = true → type.Legal → (depth : Nat) →
    depth ≤ cborParserMaxRecursions + 1 → (value : type.denote) → Fits uint32Max type value → (item : Bytes) →
    Variant Named type depth value item → Yields (decode target type) item value
  | .bool, _, compiles, _, _, _, _, _, _, _ => by cases compiles
  | .uint _, _, _, _, _, _, value, _, _, same => by
    obtain rfl := same
    intro it out placed
    obtain ⟨tail, rest, -⟩ := placed.followed
    exact decode_uint value out placed.ready rest
  | .sint _, _, _, _, _, _, value, _, _, same => by
    obtain rfl := same
    intro it out placed
    obtain ⟨tail, rest, -⟩ := placed.followed
    exact decode_sint value out placed.ready rest
  | .float, _, _, _, _, _, value, _, _, same => by
    obtain rfl := same
    intro it out placed
    obtain ⟨tail, rest, -⟩ := placed.followed
    exact decode_float target value out placed.ready rest
  | .double, _, _, _, _, _, value, _, _, same => by
    obtain rfl := same
    intro it out placed
    obtain ⟨tail, rest, -⟩ := placed.followed
    exact decode_double value out placed.ready rest
  | .byte, compiles, _, _, _, _, _, _, _, _ => by cases compiles
  | .string, _, _, _, _, _, value, fits, _, same => by
    obtain rfl := same
    exact fun it out placed => (decodeString_strings placed).right out _ value (head_isHead 3 fits) rfl
  | .stringView, _, _, _, _, _, value, fits, _, same => by
    obtain rfl := same
    exact fun it out placed => (decodeStringView_strings placed).right out _ value (head_isHead 3 fits) rfl
  | .smallString _, _, _, _, _, _, value, fits, _, same => by
    obtain rfl := same
    intro it out placed
    have viewed := (decodeStringView_strings placed).right [] _ value.val (head_isHead 3 fits) rfl
    exact decodeAs_back viewed (dif_pos value.property) out
  | .byteSpan, _, _, _, _, _, value, fits, _, same => by
    obtain rfl := same
    exact fun it out placed => (decodeSpan_strings placed).right out _ value (head_isHead 2 fits) rfl
  | .uint8Span, _, _, _, _, _, value, fits, _, same => by
    obtain rfl := same
    exact fun it out placed => (decodeSpan_strings placed).right out _ value (head_isHead 2 fits) rfl
  | .enumeration enumerators, _, _, legal, _, _, value, _, _, same => by
    obtain rfl := same
    intro it out placed
    have identifier := legal _ (List.get_mem enumerators.names value)
    have viewed := (decodeStringView_strings placed).right [] _ _ (head_isHead 3 identifier.2) rfl
    exact decodeAs_back viewed (enumCast_enumName enumerators value) out
  | .array elem size, encodable, compiles, legal, depth, deep, value, fits, item, variant => by
    cases span : asSpan (.array elem size) with
    | some bytes =>
      have leaf := array_leaf target span
      rw [decode, if_pos leaf, variant_array_span span variant]
      exact span_yields rfl rfl span (by simpa [decodes, leaf] using compiles) (fits_array_span span fits)
    | none =>
      obtain ⟨notLeaf, inner⟩ := array_notLeaf span compiles
      have encodableElem := encodes_array span encodable
      obtain ⟨less, items, rfl, rfl, each⟩ := variant_array span variant
      have limits := fits_array span fits
      intro it out placed
      have elements : decodeRange (isFixedSize elem) (fun _ items => items) (decode target elem) it out.val =
          some (.noError, value.val) := range_variants inner legal each
        (fun value member => variant_yields elem encodableElem inner legal less (by omega) value (limits.2 value member))
        (fun value member => variant_wellFormed elem encodableElem legal less value (limits.2 value member)) (by omega) limits.1
        placed (out.property.trans value.property.symm)
      rw [decode, if_neg notLeaf]
      simp only [elements, value.property, dite_true]
      rfl
  | .vector elem, encodable, compiles, legal, depth, deep, value, fits, item, variant => by
    cases span : asSpan (.vector elem) with
    | some bytes =>
      have leaf := vector_leaf target span
      rw [decode_vector_leaf leaf, variant_vector_span span variant]
      exact span_yields rfl rfl span (by simpa [decodes, leaf] using compiles) (fits_vector_span span fits)
    | none =>
      obtain ⟨notLeaf, inner⟩ := vector_notLeaf span compiles
      have encodableElem := encodes_vector span encodable
      obtain ⟨less, items, rfl, rfl, each⟩ := variant_vector span variant
      have limits := fits_vector span fits
      intro it out placed
      rw [decode_vector_range notLeaf]
      exact range_variants inner legal each
        (fun value member => variant_yields elem encodableElem inner legal less (by omega) value (limits.2 value member))
        (fun value member => variant_wellFormed elem encodableElem legal less value (limits.2 value member)) (by omega) limits.1
        placed (resizeTo_length ..)
  | .struct fields, encodable, compiles, legal, depth, deep, value, fits, item, variant => by
    obtain ⟨notLeaf, inner⟩ := struct_notLeaf compiles
    obtain ⟨less, bytes, own, foreign, entries, rfl, rfl, isHead, short, permuted, variants, others⟩ := variant
    have ownEntries := fieldVariants_wellFormed fields encodable legal.2.2 less value fits own variants
    have within : ∀ other ∈ pairItems entries, Within other := by
      apply pairItems_members
      intro pair held
      have both := permuted_members permuted ownEntries (fun pair held => (others pair held).2) pair held
      exact ⟨both.1.deeper (by omega), both.2.deeper (by omega)⟩
    have only := only_named legal.1 legal.2.2 permuted variants fun pair held => (others pair held).1
    intro it out placed
    obtain ⟨tail, rest, -⟩ := placed.followed
    have isMap : it.isMap = true := (MapOf.counted isHead).isMap placed.ready rest
    have fieldsRead := fieldVariants_yield fields encodable inner legal.2.2 less (by omega) value fits own variants out
      (.counted isHead) placed.ready rest short within
      (fun pair held => permuted.mem_iff.mpr (List.mem_append_left _ held)) only
    rw [decode, if_neg (by simp [notLeaf])]
    simp [isMap, fieldsRead]

theorem fieldVariants_yield : (fields : Fields) → fieldsEncode fields = true → fieldsDecode target fields = true →
    fields.Legal → (depth : Nat) → depth ≤ cborParserMaxRecursions + 1 → (value : fields.denote) →
    FieldsFit uint32Max fields value → (own : List Pair) → FieldVariants Named fields depth value own →
    ∀ {pairs : List Pair} {item tail : Bytes} {map : CborValue} (out : fields.denote), MapOf pairs false item → Ready map →
      map.rest = item ++ tail → (pairItems pairs).length < uint32Max → (∀ other ∈ pairItems pairs, Within other) →
      (∀ pair ∈ own, pair ∈ pairs) →
      (∀ pair ∈ own, ∀ name, Identifier name → pair.key = textString name →
        ∀ other ∈ pairs, Named other.key name → other.value = pair.value) →
      decodeFields target fields map out = some (.noError, value)
  | .nil, _, _, _, _, _, _, _, _, _, _, _, _, _, _, _, _, _, _, _, _, _ => rfl
  | .cons name type rest, encodable, compiles, legal, depth, deep, value, fits, own, variants, pairs, item, tail, map, out,
      isMap, ready, place, short, within, present, only => by
    obtain ⟨held, others, rfl, variant, variants⟩ := variants
    have encodables := fieldsEncode_cons.mp encodable
    have both := fieldsDecode_cons.mp compiles
    have yields := variant_yields type encodables.1 both.1 legal.2.1 depth deep value.1 fits.1 held variant
    have named : Named (textString name) name := textString_named name legal.1.2
    have own : (⟨textString name, held⟩ : Pair) ∈ ⟨textString name, held⟩ :: others := List.mem_cons_self
    have field := field_yields isMap ready place short within (present _ own) named (only _ own name legal.1 rfl) legal.1.1
      legal.1.2 yields out.1
    have behind := fieldVariants_yield rest encodables.2 both.2 legal.2.2 depth deep value.2 fits.2 others variants out.2 isMap
      ready place short within (fun pair member => present pair (List.mem_cons_of_mem _ member))
      fun pair member => only pair (List.mem_cons_of_mem _ member)
    simp only [decodeFields, field, ne_eq, not_true_eq_false, if_false, behind, Option.map_some]
    rfl

end

/-- Whatever the order of the entries of structs and whatever others are among them,
`deserialize_cbor` returns true and the value. -/
theorem rearranged_decoded {type : Ty} (encodable : encodes type = true) (compiles : decodes target type = true)
    (legal : type.Legal) {value : type.denote} (fits : Fits uint32Max type value) {item : Bytes}
    (variant : Variant Named type (cborParserMaxRecursions + 1) value item) (trailing : Bytes) (out : type.denote) :
    deserializeCbor target type out (item ++ trailing) = some (true, value) := by
  have wellFormed := variant_wellFormed type encodable legal _ value fits item variant
  obtain ⟨val, parsed, placed⟩ := placed_init wellFormed trailing
  have decoded := variant_yields type encodable compiles legal _ (Nat.le_refl _) value fits item variant val out placed
  rw [deserializeCbor, parsed]
  simp only [decoded, Option.map_some]
  rfl

end

/-- `struct { uint8_t a; uint8_t b; }` -/
def twoFields : Fields := .cons [0x61] (.uint .w8) (.cons [0x62] (.uint .w8) .nil)

/-- The second field comes first, and a list under a number is between them. -/
theorem rearranged_decoded_two :
    deserializeCbor ieeeTarget (.struct twoFields) (0#8, 0#8, ())
      [0xa3, 0x61, 0x62, 0x02, 0x05, 0x81, 0x80, 0x61, 0x61, 0x01] = some (true, (1#8, 2#8, ())) := by
  have legal : (Ty.struct twoFields).Legal :=
    ⟨by decide, by decide, ⟨by decide, by decide⟩, trivial, ⟨by decide, by decide⟩, trivial, trivial⟩
  have numberHead : Head 0 5 [0x05] := .short (by decide)
  have emptyHead : Head 4 0 [0x80] := .short (by decide)
  have listHead : Head 4 1 [0x81] := .short (by decide)
  have empty : WellFormed uint32Max 1023 [0x80] :=
    .container (.inl rfl) emptyHead rfl (by decide) fun item member => absurd member List.not_mem_nil
  have list : WellFormed uint32Max 1024 [0x81, 0x80] := by
    have each : ∀ item ∈ [[(0x80 : UInt8)]], WellFormed uint32Max 1023 item := by
      intro item member
      obtain rfl := List.mem_singleton.mp member
      exact empty
    exact .container (.inl rfl) listHead rfl (by decide) each
  have isHead : Head 5 3 [0xa3] := .short (by decide)
  have variant : Variant Named (.struct twoFields) (cborParserMaxRecursions + 1) (1#8, 2#8, ())
      [0xa3, 0x61, 0x62, 0x02, 0x05, 0x81, 0x80, 0x61, 0x61, 0x01] := by
    have shuffled (first second other : Pair) : [second, other, first].Perm ([first, second] ++ [other]) :=
      List.perm_append_singleton first [second, other]
    refine ⟨1024, [0xa3], _, _, [⟨textString [0x62], [0x02]⟩, ⟨[0x05], [0x81, 0x80]⟩, ⟨textString [0x61], [0x01]⟩], rfl, rfl,
      isHead, by decide, shuffled .., ⟨[0x01], _, rfl, rfl, ⟨[0x02], _, rfl, rfl, rfl⟩⟩, ?_⟩
    intro pair member
    obtain rfl := List.mem_singleton.mp member
    refine ⟨?_, .integer (by decide) numberHead, list⟩
    intro name _ named
    rcases Named.majorOf named with three | six
    · cases three
    · cases six
  have encodable : encodes (.struct twoFields) = true := rfl
  have compiles : decodes ieeeTarget (.struct twoFields) = true := rfl
  have fits : Fits uint32Max (.struct twoFields) (1#8, 2#8, ()) := ⟨trivial, trivial, trivial⟩
  exact rearranged_decoded encodable compiles legal fits variant [] (0#8, 0#8, ())

/-- `struct { uint8_t a; }` with the value 2, behind an entry whose key is the name under a tag. -/
theorem tagged_name_decoded :
    ¬ ∀ (fields : Fields) (value out : fields.denote) (item : Bytes), encodes (.struct fields) = true →
      decodes ieeeTarget (.struct fields) = true → (Ty.struct fields).Legal → Fits uint32Max (.struct fields) value →
      Variant (fun key name => StringOf 3 name key) (.struct fields) (cborParserMaxRecursions + 1) value item →
      deserializeCbor ieeeTarget (.struct fields) out item = some (true, value) := by
  intro all
  have legal : (Ty.struct oneField).Legal := ⟨by decide, by decide, ⟨by decide, by decide⟩, trivial, trivial⟩
  have tagHead : Head 6 0 [0xc0] := .short (by decide)
  have numberHead : Head 0 1 [0x01] := .short (by decide)
  have isHead : Head 5 2 [0xa2] := .short (by decide)
  have text : Item 1024 (textString [0x61]) := textString_item (by decide)
  have tagged : WellFormed uint32Max 1024 [0xc0, 0x61, 0x61] :=
    .tag tagHead text.wellFormed
  have variant : Variant (fun key name => StringOf 3 name key) (.struct oneField) (cborParserMaxRecursions + 1) (2#8, ())
      [0xa2, 0xc0, 0x61, 0x61, 0x01, 0x61, 0x61, 0x02] := by
    have shuffled : [⟨[0xc0, 0x61, 0x61], [0x01]⟩, (⟨textString [0x61], [0x02]⟩ : Pair)].Perm
        ([⟨textString [0x61], [0x02]⟩] ++ [⟨[0xc0, 0x61, 0x61], [0x01]⟩]) := .swap ..
    refine ⟨1024, [0xa2], _, _, [⟨[0xc0, 0x61, 0x61], [0x01]⟩, ⟨textString [0x61], [0x02]⟩], rfl, rfl, isHead, by decide,
      shuffled, ⟨[0x02], _, rfl, rfl, rfl⟩, ?_⟩
    intro pair member
    obtain rfl := List.mem_singleton.mp member
    refine ⟨?_, tagged, .integer (by decide) numberHead⟩
    rintro name - string
    cases string.majorOf (by decide)
  have decoded := all oneField (2#8, ()) (0#8, ()) _ rfl rfl legal ⟨trivial, trivial⟩ variant
  have first : (deserializeCbor ieeeTarget (.struct oneField) (0#8, ()) [0xa2, 0xc0, 0x61, 0x61, 0x01, 0x61, 0x61, 0x02]).map
      (fun result => (show BitVec 8 from result.2.1)) = some 1#8 := by decide +kernel
  rw [decoded] at first
  exact absurd (Option.some.inj first) (by decide)

end AxbyCore.Serialization.Proofs
