import AxbyCore.Proofs.DecodeLeaves
import AxbyCore.Proofs.SerializeBytes

/-! An encoding is one item, and a struct is a map of its fields. -/

namespace AxbyCore.Serialization.Proofs
open Tinycbor Tinycbor.Proofs Rfc8949

theorem textString_item {depth : Nat} {text : Bytes} (fits : text.length < 2 ^ 64) : Item depth (textString text) :=
  .string (Or.inr rfl) (head_isHead 3 fits)

theorem byteString_item {depth : Nat} {bytes : Bytes} (fits : bytes.length < 2 ^ 64) : Item depth (byteString bytes) :=
  .string (Or.inl rfl) (head_isHead 2 fits)

theorem boolItem (value : Bool) :
    Head 7 (value.toNat + 20) (head 7 (value.toNat + 20)) ∧ (head 7 (value.toNat + 20)).length ≠ 2 := by
  cases value
  · exact ⟨head_isHead 7 (by decide), by decide⟩
  · exact ⟨head_isHead 7 (by decide), by decide⟩

theorem intItem_head (value : BitVec 64) :
    ∃ major argument, major ≤ 1 ∧ Head major argument (intItem value.toInt) := by
  have low := BitVec.le_toInt value
  have high := BitVec.toInt_lt (x := value)
  unfold intItem
  split
  · exact ⟨1, _, Nat.le_refl 1, head_isHead 1 (by omega)⟩
  · exact ⟨0, _, Nat.zero_le 1, head_isHead 0 (by omega)⟩

theorem sintItem_head {width : Width} (value : BitVec width.bits) :
    ∃ major argument, major ≤ 1 ∧ Head major argument (intItem value.toInt) := by
  have le : width.bits ≤ 64 := by cases width <;> decide
  rw [← BitVec.toInt_signExtend_of_le le]
  exact intItem_head _

theorem uintItem_head {width : Width} (value : BitVec width.bits) : Head 0 value.toNat (uintItem value.toNat) :=
  head_isHead 0 (Nat.lt_of_lt_of_le value.isLt (Width.two_pow_le width))

theorem floatItem_head (value : BitVec 32) : Head 7 value.toNat (wideHead 7 2 value.toNat) :=
  .wide 2 (by decide) value.isLt

theorem doubleItem_head (value : BitVec 64) : Head 7 value.toNat (wideHead 7 3 value.toNat) :=
  .wide 3 (by decide) value.isLt

/-- The entries of the map that a struct is encoded as. -/
def fieldEntries : (fields : Fields) → fields.denote → List Entry
  | .nil, _ => []
  | .cons name type rest, value => ⟨name, encoding type value.1⟩ :: fieldEntries rest value.2

theorem fieldsEncoding_eq : (fields : Fields) → (value : fields.denote) →
    fieldsEncoding fields value = (entryItems (fieldEntries fields value)).flatten
  | .nil, _ => rfl
  | .cons name type rest, value => by
    have others := fieldsEncoding_eq rest value.2
    simp only [fieldsEncoding, fieldEntries, entryItems_cons, List.flatten_cons, others, List.append_assoc]
    rfl

theorem fieldEntries_names : (fields : Fields) → (value : fields.denote) →
    (fieldEntries fields value).map Entry.name = fields.names
  | .nil, _ => rfl
  | .cons name type rest, value => by
    simp only [fieldEntries, List.map_cons, Fields.names, fieldEntries_names rest value.2]

theorem fieldEntries_length (fields : Fields) (value : fields.denote) :
    (fieldEntries fields value).length = fields.names.length := by
  rw [← fieldEntries_names fields value, List.length_map]

theorem Fields.Legal.names_fit : {fields : Fields} → fields.Legal → ∀ name ∈ fields.names, Identifier name
  | .nil, _, _, member => by cases member
  | .cons _ _ _, legal, name, member => by
    rcases List.mem_cons.mp member with rfl | member
    · exact legal.1
    · exact names_fit legal.2.2 name member

/-- The fields of a struct can be looked up. -/
theorem fieldEntries_sound {depth : Nat} {fields : Fields} {value : fields.denote} (legal : (Ty.struct fields).Legal)
    (each : ∀ entry ∈ fieldEntries fields value, Item depth entry.value) : Entries depth (fieldEntries fields value) := by
  refine ⟨?_, ?_, each⟩
  · rw [fieldEntries_length]
    exact legal.2.1
  · intro entry member
    have name : entry.name ∈ fields.names := by
      rw [← fieldEntries_names fields value]
      exact List.mem_map_of_mem member
    exact (Fields.Legal.names_fit legal.2.2 _ name).2

theorem structEncoding_item {depth : Nat} {fields : Fields} {value : fields.denote} (legal : (Ty.struct fields).Legal)
    (each : ∀ entry ∈ fieldEntries fields value, Item depth entry.value) :
    Item (depth + 1) (head 5 fields.names.length ++ fieldsEncoding fields value) := by
  have short := legal.2.1
  rw [fieldsEncoding_eq]
  refine .map (head_isHead 5 (by omega)) ?_ short (fieldEntries_sound legal each).items
  rw [entryItems_length, fieldEntries_length, Nat.mul_comm]

theorem listEncoding_item {α : Type} {depth : Nat} {values : List α} {item : α → Bytes}
    (short : values.length < 2 ^ 32 - 1) (each : ∀ value ∈ values, Item depth (item value)) :
    Item (depth + 1) (head 4 values.length ++ values.flatMap item) := by
  have length : (values.map item).length = values.length := List.length_map ..
  rw [List.flatMap_def, ← length]
  refine .array (head_isHead 4 (by omega)) (by omega) ?_
  intro bytes member
  obtain ⟨value, held, rfl⟩ := List.mem_map.mp member
  exact each value held

theorem depth_array {elem : Ty} {size : Nat} (none : asSpan (.array elem size) = none) :
    (Ty.array elem size).depth = elem.depth + 1 := by
  simp [Ty.depth, none]

theorem depth_vector {elem : Ty} (none : asSpan (.vector elem) = none) : (Ty.vector elem).depth = elem.depth + 1 := by
  simp [Ty.depth, none]

mutual

/-- What the encoder writes for a value is one item. -/
theorem encoding_item : (type : Ty) → encodes type = true → type.Legal → (value : type.denote) →
    Fits uint32Max type value → Item type.depth (encoding type value)
  | .bool, _, _, value, _ => .simple (boolItem value).1 fun two => absurd two (boolItem value).2
  | .uint _, _, _, value, _ => .integer (Nat.zero_le 1) (uintItem_head value)
  | .sint _, _, _, value, _ => by
    obtain ⟨major, argument, kind, isHead⟩ := sintItem_head value
    exact .integer kind isHead
  | .float, _, _, value, _ => .simple (floatItem_head value) fun two => by cases two
  | .double, _, _, value, _ => .simple (doubleItem_head value) fun two => by cases two
  | .byte, compiles, _, _, _ => by cases compiles
  | .string, _, _, _, fits => textString_item fits
  | .stringView, _, _, _, fits => textString_item fits
  | .smallString _, _, _, _, fits => textString_item fits
  | .byteSpan, _, _, _, fits => byteString_item fits
  | .uint8Span, _, _, _, fits => byteString_item fits
  | .enumeration enumerators, _, legal, value, _ => textString_item (legal _ (List.get_mem _ _)).2
  | .array elem size, compiles, legal, value, fits => by
    cases span : asSpan (.array elem size) with
    | some bytes =>
      have small := fits_array_span span fits
      rw [encoding, span]
      exact byteString_item small
    | none =>
      have limits := fits_array span fits
      rw [encoding, span, depth_array span]
      exact listEncoding_item limits.1 fun item member =>
        encoding_item elem (encodes_array span compiles) legal item (limits.2 item member)
  | .vector elem, compiles, legal, value, fits => by
    cases span : asSpan (.vector elem) with
    | some bytes =>
      have small := fits_vector_span span fits
      rw [encoding, span]
      exact byteString_item small
    | none =>
      have limits := fits_vector span fits
      rw [encoding, span, depth_vector span]
      exact listEncoding_item limits.1 fun item member =>
        encoding_item elem (encodes_vector span compiles) legal item (limits.2 item member)
  | .struct fields, compiles, legal, value, fits =>
    structEncoding_item legal (fieldEntries_items fields compiles legal.2.2 value fits)

theorem fieldEntries_items : (fields : Fields) → fieldsEncode fields = true → fields.Legal → (value : fields.denote) →
    FieldsFit uint32Max fields value → ∀ entry ∈ fieldEntries fields value, Item fields.depth entry.value
  | .nil, _, _, _, _, _, member => by cases member
  | .cons name type rest, compiles, legal, value, fits, entry, member => by
    have both := fieldsEncode_cons.mp compiles
    rcases List.mem_cons.mp member with rfl | member
    · exact (encoding_item type both.1 legal.2.1 value.1 fits.1).deeper (Nat.le_max_left _ _)
    · exact (fieldEntries_items rest both.2 legal.2.2 value.2 fits.2 entry member).deeper (Nat.le_max_right _ _)

end

end AxbyCore.Serialization.Proofs
