import AxbyCore.Proofs.CborFinding

/-! What the type of a parsed value tells about the item at it, and where a value may stand:
at the only item of a buffer, or at one of those in a container. -/

namespace AxbyCore.Tinycbor.Proofs
open Rfc8949 Endian

/-- The items that a value of that type is parsed from. -/
inductive KindOf (limit : Nat) : CborType → Bytes → Prop where
  | integer {major argument item} (kind : major ≤ 1) (isHead : Head major argument item) : KindOf limit .integer item
  | float {bits} (fits : bits < 2 ^ 32) : KindOf limit .float (wideHead 7 2 bits)
  | double {bits} (fits : bits < 2 ^ 64) : KindOf limit .double (wideHead 7 3 bits)
  | simple {type item} (other : type = .simple ∨ type = .boolean ∨ type = .null ∨ type = .undefined ∨ type = .halfFloat) :
    KindOf limit type item
  | byteString {content item} (string : StringOf 2 content item) (short : content.length < 2 ^ 64) :
    KindOf limit .byteString item
  | textString {content item} (string : StringOf 3 content item) (short : content.length < 2 ^ 64) :
    KindOf limit .textString item
  | array {depth bytes} {items : List Bytes} (isHead : Head 4 items.length bytes)
      (each : ∀ item ∈ items, WellFormed limit depth item) : KindOf limit .array (bytes ++ items.flatten)
  | openArray {depth} {items : List Bytes} (each : ∀ item ∈ items, WellFormed limit depth item) :
    KindOf limit .array (openByte 4 :: (items.flatten ++ [breakByte]))
  | map {depth broken pairs item} (isMap : MapOf pairs broken item)
      (each : ∀ item ∈ pairItems pairs, WellFormed limit depth item) : KindOf limit .map item
  | tag {item} (isTag : majorOf item = some 6) : KindOf limit .tag item

/-- The type of a simple value or a floating-point number. -/
def simpleType (descriptor : Nat) : CborType :=
  match descriptor with
  | 20 => .boolean
  | 21 => .boolean
  | 22 => .null
  | 23 => .undefined
  | 25 => .halfFloat
  | 26 => .float
  | 27 => .double
  | _ => .simple

theorem classify_type {it after : CborValue} {descriptor : Nat} (simple : it.type = .simple)
    (classified : classify it 7 descriptor = .ok after) : after.type = simpleType descriptor := by
  unfold classify at classified
  rw [if_neg (by decide), if_pos rfl] at classified
  unfold simpleType
  split at classified
  all_goals first | (cases classified; rfl) | skip
  · split at classified
    · cases classified
    · cases classified
      exact simple
  · cases classified
    rw [simple]
    split <;> first | rfl | contradiction

section
variable {limit depth argument : Nat} {item bytes tail : Bytes} {it : CborValue}

theorem Ready.simpleType (ready : Ready it) (isHead : Head 7 argument bytes) (rest : it.rest = bytes ++ tail) :
    it.type = Proofs.simpleType ((it.rest.head?.map smallValue).getD 0) := by
  obtain ⟨before, same, parsed⟩ := ready
  have place : before.rest = bytes ++ tail := by rw [← same.rest, rest]
  obtain ⟨descriptor, read, classified, head⟩ := preparse_reads isHead (by decide) place
  rw [classified] at parsed
  rw [same.rest, head.again]
  exact classify_type head.type parsed

theorem kindOf_simple (ready : Ready it) (isHead : Head 7 argument bytes) (rest : it.rest = bytes ++ tail) :
    KindOf limit it.type bytes := by
  have type := ready.simpleType isHead rest
  cases isHead with
  | short small =>
    have first : (it.rest.head?.map smallValue).getD 0 = argument := by
      have byte : smallValue (UInt8.ofNat (32 * 7 + argument)) = argument := smallValue_headByte (by decide) (by omega)
      rw [rest]
      exact byte
    rw [first] at type
    apply KindOf.simple
    rw [type]
    unfold Proofs.simpleType
    split <;> first | omega | simp
  | wide more known fits =>
    have first : (it.rest.head?.map smallValue).getD 0 = 24 + more := by
      have byte : smallValue (UInt8.ofNat (32 * 7 + (24 + more))) = 24 + more := smallValue_headByte (by decide) (by omega)
      rw [← Nat.add_assoc] at byte
      rw [rest]
      exact byte
    rw [first] at type
    obtain rfl | rfl | rfl | rfl : more = 0 ∨ more = 1 ∨ more = 2 ∨ more = 3 := by omega
    · exact .simple (.inl type)
    · exact .simple (.inr (.inr (.inr (.inr type))))
    · rw [type]
      exact .float fits
    · rw [type]
      exact .double fits

/-- An even number of items is that of the keys and values of a map. -/
theorem pairs_of_items {count : Nat} {items : List Bytes} (even : items.length = count * 2) :
    ∃ pairs : List Pair, pairs.length = count ∧ pairItems pairs = items := by
  induction count generalizing items with
  | zero => exact ⟨[], rfl, (List.eq_nil_of_length_eq_zero even).symm⟩
  | succ count ih =>
    match items, even with
    | [], even => simp at even
    | [item], even =>
      simp only [List.length_cons, List.length_nil] at even
      omega
    | key :: value :: items, even =>
      simp only [List.length_cons] at even
      have others : items.length = count * 2 := by omega
      obtain ⟨pairs, counted, same⟩ := ih others
      exact ⟨⟨key, value⟩ :: pairs, by rw [List.length_cons, counted], by rw [pairItems_cons, same]⟩

/-- A parsed value has the type of its item. -/
theorem Ready.kindOf (ready : Ready it) (wellFormed : WellFormed limit depth item) (rest : it.rest = item ++ tail) :
    KindOf limit it.type item := by
  cases wellFormed with
  | @integer _ major _ _ kind isHead =>
    have type : it.type = .integer := by
      rw [(ready.atHead isHead (by omega) rest).type]
      obtain rfl | rfl : major = 0 ∨ major = 1 := by omega
      · rfl
      · rfl
    rw [type]
    exact .integer kind isHead
  | simple isHead legal => exact kindOf_simple ready isHead rest
  | @string _ major bytes content kind isHead =>
    have type := ready.stringType kind (.whole isHead) rest
    have short := Head.argument_lt isHead
    rw [type]
    rcases kind with rfl | rfl
    · exact .byteString (.whole isHead) short
    · exact .textString (.whole isHead) short
  | @chunks _ major chunks kind each counted =>
    have type := ready.stringType kind (.chunks each rfl) rest
    rw [type]
    rcases kind with rfl | rfl
    · exact .byteString (.chunks each rfl) counted
    · exact .textString (.chunks each rfl) counted
  | @container depth major count bytes items kind isHead counted short each =>
    have type := (ready.atHead isHead (by omega) (by rw [rest, List.append_assoc])).type
    rw [type]
    rcases kind with rfl | rfl
    · rw [← (show items.length = count from counted)] at isHead
      exact .array isHead each
    · have even : items.length = count * 2 := counted
      obtain ⟨pairs, length, rfl⟩ := pairs_of_items even
      rw [← length] at isHead
      exact .map (.counted isHead) each
  | @openContainer depth major items kind pairs each =>
    have type := (ready.atOpen (by omega) rest).type
    rw [type]
    rcases kind with rfl | rfl
    · exact .openArray each
    · have half := Nat.div_add_mod items.length 2
      rw [pairs rfl, Nat.add_zero, Nat.mul_comm] at half
      obtain ⟨pairs, -, rfl⟩ := pairs_of_items half.symm
      exact .map .open each
  | tag isHead inner =>
    have type := (ready.atHead isHead (by decide) (by rw [rest, List.append_assoc])).type
    rw [type]
    exact .tag (isHead.majorOf (by decide) _)

theorem Ready.integerItem (ready : Ready it) (wellFormed : WellFormed limit depth item) (rest : it.rest = item ++ tail)
    (type : it.type = .integer) : ∃ major argument, major ≤ 1 ∧ Head major argument item := by
  have kind := ready.kindOf wellFormed rest
  rw [type] at kind
  cases kind with
  | simple other => simp at other
  | integer kind isHead => exact ⟨_, _, kind, isHead⟩

theorem Ready.floatItem (ready : Ready it) (wellFormed : WellFormed limit depth item) (rest : it.rest = item ++ tail)
    (type : it.type = .float) : ∃ bits, bits < 2 ^ 32 ∧ item = wideHead 7 2 bits := by
  have kind := ready.kindOf wellFormed rest
  rw [type] at kind
  cases kind with
  | simple other => simp at other
  | float fits => exact ⟨_, fits, rfl⟩

theorem Ready.doubleItem (ready : Ready it) (wellFormed : WellFormed limit depth item) (rest : it.rest = item ++ tail)
    (type : it.type = .double) : ∃ bits, bits < 2 ^ 64 ∧ item = wideHead 7 3 bits := by
  have kind := ready.kindOf wellFormed rest
  rw [type] at kind
  cases kind with
  | simple other => simp at other
  | double fits => exact ⟨_, fits, rfl⟩

end

/-! Where a value stands. -/

/-- The value has been parsed at the item, and what follows the item can be parsed. -/
structure Placed (item : Bytes) (it : CborValue) : Prop where
  ready : Ready it
  followed : ∃ tail, it.rest = item ++ tail ∧ ∀ behind, Past it tail behind → ∃ next, preparseNextValue behind = .ok next

section
variable {limit depth : Nat} {broken isMap : Bool} {item trailing tail : Bytes} {items : List Bytes} {it : CborValue}

/-- The parser starts at the first item of a buffer. -/
theorem placed_init (wellFormed : WellFormed limit depth item) (trailing : Bytes) :
    ∃ val, cborParserInit (item ++ trailing) = .ok val ∧ Placed item val := by
  have start : ({ rest := item ++ trailing, remaining := 1 } : CborValue).rest = item ++ trailing := rfl
  obtain ⟨val, parsed, same⟩ := preparse_wellFormed wellFormed start
  refine ⟨val, parsed, same.ready parsed, trailing, same.rest, ?_⟩
  intro behind past
  have one : behind.remaining = 1 := past.remaining.trans same.remaining
  rw [preparseNextValue, past.notTag, one]
  exact ⟨_, rfl⟩

/-- Inside a container, it stands at the first of the items that are ahead. -/
theorem AheadOf.placed (ahead : AheadOf broken isMap (item :: items) tail it) (countable : Countable broken (item :: items))
    (each : ∀ other ∈ items, WellFormed limit depth other) : Placed item it := by
  refine ⟨ahead.ready (by simp), items.flatten ++ (ending broken ++ tail), by simpa using ahead.rest, ?_⟩
  intro behind past
  obtain ⟨next, parsed, -⟩ := past.next ahead countable each
  exact ⟨next, parsed⟩

end

end AxbyCore.Tinycbor.Proofs
