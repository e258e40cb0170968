import AxbyCore.Proofs.PrimitiveDecoding

/-! When a decoder that does not look into a container returns an error: it fails an assert on
items of another kind, so of those that it returns for, exactly the strings of indefinite
length are errors. -/

namespace AxbyCore.Serialization.Proofs
open Tinycbor Tinycbor.Proofs Rfc8949

/-- The item says how long it is. -/
def Definite (item : Bytes) : Prop := item.head?.map smallValue ≠ some 31

/-- Where the decoder returns, it is not at a tag, and it returns no error exactly when the
item says how long it is. -/
def Judges {α : Type} (item : Bytes) (it : CborValue) (decode : Decode α) : Prop :=
  ∀ out err result, decode it out = some (err, result) → it.type ≠ .tag ∧ (err = .noError ↔ Definite item)

/-- The type of a number, which takes no container or string. -/
def IsNumber (type : CborType) : Prop := type = .integer ∨ type = .float ∨ type = .double

theorem head_definite {major argument : Nat} {bytes : Bytes} (isHead : Head major argument bytes) (known : major < 8)
    (behind : Bytes) : Definite (bytes ++ behind) := by
  cases isHead with
  | short small =>
    have value : smallValue (UInt8.ofNat (32 * major + argument)) = argument := smallValue_headByte known (by omega)
    intro same
    have equal := Option.some.inj same
    omega
  | wide more few fits =>
    have value : smallValue (UInt8.ofNat (32 * major + (24 + more))) = 24 + more := smallValue_headByte known (by omega)
    intro same
    have equal := Option.some.inj same
    rw [← Nat.add_assoc] at value
    omega

theorem open_not_definite {major : Nat} (known : major < 8) (behind : Bytes) : ¬ Definite (openByte major :: behind) := by
  have value : smallValue (UInt8.ofNat (32 * major + 31)) = 31 := smallValue_headByte known (by omega)
  intro definite
  exact definite (congrArg some value)

theorem IsNumber.not_tag {type : CborType} (number : IsNumber type) : type ≠ .tag := by
  rcases number with rfl | rfl | rfl <;> decide

theorem IsNumber.fixed {type : CborType} (number : IsNumber type) : isFixedType type = true := by
  rcases number with rfl | rfl | rfl <;> rfl

section
variable {limit depth : Nat} {item tail : Bytes} {it : CborValue}

/-- A number is within any limits and says how long it is. -/
theorem number_item (ready : Ready it) (wellFormed : WellFormed limit depth item) (rest : it.rest = item ++ tail)
    (number : IsNumber it.type) : Within item ∧ Definite item := by
  have whole : ∀ {major argument}, Head major argument item → major < 8 → Definite item := by
    intro major argument isHead known
    have definite := head_definite isHead known []
    rwa [List.append_nil] at definite
  rcases number with type | type | type
  · obtain ⟨major, argument, kind, isHead⟩ := ready.integerItem wellFormed rest type
    exact ⟨.integer kind isHead, whole isHead (by omega)⟩
  · obtain ⟨bits, fits, rfl⟩ := ready.floatItem wellFormed rest type
    exact ⟨.simple (.wide 2 (by decide) fits) (fun two => by cases two), whole (.wide 2 (by decide) fits) (by decide)⟩
  · obtain ⟨bits, fits, rfl⟩ := ready.doubleItem wellFormed rest type
    exact ⟨.simple (.wide 3 (by decide) fits) (fun two => by cases two), whole (.wide 3 (by decide) fits) (by decide)⟩

/-- A getter of numbers gets one or fails its assert. -/
def GetsNumber {α : Type} (getter : CborValue → Parse α) : Prop :=
  ∀ it, getter it = .error .assertion ∨ ((∃ value, getter it = .ok value) ∧ IsNumber it.type)

theorem getUint64_number : GetsNumber CborValue.getUint64 := by
  intro it
  unfold CborValue.getUint64
  cases unsigned : it.isUnsignedInteger with
  | false => exact .inl rfl
  | true =>
    simp only [CborValue.isUnsignedInteger, Bool.and_eq_true, beq_iff_eq] at unsigned
    exact .inr ⟨⟨_, rfl⟩, .inl unsigned.1⟩

theorem getInt64_number : GetsNumber CborValue.getInt64 := by
  intro it
  unfold CborValue.getInt64
  cases integer : it.type == .integer with
  | false => exact .inl rfl
  | true => exact .inr ⟨⟨_, rfl⟩, .inl (beq_iff_eq.mp integer)⟩

theorem getFloat_number : GetsNumber CborValue.getFloat := by
  intro it
  unfold CborValue.getFloat
  cases float : it.type == .float with
  | false => exact .inl rfl
  | true =>
    cases it.flags.integerValueTooLarge with
    | false => exact .inl rfl
    | true => exact .inr ⟨⟨_, rfl⟩, .inr (.inl (beq_iff_eq.mp float))⟩

theorem getDouble_number : GetsNumber CborValue.getDouble := by
  intro it
  unfold CborValue.getDouble
  cases double : it.type == .double with
  | false => exact .inl rfl
  | true =>
    cases it.flags.integerValueTooLarge with
    | false => exact .inl rfl
    | true => exact .inr ⟨⟨_, rfl⟩, .inr (.inr (beq_iff_eq.mp double))⟩

section
variable {α β : Type} {getter : CborValue → Parse α} {convert : α → β} {out result : β} {err : CborError}

theorem GetsNumber.returned (gets : GetsNumber getter) (returned : decodeWith getter convert it out = some (err, result)) :
    err = .noError ∧ IsNumber it.type := by
  rcases gets it with asserts | ⟨⟨value, got⟩, number⟩
  · rw [decodeWith_asserts asserts] at returned
    cases returned
  · rw [decodeWith_ok got] at returned
    cases returned
    exact ⟨rfl, number⟩

theorem decodeFloat_returned {target : Target} {out result : BitVec 32}
    (returned : decodeFloat target it out = some (err, result)) : err = .noError ∧ IsNumber it.type := by
  unfold decodeFloat at returned
  split at returned
  · exact getDouble_number.returned returned
  · exact getFloat_number.returned returned

end

/-- The decoder only returns where it has read a number, and then without an error. -/
def ReadsNumbers {α : Type} (decode : Decode α) : Prop :=
  ∀ it out err result, decode it out = some (err, result) → err = .noError ∧ IsNumber it.type

theorem ReadsNumbers.judges {α : Type} {decode : Decode α} (reads : ReadsNumbers decode) (ready : Ready it)
    (wellFormed : WellFormed limit depth item) (rest : it.rest = item ++ tail) : Judges item it decode := by
  intro out err result returned
  obtain ⟨none, number⟩ := reads it out err result returned
  exact ⟨number.not_tag, fun _ => (number_item ready wellFormed rest number).2, fun _ => none⟩

/-! Strings. -/

/-- A decoder of strings refuses those of indefinite length. -/
theorem DecodesStrings.judges {major : Nat} {decode : Decode Bytes} (strings : DecodesStrings major item it decode)
    (kind : major = 2 ∨ major = 3) (ready : Ready it) (wellFormed : WellFormed limit depth item)
    (rest : it.rest = item ++ tail) : Judges item it decode := by
  intro out err result returned
  rcases string_cases ready wellFormed rest with nothing | ⟨found, known, type, held⟩
  · rw [strings.asserts out nothing] at returned
    cases returned
  · refine ⟨by rw [type]; rcases known with rfl | rfl <;> decide, ?_⟩
    rcases held with ⟨⟨bytes, content, isHead, same⟩, len, length⟩ | ⟨⟨chunks, each, same⟩, length⟩
    · by_cases equal : found = major
      · rw [equal] at isHead
        rw [strings.right out bytes content isHead same] at returned
        have none := (Prod.mk.inj (Option.some.inj returned)).1
        rw [same]
        exact ⟨fun _ => head_definite isHead (by omega) content, fun _ => none.symm⟩
      · have other : it.type ≠ majorTypeOf major := by
          rw [type]
          rcases kind with rfl | rfl <;> rcases known with rfl | rfl <;> first | contradiction | decide
        rw [strings.wrong out len length other] at returned
        cases returned
    · rw [strings.fails out length] at returned
      have unknown := (Prod.mk.inj (Option.some.inj returned)).1
      rw [same]
      refine ⟨fun none => ?_, fun definite => absurd definite (open_not_definite (by omega) _)⟩
      rw [none] at unknown
      cases unknown

/-- A branch that assigns a view fails where the view does. -/
theorem decodeAs_judges {α : Type} {view : Decode Bytes} {assign : Bytes → Option α} (judges : Judges item it view) :
    Judges item it (decodeAs view assign) := by
  intro out err result returned
  unfold decodeAs at returned
  cases viewed : view it [] with
  | none =>
    rw [viewed] at returned
    cases returned
  | some read =>
    obtain ⟨code, payload⟩ := read
    obtain ⟨notTag, exact_⟩ := judges [] code payload viewed
    refine ⟨notTag, ?_⟩
    rw [viewed] at returned
    dsimp only at returned
    by_cases none : code = .noError
    · rw [if_neg (not_not.mpr none)] at returned
      obtain ⟨value, -, same⟩ := Option.map_eq_some_iff.mp returned
      cases same
      rw [none] at exact_
      exact exact_
    · rw [if_pos none] at returned
      cases returned
      exact exact_

/-! All decoders that look into no container. -/

theorem decodeLeaf_judges {target : Target} {type : Ty} {decode : Decode type.denote} (leaf : decodeLeaf target type = some decode)
    (wellFormed : WellFormed limit depth item) (placed : Placed item it) : Judges item it decode := by
  obtain ⟨tail, rest, -⟩ := placed.followed
  have view := (decodeStringView_strings placed).judges (.inr rfl) placed.ready wellFormed rest
  have span := (decodeSpan_strings placed).judges (.inl rfl) placed.ready wellFormed rest
  unfold decodeLeaf at leaf
  cases overload : decodeOverload target type with
  | some decoder =>
    rw [overload] at leaf
    obtain rfl := Option.some.inj leaf
    cases type with
    | uint width =>
      obtain rfl := Option.some.inj overload
      exact ReadsNumbers.judges (fun _ _ _ _ => getUint64_number.returned) placed.ready wellFormed rest
    | sint width =>
      obtain rfl := Option.some.inj overload
      exact ReadsNumbers.judges (fun _ _ _ _ => getInt64_number.returned) placed.ready wellFormed rest
    | float =>
      obtain rfl := Option.some.inj overload
      exact ReadsNumbers.judges (fun _ _ _ _ => decodeFloat_returned) placed.ready wellFormed rest
    | double =>
      obtain rfl := Option.some.inj overload
      exact ReadsNumbers.judges (fun _ _ _ _ => getDouble_number.returned) placed.ready wellFormed rest
    | string =>
      obtain rfl := Option.some.inj overload
      exact (decodeString_strings placed).judges (.inr rfl) placed.ready wellFormed rest
    | stringView =>
      obtain rfl := Option.some.inj overload
      exact view
    | byteSpan =>
      obtain rfl := Option.some.inj overload
      exact span
    | uint8Span =>
      obtain rfl := Option.some.inj overload
      exact span
    | _ => cases overload
  | none =>
    rw [overload] at leaf
    dsimp only at leaf
    cases enum : enumCast type with
    | some cast =>
      rw [enum] at leaf
      obtain rfl := Option.some.inj leaf
      exact decodeAs_judges view
    | none =>
      rw [enum] at leaf
      dsimp only at leaf
      split at leaf
      · obtain ⟨assign, -, rfl⟩ := Option.map_eq_some_iff.mp leaf
        exact decodeAs_judges span
      · split at leaf
        · obtain ⟨assign, -, rfl⟩ := Option.map_eq_some_iff.mp leaf
          exact decodeAs_judges view
        · cases leaf

end

end AxbyCore.Serialization.Proofs
