import AxbyCore.Library.Rfc8949

/-! Well-formed items of RFC 8949 with everything it has: definite and indefinite lengths,
and tags in front of an item. -/

namespace AxbyCore.Rfc8949
open Endian

def openByte (major : Nat) : UInt8 := UInt8.ofNat (32 * major + 31)

def breakByte : UInt8 := 0xff

/-- A chunk of a string of indefinite length. -/
structure Chunk where
  start : List UInt8
  content : List UInt8

def Chunk.bytes (chunk : Chunk) : List UInt8 := chunk.start ++ chunk.content

/-- Each chunk is a string of that major type and of definite length. -/
def Chunked (major : Nat) (chunks : List Chunk) : Prop := ∀ chunk ∈ chunks, Head major chunk.content.length chunk.start

def chunkBytes (chunks : List Chunk) : List UInt8 := chunks.flatMap Chunk.bytes

def contentOf (chunks : List Chunk) : List UInt8 := chunks.flatMap Chunk.content

/-- How many items a container with that count has: a map has two for each entry. -/
def itemCount (major count : Nat) : Nat := if major = 5 then count * 2 else count

/-- The bytes are one item whose arrays and maps nest no deeper than `depth`, and have fewer
items than `limit` when they say how many. -/
inductive WellFormed (limit : Nat) : Nat → List UInt8 → Prop where
  | integer {depth major argument bytes} (kind : major ≤ 1) (isHead : Head major argument bytes) :
    WellFormed limit depth bytes
  | simple {depth argument bytes} (isHead : Head 7 argument bytes) (legal : bytes.length = 2 → 32 ≤ argument) :
    WellFormed limit depth bytes
  | string {depth major bytes content} (kind : major = 2 ∨ major = 3) (isHead : Head major content.length bytes) :
    WellFormed limit depth (bytes ++ content)
  | chunks {depth major chunks} (kind : major = 2 ∨ major = 3) (each : Chunked major chunks)
      (counted : (contentOf chunks).length < 2 ^ 64) :
    WellFormed limit depth (openByte major :: (chunkBytes chunks ++ [breakByte]))
  | container {depth major count bytes} {items : List (List UInt8)} (kind : major = 4 ∨ major = 5)
      (isHead : Head major count bytes) (counted : items.length = itemCount major count)
      (short : items.length < limit) (each : ∀ item ∈ items, WellFormed limit depth item) :
    WellFormed limit (depth + 1) (bytes ++ items.flatten)
  | openContainer {depth major} {items : List (List UInt8)} (kind : major = 4 ∨ major = 5)
      (pairs : major = 5 → items.length % 2 = 0) (each : ∀ item ∈ items, WellFormed limit depth item) :
    WellFormed limit (depth + 1) (openByte major :: (items.flatten ++ [breakByte]))
  | tag {depth number bytes item} (isHead : Head 6 number bytes) (inner : WellFormed limit depth item) :
    WellFormed limit depth (bytes ++ item)

/-- The bytes are a string of that major type with that content, in one piece or in chunks. -/
inductive StringOf (major : Nat) (content : List UInt8) : List UInt8 → Prop where
  | whole {bytes} (isHead : Head major content.length bytes) : StringOf major content (bytes ++ content)
  | chunks {chunks} (each : Chunked major chunks) (same : contentOf chunks = content) :
    StringOf major content (openByte major :: (chunkBytes chunks ++ [breakByte]))

/-- The item behind the tags in front of it. -/
inductive Tagged (bare : List UInt8) : List UInt8 → Prop where
  | bare : Tagged bare bare
  | tag {number bytes item} (isHead : Head 6 number bytes) (inner : Tagged bare item) : Tagged bare (bytes ++ item)

/-- The major type that the first byte tells. -/
def majorOf (item : List UInt8) : Option Nat := item.head?.map fun byte => byte.toNat / 32

theorem toNat_ofNat_small (number : Nat) (small : number < 256) : (UInt8.ofNat number).toNat = number := by
  rw [UInt8.toNat_ofNat']
  omega

theorem Head.majorOf {major argument : Nat} {bytes : List UInt8} (isHead : Head major argument bytes) (known : major < 8)
    (behind : List UInt8) : Rfc8949.majorOf (bytes ++ behind) = some major := by
  cases isHead with
  | short small =>
    have first := toNat_ofNat_small (32 * major + argument) (by omega)
    simp only [shortHead, Rfc8949.majorOf, List.singleton_append, List.head?_cons, Option.map_some, first, Option.some.injEq]
    omega
  | wide more few fits =>
    have first := toNat_ofNat_small (32 * major + 24 + more) (by omega)
    simp only [wideHead, Rfc8949.majorOf, List.cons_append, List.head?_cons, Option.map_some, first, Option.some.injEq]
    omega

theorem openByte_majorOf {major : Nat} (known : major < 8) (behind : List UInt8) :
    majorOf (openByte major :: behind) = some major := by
  have first := toNat_ofNat_small (32 * major + 31) (by omega)
  simp only [majorOf, openByte, List.head?_cons, Option.map_some, first, Option.some.injEq]
  omega

/-- No head starts with the byte that ends a container. -/
theorem Head.notBreak {major argument : Nat} {bytes : List UInt8} (isHead : Head major argument bytes) (known : major < 8)
    (behind : List UInt8) : (bytes ++ behind).head? ≠ some breakByte := by
  have last : breakByte.toNat = 255 := rfl
  cases isHead with
  | short small =>
    have first := toNat_ofNat_small (32 * major + argument) (by omega)
    intro same
    have equal := congrArg UInt8.toNat (Option.some.inj same)
    omega
  | wide more few fits =>
    have first := toNat_ofNat_small (32 * major + 24 + more) (by omega)
    intro same
    have equal := congrArg UInt8.toNat (Option.some.inj same)
    omega

theorem openByte_notBreak {major : Nat} (known : major < 7) : openByte major ≠ breakByte := by
  have first := toNat_ofNat_small (32 * major + 31) (by omega)
  have last : breakByte.toNat = 255 := rfl
  intro same
  have equal := congrArg UInt8.toNat same
  unfold openByte at equal
  omega

section
variable {limit depth : Nat} {item : List UInt8}

theorem WellFormed.notBreak (wellFormed : WellFormed limit depth item) (behind : List UInt8) :
    (item ++ behind).head? ≠ some breakByte := by
  cases wellFormed with
  | integer kind isHead => exact isHead.notBreak (by omega) behind
  | simple isHead legal => exact isHead.notBreak (by omega) behind
  | string kind isHead =>
    rw [List.append_assoc]
    exact isHead.notBreak (by omega) _
  | chunks kind each counted =>
    intro same
    exact openByte_notBreak (by omega) (Option.some.inj same)
  | container kind isHead counted short each =>
    rw [List.append_assoc]
    exact isHead.notBreak (by omega) _
  | openContainer kind pairs each =>
    intro same
    exact openByte_notBreak (by omega) (Option.some.inj same)
  | tag isHead inner =>
    rw [List.append_assoc]
    exact isHead.notBreak (by omega) _

theorem WellFormed.length_pos (wellFormed : WellFormed limit depth item) : 0 < item.length := by
  cases wellFormed with
  | integer kind isHead => exact isHead.length_pos
  | simple isHead legal => exact isHead.length_pos
  | string kind isHead =>
    rw [List.length_append]
    exact Nat.add_pos_left isHead.length_pos _
  | chunks kind each counted => exact Nat.succ_pos _
  | container kind isHead counted short each =>
    rw [List.length_append]
    exact Nat.add_pos_left isHead.length_pos _
  | openContainer kind pairs each => exact Nat.succ_pos _
  | tag isHead inner =>
    rw [List.length_append]
    exact Nat.add_pos_left isHead.length_pos _

theorem WellFormed.deeper {deeper : Nat} (wellFormed : WellFormed limit depth item) (le : depth ≤ deeper) :
    WellFormed limit deeper item := by
  induction wellFormed generalizing deeper with
  | integer kind isHead => exact .integer kind isHead
  | simple isHead legal => exact .simple isHead legal
  | string kind isHead => exact .string kind isHead
  | chunks kind each counted => exact .chunks kind each counted
  | container kind isHead counted short each ih =>
    obtain ⟨deeper, rfl⟩ := Nat.exists_eq_add_of_le' (Nat.le_trans (Nat.le_add_left 1 _) le)
    exact .container kind isHead counted short fun item member => ih item member (by omega)
  | openContainer kind pairs each ih =>
    obtain ⟨deeper, rfl⟩ := Nat.exists_eq_add_of_le' (Nat.le_trans (Nat.le_add_left 1 _) le)
    exact .openContainer kind pairs fun item member => ih item member (by omega)
  | tag isHead inner ih => exact .tag isHead (ih le)

/-- An item with definite lengths only is well-formed. -/
theorem Item.wellFormed (isItem : Item depth item) : WellFormed (2 ^ 32 - 1) depth item := by
  induction isItem with
  | integer kind isHead => exact .integer kind isHead
  | simple isHead legal => exact .simple isHead legal
  | string kind isHead => exact .string kind isHead
  | array isHead short each ih => exact .container (.inl rfl) isHead rfl short ih
  | map isHead pairs short each ih =>
    exact .container (.inr rfl) isHead (by rw [pairs, Nat.mul_comm]; rfl) (by omega) ih

/-- Every item is one without tags, behind as many tags as it has. -/
theorem WellFormed.untagged (wellFormed : WellFormed limit depth item) :
    ∃ bare, Tagged bare item ∧ WellFormed limit depth bare ∧ majorOf bare ≠ some 6 := by
  induction wellFormed with
  | integer kind isHead =>
    refine ⟨_, .bare, .integer kind isHead, ?_⟩
    have major := isHead.majorOf (by omega) []
    rw [List.append_nil] at major
    rw [major]
    intro same
    have := Option.some.inj same
    omega
  | simple isHead legal =>
    refine ⟨_, .bare, .simple isHead legal, ?_⟩
    have major := isHead.majorOf (by omega) []
    rw [List.append_nil] at major
    rw [major]
    intro same
    cases same
  | string kind isHead =>
    refine ⟨_, .bare, .string kind isHead, ?_⟩
    rw [isHead.majorOf (by omega)]
    intro same
    have := Option.some.inj same
    omega
  | chunks kind each counted =>
    refine ⟨_, .bare, .chunks kind each counted, ?_⟩
    rw [openByte_majorOf (by omega)]
    intro same
    have := Option.some.inj same
    omega
  | container kind isHead counted short each ih =>
    refine ⟨_, .bare, .container kind isHead counted short each, ?_⟩
    rw [isHead.majorOf (by omega)]
    intro same
    have := Option.some.inj same
    omega
  | openContainer kind pairs each ih =>
    refine ⟨_, .bare, .openContainer kind pairs each, ?_⟩
    rw [openByte_majorOf (by omega)]
    intro same
    have := Option.some.inj same
    omega
  | tag isHead inner ih =>
    obtain ⟨bare, tagged, whole, untagged⟩ := ih
    exact ⟨bare, .tag isHead tagged, whole, untagged⟩

end

theorem Tagged.wellFormed {limit depth : Nat} {bare item : List UInt8} (tagged : Tagged bare item)
    (wellFormed : WellFormed limit depth bare) : WellFormed limit depth item := by
  induction tagged with
  | bare => exact wellFormed
  | tag isHead inner ih => exact .tag isHead ih

section
variable {limit depth major : Nat} {content bare : List UInt8}

theorem StringOf.majorOf (string : StringOf major content bare) (known : major < 8) : Rfc8949.majorOf bare = some major := by
  cases string with
  | whole isHead => exact isHead.majorOf known content
  | chunks each same => exact openByte_majorOf known _

theorem StringOf.wellFormed (string : StringOf major content bare) (kind : major = 2 ∨ major = 3)
    (counted : content.length < 2 ^ 64) : WellFormed limit depth bare := by
  cases string with
  | whole isHead => exact .string kind isHead
  | chunks each same => exact .chunks kind each (by rw [same]; exact counted)

end

end AxbyCore.Rfc8949
