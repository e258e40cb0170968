import AxbyCore.Library.Endian

/-! Heads and items of RFC 8949 with definite lengths. A head is a major type and an
argument, which is in its first byte or in the 1, 2, 4 or 8 bytes behind it. -/

namespace AxbyCore.Rfc8949
open Endian

def shortHead (major argument : Nat) : List UInt8 := [UInt8.ofNat (32 * major + argument)]

/-- The argument is in the `2 ^ more` bytes behind the first. -/
def wideHead (major more argument : Nat) : List UInt8 :=
  UInt8.ofNat (32 * major + 24 + more) :: big (2 ^ more) argument

/-- The shortest head. -/
def head (major argument : Nat) : List UInt8 :=
  if argument < 24 then shortHead major argument
  else if argument < 2 ^ 8 then wideHead major 0 argument
  else if argument < 2 ^ 16 then wideHead major 1 argument
  else if argument < 2 ^ 32 then wideHead major 2 argument
  else wideHead major 3 argument

/-- The bytes are a head, of whatever length. -/
inductive Head (major argument : Nat) : List UInt8 → Prop where
  | short (small : argument < 24) : Head major argument (shortHead major argument)
  | wide (more : Nat) (known : more < 4) (fits : argument < 256 ^ 2 ^ more) :
    Head major argument (wideHead major more argument)

theorem head_isHead {argument : Nat} (major : Nat) (fits : argument < 2 ^ 64) :
    Head major argument (head major argument) := by
  unfold head
  split
  · exact .short ‹_›
  split
  · exact .wide 0 (by omega) (by omega)
  split
  · exact .wide 1 (by omega) (by omega)
  split
  · exact .wide 2 (by omega) (by omega)
  · exact .wide 3 (by omega) (by omega)

theorem wideHead_length (major more argument : Nat) : (wideHead major more argument).length = 2 ^ more + 1 := by
  simp [wideHead]

theorem Head.length_pos {major argument : Nat} {bytes : List UInt8} (isHead : Head major argument bytes) :
    0 < bytes.length := by
  cases isHead with
  | short => simp [shortHead]
  | wide => simp [wideHead]

/-- The shortest head takes 1, 2, 3, 5 or 9 bytes. -/
def headLength (argument : Nat) : Nat :=
  if argument < 24 then 1
  else if argument < 2 ^ 8 then 2
  else if argument < 2 ^ 16 then 3
  else if argument < 2 ^ 32 then 5
  else 9

theorem head_length (major argument : Nat) : (head major argument).length = headLength argument := by
  unfold head headLength
  split
  · simp [shortHead]
  split
  · simp [wideHead_length]
  split
  · simp [wideHead_length]
  split
  · simp [wideHead_length]
  · simp [wideHead_length]

theorem headLength_pos (argument : Nat) : 0 < headLength argument := by
  unfold headLength
  repeat' split
  all_goals exact Nat.succ_pos _

theorem head_pos (major argument : Nat) : 0 < (head major argument).length := by
  rw [head_length]
  exact headLength_pos argument

/-- The bytes are one item whose arrays and maps nest no deeper than `depth`. -/
inductive Item : Nat → List UInt8 → Prop where
  | integer {depth major argument bytes} (kind : major ≤ 1) (isHead : Head major argument bytes) : Item depth bytes
  | simple {depth argument bytes} (isHead : Head 7 argument bytes) (legal : bytes.length = 2 → 32 ≤ argument) :
    Item depth bytes
  | string {depth major bytes content} (kind : major = 2 ∨ major = 3) (isHead : Head major content.length bytes) :
    Item depth (bytes ++ content)
  | array {depth bytes} {items : List (List UInt8)} (isHead : Head 4 items.length bytes)
      (short : items.length < 2 ^ 32 - 1) (each : ∀ item ∈ items, Item depth item) :
    Item (depth + 1) (bytes ++ items.flatten)
  | map {depth bytes count} {items : List (List UInt8)} (isHead : Head 5 count bytes)
      (pairs : items.length = 2 * count) (short : count < 2 ^ 31) (each : ∀ item ∈ items, Item depth item) :
    Item (depth + 1) (bytes ++ items.flatten)

theorem Item.deeper {depth deeper : Nat} {bytes : List UInt8} (item : Item depth bytes) (le : depth ≤ deeper) :
    Item deeper bytes := by
  induction item generalizing deeper with
  | integer kind isHead => exact .integer kind isHead
  | simple isHead legal => exact .simple isHead legal
  | string kind isHead => exact .string kind isHead
  | array isHead short each ih =>
    obtain ⟨deeper, rfl⟩ := Nat.exists_eq_add_of_le' (Nat.le_trans (Nat.le_add_left 1 _) le)
    exact .array isHead short fun item member => ih item member (by omega)
  | map isHead pairs short each ih =>
    obtain ⟨deeper, rfl⟩ := Nat.exists_eq_add_of_le' (Nat.le_trans (Nat.le_add_left 1 _) le)
    exact .map isHead pairs short fun item member => ih item member (by omega)

theorem Item.length_pos {depth : Nat} {bytes : List UInt8} (item : Item depth bytes) : 0 < bytes.length := by
  cases item with
  | integer kind isHead => exact isHead.length_pos
  | simple isHead legal => exact isHead.length_pos
  | string kind isHead =>
    rw [List.length_append]
    exact Nat.add_pos_left isHead.length_pos _
  | array isHead short each =>
    rw [List.length_append]
    exact Nat.add_pos_left isHead.length_pos _
  | map isHead pairs short each =>
    rw [List.length_append]
    exact Nat.add_pos_left isHead.length_pos _

end AxbyCore.Rfc8949
