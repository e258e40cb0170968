import AxbyCore.Proofs.ZdepthPixels
import Mathlib.Data.List.Nodup

/-! The order of the pixels. Blocks come row by row and the pixels of a block row by row, so
what is read around a pixel comes before it, and every place of the image comes once. -/

namespace AxbyCore.Proofs.Zdepth
open AxbyCore.Zdepth

/-- The order of both passes. -/
def pixels (width height : Nat) : List Pixel := (blocks width height).flatMap fun block => blockPixels block.1 block.2

def Before (one two : Pixel) : Prop :=
  one.iy < two.iy ∨ one.iy = two.iy ∧ (one.ix < two.ix ∨ one.ix = two.ix ∧ (one.y < two.y ∨ one.y = two.y ∧ one.x < two.x))

theorem Before.asymm {one two : Pixel} (before : Before one two) : ¬ Before two one := by
  unfold Before at *
  omega

theorem mem_blocks {width height ix iy : Nat} :
    (ix, iy) ∈ blocks width height ↔ iy < height / blockSize ∧ ix < width / blockSize := by
  simp [blocks]

theorem mem_blockPixels {ix iy : Nat} {pixel : Pixel} :
    pixel ∈ blockPixels ix iy ↔ pixel.ix = ix ∧ pixel.iy = iy ∧ pixel.y < blockSize ∧ pixel.x < blockSize := by
  simp only [blockPixels, List.mem_flatMap, List.mem_map, List.mem_range]
  constructor
  · intro found
    obtain ⟨y, below, x, left, rfl⟩ := found
    exact ⟨rfl, rfl, below, left⟩
  · intro place
    obtain ⟨rfl, rfl, below, left⟩ := place
    exact ⟨pixel.y, below, pixel.x, left, rfl⟩

theorem mem_pixels {width height : Nat} {pixel : Pixel} : pixel ∈ pixels width height ↔
    pixel.iy < height / blockSize ∧ pixel.ix < width / blockSize ∧ pixel.y < blockSize ∧ pixel.x < blockSize := by
  simp only [pixels, List.mem_flatMap, mem_blockPixels]
  constructor
  · intro found
    obtain ⟨⟨ix, iy⟩, member, rfl, rfl, below, left⟩ := found
    obtain ⟨row, column⟩ := mem_blocks.mp member
    exact ⟨row, column, below, left⟩
  · intro place
    obtain ⟨row, column, below, left⟩ := place
    exact ⟨(pixel.ix, pixel.iy), mem_blocks.mpr ⟨row, column⟩, rfl, rfl, below, left⟩

theorem pixels_ordered (width height : Nat) : (pixels width height).Pairwise Before := by
  rw [pixels, List.pairwise_flatMap]
  constructor
  · intro block _
    rw [blockPixels, List.pairwise_flatMap]
    constructor
    · intro y _
      rw [List.pairwise_map]
      exact List.pairwise_lt_range.imp fun less => .inr ⟨rfl, .inr ⟨rfl, .inr ⟨rfl, less⟩⟩⟩
    · apply List.pairwise_lt_range.imp
      intro one two less first firstMember second secondMember
      obtain ⟨_, _, rfl⟩ := List.mem_map.mp firstMember
      obtain ⟨_, _, rfl⟩ := List.mem_map.mp secondMember
      exact .inr ⟨rfl, .inr ⟨rfl, .inl less⟩⟩
  · have ordered : (blocks width height).Pairwise fun one two => one.2 < two.2 ∨ one.2 = two.2 ∧ one.1 < two.1 := by
      rw [blocks, List.pairwise_flatMap]
      constructor
      · intro iy _
        rw [List.pairwise_map]
        exact List.pairwise_lt_range.imp fun less => .inr ⟨rfl, less⟩
      · apply List.pairwise_lt_range.imp
        intro one two less first firstMember second secondMember
        obtain ⟨_, _, rfl⟩ := List.mem_map.mp firstMember
        obtain ⟨_, _, rfl⟩ := List.mem_map.mp secondMember
        exact .inl less
    apply ordered.imp
    intro one two order first firstMember second secondMember
    obtain ⟨firstColumn, firstRow, _⟩ := mem_blockPixels.mp firstMember
    obtain ⟨secondColumn, secondRow, _⟩ := mem_blockPixels.mp secondMember
    unfold Before
    rw [firstRow, secondRow, firstColumn, secondColumn]
    cases order with
    | inl above => exact .inl above
    | inr beside => exact .inr ⟨beside.1, .inl beside.2⟩

/-- Every pixel of the image that is before another one comes earlier. -/
theorem earlier_of_before {width height : Nat} {earlier later : List Pixel} {pixel former : Pixel}
    (order : pixels width height = earlier ++ pixel :: later) (member : former ∈ pixels width height)
    (before : Before former pixel) : former ∈ earlier := by
  have ordered := pixels_ordered width height
  rw [order] at ordered member
  have rest := (List.pairwise_append.mp ordered).2.1
  cases List.mem_append.mp member with
  | inl found => exact found
  | inr found =>
    cases List.mem_cons.mp found with
    | inl same => exact absurd (same ▸ before) (by unfold Before; omega)
    | inr behind => exact absurd before ((List.pairwise_cons.mp rest).1 former behind).asymm

/-! Places. -/

def column (pixel : Pixel) : Nat := pixel.ix * blockSize + pixel.x

def row (pixel : Pixel) : Nat := pixel.iy * blockSize + pixel.y

theorem column_lt {width height : Nat} {pixel : Pixel} (member : pixel ∈ pixels width height) : column pixel < width := by
  obtain ⟨_, inside, _, left⟩ := mem_pixels.mp member
  unfold column blockSize at *
  omega

theorem row_lt {width height : Nat} {pixel : Pixel} (member : pixel ∈ pixels width height) : row pixel < height := by
  obtain ⟨inside, _, below, _⟩ := mem_pixels.mp member
  unfold row blockSize at *
  omega

theorem index_eq (width : Nat) (pixel : Pixel) : pixel.index width = row pixel * width + column pixel := rfl

theorem index_lt {width height : Nat} {pixel : Pixel} (member : pixel ∈ pixels width height) :
    pixel.index width < width * height := by
  have beside := column_lt member
  have above : row pixel + 1 ≤ height := row_lt member
  calc pixel.index width < row pixel * width + width := by rw [index_eq]; omega
    _ = (row pixel + 1) * width := (Nat.succ_mul _ _).symm
    _ ≤ height * width := Nat.mul_le_mul_right _ above
    _ = width * height := Nat.mul_comm _ _

theorem index_inj {width height : Nat} {one two : Pixel} (first : one ∈ pixels width height)
    (second : two ∈ pixels width height) (same : one.index width = two.index width) : one = two := by
  have oneLt := column_lt first
  have twoLt := column_lt second
  have positive : 0 < width := by omega
  rw [index_eq, index_eq] at same
  have columns : column one = column two := by
    have modulo := congrArg (· % width) same
    simpa [Nat.mod_eq_of_lt oneLt, Nat.mod_eq_of_lt twoLt] using modulo
  have rows : row one = row two := by
    rw [columns] at same
    exact Nat.eq_of_mul_eq_mul_right positive (Nat.add_right_cancel same)
  obtain ⟨_, _, oneBelow, oneLeft⟩ := mem_pixels.mp first
  obtain ⟨_, _, twoBelow, twoLeft⟩ := mem_pixels.mp second
  obtain ⟨ix, iy, x, y⟩ := one
  obtain ⟨ix', iy', x', y'⟩ := two
  unfold column row blockSize at *
  rw [Pixel.mk.injEq]
  dsimp only at *
  omega

theorem places_nodup (width height : Nat) : ((pixels width height).map (Pixel.index width)).Nodup := by
  apply List.Nodup.map_on
  · intro one first two second
    exact index_inj first second
  · exact (pixels_ordered width height).imp fun before same => by
      subst same
      exact before.asymm before

/-- Every place of the image belongs to a pixel. -/
theorem exists_pixel {width height index : Nat} (columns : width % blockSize = 0) (rows : height % blockSize = 0)
    (inside : index < width * height) : ∃ pixel ∈ pixels width height, pixel.index width = index := by
  have positive : 0 < width := Nat.pos_of_ne_zero fun zero => by simp [zero] at inside
  have beside := Nat.mod_lt index positive
  have above : index / width < height := Nat.div_lt_of_lt_mul inside
  have whole := Nat.div_add_mod index width
  refine ⟨⟨index % width / blockSize, index / width / blockSize, index % width % blockSize, index / width % blockSize⟩,
    mem_pixels.mpr ⟨?_, ?_, ?_, ?_⟩, ?_⟩
  · unfold blockSize at *
    dsimp only
    omega
  · unfold blockSize at *
    dsimp only
    omega
  · exact Nat.mod_lt _ (by decide)
  · exact Nat.mod_lt _ (by decide)
  · rw [index_eq, row, column]
    dsimp only
    rw [Nat.mul_comm _ blockSize, Nat.mul_comm _ blockSize, Nat.div_add_mod, Nat.div_add_mod, Nat.mul_comm]
    exact whole

/-! Neighbours. -/

/-- The pixel that is some columns to the left, which may be in the block before. -/
def leftOf (pixel : Pixel) (distance : Nat) : Pixel :=
  if distance ≤ pixel.x then { pixel with x := pixel.x - distance }
  else { pixel with ix := pixel.ix - 1, x := pixel.x + blockSize - distance }

def above (pixel : Pixel) (distance : Nat) : Pixel :=
  if distance ≤ pixel.y then { pixel with y := pixel.y - distance }
  else { pixel with iy := pixel.iy - 1, y := pixel.y + blockSize - distance }

theorem leftOf_spec {width height distance : Nat} {pixel : Pixel} (member : pixel ∈ pixels width height)
    (positive : 0 < distance) (near : distance ≤ blockSize) (inside : distance ≤ pixel.x ∨ pixel.ix ≠ 0) :
    leftOf pixel distance ∈ pixels width height ∧ Before (leftOf pixel distance) pixel ∧
      (leftOf pixel distance).index width = pixel.index width - distance := by
  rw [mem_pixels] at member
  obtain ⟨row, column, below, left⟩ := member
  unfold leftOf
  split
  next same =>
    refine ⟨mem_pixels.mpr ⟨row, column, below, ?_⟩, .inr ⟨rfl, .inr ⟨rfl, .inr ⟨rfl, ?_⟩⟩⟩, ?_⟩
    · dsimp only; omega
    · dsimp only; omega
    · simp only [Pixel.index]; omega
  next other =>
    have column0 := inside.resolve_left other
    refine ⟨mem_pixels.mpr ⟨row, ?_, below, ?_⟩, .inr ⟨rfl, .inl ?_⟩, ?_⟩
    · dsimp only; omega
    · dsimp only; omega
    · dsimp only; omega
    · simp only [Pixel.index]
      unfold blockSize at *
      omega

theorem above_spec {width height distance : Nat} {pixel : Pixel} (member : pixel ∈ pixels width height)
    (positive : 0 < distance) (near : distance ≤ blockSize) (inside : distance ≤ pixel.y ∨ pixel.iy ≠ 0) :
    above pixel distance ∈ pixels width height ∧ Before (above pixel distance) pixel ∧
      (above pixel distance).index width = pixel.index width - width * distance := by
  rw [mem_pixels] at member
  obtain ⟨row, column, below, left⟩ := member
  -- only the number of the row changes
  have higher : ∀ rows, distance ≤ rows → ∀ place,
      (rows - distance) * width + place = rows * width + place - width * distance := by
    intro rows enough place
    have scaled := Nat.mul_le_mul_right width enough
    rw [Nat.sub_mul, Nat.mul_comm width distance]
    omega
  unfold above
  split
  next same =>
    refine ⟨mem_pixels.mpr ⟨row, column, ?_, left⟩, .inr ⟨rfl, .inr ⟨rfl, .inl ?_⟩⟩, ?_⟩
    · dsimp only; omega
    · dsimp only; omega
    · simp only [Pixel.index]
      rw [← higher _ (by omega)]
      congr 2
      omega
  next other =>
    have row0 := inside.resolve_left other
    refine ⟨mem_pixels.mpr ⟨?_, column, ?_, left⟩, .inl ?_, ?_⟩
    · dsimp only; omega
    · dsimp only; omega
    · dsimp only; omega
    · simp only [Pixel.index]
      unfold blockSize at *
      rw [← higher _ (by omega)]
      congr 2
      omega

/-- Two images that agree before a pixel agree around it. -/
theorem neighbours_congr {width height : Nat} {earlier later : List Pixel} {pixel : Pixel} {one two prev : Nat → UInt16}
    (order : pixels width height = earlier ++ pixel :: later)
    (agree : ∀ former ∈ earlier, one (former.index width) = two (former.index width)) :
    neighbours width one prev pixel = neighbours width two prev pixel := by
  have member : pixel ∈ pixels width height := by rw [order]; simp
  have left : ∀ distance, 0 < distance → distance ≤ blockSize → (distance ≤ pixel.x ∨ pixel.ix ≠ 0) →
      one (pixel.index width - distance) = two (pixel.index width - distance) := by
    intro distance positive near inside
    obtain ⟨found, before, place⟩ := leftOf_spec member positive near inside
    rw [← place]
    exact agree _ (earlier_of_before order found before)
  have up : ∀ distance, 0 < distance → distance ≤ blockSize → (distance ≤ pixel.y ∨ pixel.iy ≠ 0) →
      one (pixel.index width - width * distance) = two (pixel.index width - width * distance) := by
    intro distance positive near inside
    obtain ⟨found, before, place⟩ := above_spec member positive near inside
    rw [← place]
    exact agree _ (earlier_of_before order found before)
  have up1 := up 1 (by decide) (by decide)
  rw [Nat.mul_one] at up1
  unfold neighbours
  dsimp only
  split
  next edge =>
    congr 1
    · split
      next inside => exact left 1 (by decide) (by decide) (.inl inside)
      next => rfl
    · split
      next inside => exact up1 (.inl inside)
      next => rfl
  next inner =>
    have apart : pixel.ix ≠ 0 ∧ pixel.iy ≠ 0 := by simpa [border] using inner
    rw [left 1 (by decide) (by decide) (.inr apart.1), left 2 (by decide) (by decide) (.inr apart.1), up1 (.inr apart.2),
      up 2 (by decide) (by decide) (.inr apart.2)]

end AxbyCore.Proofs.Zdepth
