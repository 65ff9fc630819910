import Chip8.Picture

/-!
What a picture shows of the screen. Its pixel at a row and a column belongs to the cell of one
pixel of the screen, and is lit when that one is and no outline covers it. Outlines leave at least
the middle of a cell, so that the middles of the cells give the screen back.
-/

namespace Chip8.Picture

variable {screen : Framebuffer} {scale : Int} {palette : Palette} {outlines : Bool}
  {size row column : Nat}

def OnEdge (size k : Nat) : Prop := k % size = 0 ∨ k % size = size - 1

instance (size k : Nat) : Decidable (OnEdge size k) := inferInstanceAs (Decidable (_ ∨ _))

/-- Whether the pixel shows the colour of lit pixels. -/
def Shines (screen : Framebuffer) (size : Nat) (outlines : Bool) (row column : Nat) : Prop :=
  screen.lit (column / size) (row / size) = true ∧
    ¬(outlines = true ∧ 3 ≤ size ∧ (OnEdge size row ∨ OnEdge size column))

instance (screen : Framebuffer) (size : Nat) (outlines : Bool) (row column : Nat) :
    Decidable (Shines screen size outlines row column) :=
  inferInstanceAs (Decidable (_ ∧ _))

theorem cellSize_natCast (one : 1 ≤ size) : cellSize size = size := by
  rw [cellSize]
  omega

theorem three_le_iff (scale : Int) : 3 ≤ scale ↔ 3 ≤ cellSize scale := by
  rw [cellSize]
  omega

theorem at?_ofGrid {width height : Nat} (grid : Grid Color width height) (hr : row < height)
    (hc : column < width) : (ofGrid grid).at? row column = some grid[row][column] := by
  simp [at?, ofGrid, hr, hc]

theorem getElem_rows {x y : Nat} (hy : y < screen.height) (hx : x < screen.width) :
    screen.rows[y][x] = screen.lit x y := by
  simp [Framebuffer.lit, hy, hx]

theorem getElem_borders_iff {columns rows : Nat} (hr : row < rows * size)
    (hc : column < columns * size) :
    (Grid.tile columns rows (Grid.border size))[row][column] = true ↔
      OnEdge size row ∨ OnEdge size column := by
  have y : row % size < size := Nat.mod_lt _ (Nat.pos_of_lt_mul_left hr)
  have x : column % size < size := Nat.mod_lt _ (Nat.pos_of_lt_mul_left hc)
  rw [Grid.getElem_tile _ _ _ hr hc y x, Grid.getElem_border y x]
  simp [OnEdge]

theorem at?_ofScreen (palette : Palette) (outlines : Bool)
    (hr : row < screen.height * cellSize scale) (hc : column < screen.width * cellSize scale) :
    (ofScreen screen scale palette outlines).at? row column =
      some (if Shines screen (cellSize scale) outlines row column then palette.on
        else palette.off) := by
  have positive : 0 < cellSize scale := Nat.pos_of_lt_mul_left hr
  have y : row / cellSize scale < screen.height := (Nat.div_lt_iff_lt_mul positive).mpr hr
  have x : column / cellSize scale < screen.width := (Nat.div_lt_iff_lt_mul positive).mpr hc
  have size_of_scale := three_le_iff scale
  have borders := getElem_borders_iff hr hc
  simp only [ofScreen]
  split
  case isTrue outlined =>
    simp only [at?_ofGrid _ hr hc, Grid.paint, Grid.getElem_zip _ _ _ hr hc,
      Grid.getElem_enlarge _ _ hr hc y x, Vector.getElem_map, getElem_rows y x]
    grind [Shines]
  case isFalse plain =>
    simp only [at?_ofGrid _ hr hc, Grid.getElem_enlarge _ _ hr hc y x, Vector.getElem_map,
      getElem_rows y x]
    grind [Shines]

theorem shines_middle (one : 1 ≤ size) (screen : Framebuffer) (outlines : Bool) (x y : Nat) :
    Shines screen size outlines (y * size + size / 2) (x * size + size / 2) ↔
      screen.lit x y = true := by
  have below : size / 2 < size := by omega
  have quotient (k : Nat) : (k * size + size / 2) / size = k := by
    rw [Nat.mul_comm, Nat.mul_add_div one, Nat.div_eq_of_lt below, Nat.add_zero]
  have remainder (k : Nat) : (k * size + size / 2) % size = size / 2 := by
    rw [Nat.mul_comm, Nat.mul_add_mod, Nat.mod_eq_of_lt below]
  have inside : 3 ≤ size → ∀ k, ¬OnEdge size (k * size + size / 2) := by
    intro three k
    rw [OnEdge, remainder]
    omega
  rw [Shines, quotient, quotient]
  constructor
  · exact And.left
  · rintro lit
    refine ⟨lit, ?_⟩
    rintro ⟨-, three, edge | edge⟩
    · exact inside three y edge
    · exact inside three x edge

structure Measures (picture : Picture) (width height : Nat) : Prop where
  width_eq : picture.width = width
  height_eq : picture.height = height
  rows_size : picture.rows.size = height
  row_size : ∀ row ∈ picture.rows, row.size = width

theorem measures_ofGrid {width height : Nat} (grid : Grid Color width height) :
    Measures (ofGrid grid) width height where
  width_eq := rfl
  height_eq := rfl
  rows_size := by simp [ofGrid]
  row_size := by
    intro row shown
    obtain ⟨entries, -, rfl⟩ := Array.mem_map.mp shown
    exact entries.size_toArray

theorem measures_ofScreen (screen : Framebuffer) (scale : Int) (palette : Palette)
    (outlines : Bool) :
    Measures (ofScreen screen scale palette outlines) (screen.width * cellSize scale)
      (screen.height * cellSize scale) := by
  simp only [ofScreen]
  split <;> exact measures_ofGrid _

theorem at?_middle (one : 1 ≤ size) (palette : Palette) (outlines : Bool) {x y : Nat}
    (hx : x < screen.width) (hy : y < screen.height) :
    (ofScreen screen size palette outlines).at? (y * size + size / 2) (x * size + size / 2) =
      some (if screen.lit x y then palette.on else palette.off) := by
  have below : size / 2 < size := by omega
  have inside {k n : Nat} (h : k < n) : k * size + size / 2 < n * size :=
    calc k * size + size / 2 < (k + 1) * size := by rw [Nat.succ_mul]; omega
      _ ≤ n * size := Nat.mul_le_mul_right size h
  have scaled := cellSize_natCast one
  rw [at?_ofScreen palette outlines (by rw [scaled]; exact inside hy)
    (by rw [scaled]; exact inside hx), scaled]
  simp only [shines_middle one]

theorem screen_eq_of_picture_eq (one : 1 ≤ size) (apart : palette.on ≠ palette.off)
    {other : Framebuffer} {outlines' : Bool} (width : other.width = screen.width)
    (height : other.height = screen.height)
    (same : ofScreen other size palette outlines' = ofScreen screen size palette outlines) :
    other = screen := by
  apply Framebuffer.eq_of_lit width height
  intro x y
  by_cases inside : x < screen.width ∧ y < screen.height
  · have middle := at?_middle one palette outlines inside.1 inside.2
    rw [← same, at?_middle one palette outlines' (width ▸ inside.1) (height ▸ inside.2)] at middle
    grind
  · rw [Framebuffer.lit_eq_false_of_outside inside, Framebuffer.lit_eq_false_of_outside]
    rwa [width, height]

/-- A picture has a square cell for each pixel of the screen. Its pixels have the colour of lit
ones exactly inside the cells of lit pixels, outlines apart, and with two colours the middles of
the cells give the screen back. -/
theorem picture_tells_screen (one : 1 ≤ size) (screen : Framebuffer) (palette : Palette)
    (outlines : Bool) :
    let picture := ofScreen screen size palette outlines
    Measures picture (screen.width * size) (screen.height * size) ∧
    (∀ row < screen.height * size, ∀ column < screen.width * size,
      picture.at? row column =
        some (if Shines screen size outlines row column then palette.on else palette.off)) ∧
    (palette.on ≠ palette.off →
      (∀ x < screen.width, ∀ y < screen.height,
        picture.at? (y * size + size / 2) (x * size + size / 2) = some palette.on ↔
          screen.lit x y = true) ∧
      ∀ (other : Framebuffer) (outlines' : Bool), other.width = screen.width →
        other.height = screen.height → ofScreen other size palette outlines' = picture →
        other = screen) := by
  intro picture
  have scaled := cellSize_natCast one
  refine ⟨?_, ?_, fun apart => ⟨?_, ?_⟩⟩
  · have measured := measures_ofScreen screen size palette outlines
    rwa [scaled] at measured
  · intro row hr column hc
    rw [← scaled] at hr hc
    have shown := at?_ofScreen palette outlines hr hc
    rwa [scaled] at shown
  · intro x hx y hy
    rw [at?_middle one palette outlines hx hy]
    cases screen.lit x y <;> simp [apart.symm]
  · intro other outlines' width height same
    exact screen_eq_of_picture_eq one apart width height same

/-- Three pixels by two with outlined cells of three: only the middle of a lit cell is green. -/
theorem picture_tells_screen_with_outlines :
    let screen := ((Framebuffer.blank 3 2).light 0 1).light 2 0
    let palette : Palette := ⟨⟨0, 255, 0⟩, ⟨0, 0, 0⟩⟩
    let picture := ofScreen screen 3 palette true
    Measures picture 9 6 ∧ picture.at? 4 1 = some ⟨0, 255, 0⟩ ∧ picture.at? 4 2 = some ⟨0, 0, 0⟩ ∧
      picture.at? 1 7 = some ⟨0, 255, 0⟩ ∧ screen.lit 2 0 = true ∧
      ∀ other : Framebuffer, other.width = 3 → other.height = 2 →
        ofScreen other 3 palette true = picture → other = screen := by
  intro screen palette picture
  obtain ⟨measures, pixels, back⟩ :=
    picture_tells_screen (show 1 ≤ 3 by decide) screen palette true
  obtain ⟨middles, unique⟩ := back (by decide)
  refine ⟨measures, ?_, ?_, ?_, ?_, ?_⟩
  · exact (middles 0 (by decide) 1 (by decide)).mpr (by decide)
  · exact pixels 4 (by decide) 2 (by decide)
  · exact pixels 1 (by decide) 7 (by decide)
  · exact (middles 2 (by decide) 0 (by decide)).mp (pixels 1 (by decide) 7 (by decide))
  · exact fun other width height same => unique other true width height same

end Chip8.Picture
