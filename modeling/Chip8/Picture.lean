import Chip8.Color
import Chip8.Framebuffer

/-!
Pictures of the screen. Every pixel of the screen becomes a square cell; with outlines, the border
of a lit cell is painted over in the colour of dark pixels, unless the cells are too small to have
an inside.
-/

namespace Chip8

abbrev Grid (α : Type) (width height : Nat) := Vector (Vector α width) height

namespace Grid

variable {α : Type} {width height : Nat}

/-- Every entry so many times, next to each other. -/
def stretch {n : Nat} (size : Nat) (entries : Vector α n) : Vector α (n * size) :=
  (entries.map (Vector.replicate size)).flatten

/-- All entries over and over, one copy after another. -/
def copies {n : Nat} (count : Nat) (entries : Vector α n) : Vector α (count * n) :=
  (Vector.replicate count entries).flatten

def enlarge (size : Nat) (grid : Grid α width height) : Grid α (width * size) (height * size) :=
  (stretch size grid).map (stretch size)

def tile (columns rows : Nat) (grid : Grid α width height) :
    Grid α (columns * width) (rows * height) :=
  copies rows (grid.map (copies columns))

def zip {β γ : Type} (f : α → β → γ) (a : Grid α width height) (b : Grid β width height) :
    Grid γ width height :=
  Vector.zipWith (Vector.zipWith f) a b

def paint (mask : Grid Bool width height) (value : α) (grid : Grid α width height) :
    Grid α width height :=
  zip (fun marked old => if marked then value else old) mask grid

def border (size : Nat) : Grid Bool size size :=
  let onEdge (k : Fin size) : Bool := k.val = 0 || k.val = size - 1
  Vector.ofFn fun row => Vector.ofFn fun column => onEdge row || onEdge column

theorem getElem_stretch {n i : Nat} (size : Nat) (entries : Vector α n) (inside : i < n * size)
    (cell : i / size < n) : (stretch size entries)[i] = entries[i / size] := by
  simp only [stretch, Vector.getElem_flatten, Vector.getElem_map, Vector.getElem_replicate]

theorem getElem_copies {n i : Nat} (count : Nat) (entries : Vector α n) (inside : i < count * n)
    (place : i % n < n) : (copies count entries)[i] = entries[i % n] := by
  simp only [copies, Vector.getElem_flatten, Vector.getElem_replicate]

theorem getElem_enlarge {row column : Nat} (size : Nat) (grid : Grid α width height)
    (hr : row < height * size) (hc : column < width * size) (y : row / size < height)
    (x : column / size < width) :
    (enlarge size grid)[row][column] = grid[row / size][column / size] := by
  simp only [enlarge, Vector.getElem_map, getElem_stretch _ _ hc x, getElem_stretch _ _ hr y]

theorem getElem_tile {row column : Nat} (columns rows : Nat) (grid : Grid α width height)
    (hr : row < rows * height) (hc : column < columns * width) (y : row % height < height)
    (x : column % width < width) :
    (tile columns rows grid)[row][column] = grid[row % height][column % width] := by
  simp only [tile, getElem_copies _ _ hr y, Vector.getElem_map, getElem_copies _ _ hc x]

theorem getElem_zip {β γ : Type} {row column : Nat} (f : α → β → γ) (a : Grid α width height)
    (b : Grid β width height) (hr : row < height) (hc : column < width) :
    (zip f a b)[row][column] = f a[row][column] b[row][column] := by
  simp only [zip, Vector.getElem_zipWith]

theorem getElem_border {size row column : Nat} (hr : row < size) (hc : column < size) :
    (border size)[row][column] =
      (decide (row = 0) || decide (row = size - 1) ||
        (decide (column = 0) || decide (column = size - 1))) := by
  simp only [border, Vector.getElem_ofFn]

end Grid

structure Picture where
  width : Nat
  height : Nat
  rows : Array (Array Color)
  deriving DecidableEq, Repr

namespace Picture

def at? (picture : Picture) (row column : Nat) : Option Color :=
  (picture.rows[row]?).bind (·[column]?)

def ofGrid {width height : Nat} (grid : Grid Color width height) : Picture :=
  ⟨width, height, grid.toArray.map Vector.toArray⟩

/-- Side of a cell; a scale below one counts as one. -/
def cellSize (scale : Int) : Nat := max scale.toNat 1

def ofScreen (screen : Framebuffer) (scale : Int) (palette : Palette) (outlines : Bool) : Picture :=
  let size := cellSize scale
  let colored : Grid Color screen.width screen.height :=
    screen.rows.map fun row => row.map fun lit => if lit then palette.on else palette.off
  let frame := Grid.enlarge size colored
  if outlines && decide (3 ≤ scale) then
    let lit := Grid.enlarge size screen.rows
    let borders := Grid.tile screen.width screen.height (Grid.border size)
    ofGrid (Grid.paint (Grid.zip (· && ·) lit borders) palette.off frame)
  else
    ofGrid frame

end Picture

end Chip8
