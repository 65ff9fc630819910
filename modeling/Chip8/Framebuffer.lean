/-!
The one-bit screen. Pixels are addressed by column and row from the top left corner, and `lit` is
the view through which every operation is described: it is false outside the screen.
-/

namespace Chip8

structure Framebuffer where
  width : Nat
  height : Nat
  rows : Vector (Vector Bool width) height
  deriving DecidableEq, Repr

/-- Rows of eight pixels, the most significant bit leftmost. -/
abbrev Sprite := List UInt8

namespace Sprite

def lit (sprite : Sprite) (column row : Nat) : Bool :=
  match sprite[row]? with
  | some bits => decide (column < 8) && bits.toNat.testBit (7 - column)
  | none => false

end Sprite

namespace Framebuffer

def blank (width height : Nat) : Framebuffer :=
  ⟨width, height, Vector.replicate height (Vector.replicate width false)⟩

def lit (screen : Framebuffer) (x y : Nat) : Bool :=
  if hy : y < screen.height then
    if hx : x < screen.width then screen.rows[y][x] else false
  else false

def clear (screen : Framebuffer) : Framebuffer :=
  blank screen.width screen.height

/-- Exclusive or with a sprite whose top left corner is at `(x, y)`. What falls outside the screen
is lost. -/
def draw (screen : Framebuffer) (sprite : Sprite) (x y : Nat) : Framebuffer :=
  { screen with
    rows := screen.rows.mapFinIdx fun r row _ =>
      if y ≤ r ∧ r < y + sprite.length then
        row.mapFinIdx fun c pixel _ => pixel ^^ (decide (x ≤ c) && sprite.lit (c - x) (r - y))
      else row }

def collides (screen : Framebuffer) (sprite : Sprite) (x y : Nat) : Bool :=
  (List.range sprite.length).any fun r =>
    (List.range 8).any fun c => sprite.lit c r && screen.lit (x + c) (y + r)

def light (screen : Framebuffer) (x y : Nat) : Framebuffer :=
  { screen with
    rows := screen.rows.mapFinIdx fun r row _ =>
      if r = y then row.mapFinIdx fun c pixel _ => pixel || decide (c = x) else row }

theorem lit_eq_false_of_outside {screen : Framebuffer} {x y : Nat}
    (h : ¬(x < screen.width ∧ y < screen.height)) : screen.lit x y = false := by
  unfold lit
  split
  · split
    · exact absurd ⟨‹_›, ‹_›⟩ h
    · rfl
  · rfl

theorem lit_draw (screen : Framebuffer) (sprite : Sprite) (ox oy x y : Nat) :
    (screen.draw sprite ox oy).lit x y =
      (screen.lit x y ^^ (decide (x < screen.width ∧ y < screen.height) &&
        (decide (ox ≤ x ∧ oy ≤ y) && sprite.lit (x - ox) (y - oy)))) := by
  by_cases hy : y < screen.height
  · by_cases hx : x < screen.width
    · by_cases hr : oy ≤ y ∧ y < oy + sprite.length
      · simp [lit, draw, hx, hy, hr]
      · by_cases ho : oy ≤ y
        · have past : sprite[y - oy]? = none := by
            rw [List.getElem?_eq_none_iff]
            omega
          simp [lit, draw, hx, hy, hr, Sprite.lit, past]
        · simp [lit, draw, hx, hy, ho]
    · simp [lit, draw, hx, hy]
  · simp [lit, draw, hy]

theorem eq_of_lit {a b : Framebuffer} (hw : a.width = b.width) (hh : a.height = b.height)
    (h : ∀ x y, a.lit x y = b.lit x y) : a = b := by
  obtain ⟨w, hgt, ra⟩ := a
  obtain ⟨w', hgt', rb⟩ := b
  simp only at hw hh
  subst hw hh
  congr 1
  apply Vector.ext
  intro y hy
  apply Vector.ext
  intro x hx
  simpa [lit, hx, hy] using h x y

end Framebuffer

end Chip8
