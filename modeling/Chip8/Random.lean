/-!
The random source. A generator is a pair of 32-bit words; it splits into two generators and gives
bytes by the Threefry-2x32 block function with twenty rounds, so every draw is a function of the
seed alone.
-/

namespace Chip8

structure Generator where
  high : UInt32
  low : UInt32
  deriving DecidableEq, Repr

namespace Generator

/-- Seeds are 64-bit numbers; the generator holds their low half. Any other number is refused. -/
def ofSeed? (seed : Int) : Option Generator :=
  if -9223372036854775808 ≤ seed ∧ seed < 9223372036854775808 then
    some ⟨0, UInt32.ofNat (seed % 4294967296).toNat⟩
  else
    none

private def rotate (x : UInt32) (amount : UInt32) : UInt32 :=
  (x <<< amount) ||| (x >>> (32 - amount))

private def round (block : UInt32 × UInt32) (amount : UInt32) : UInt32 × UInt32 :=
  let a := block.1 + block.2
  (a, rotate block.2 amount ^^^ a)

private def rounds (block : UInt32 × UInt32) (amounts : List UInt32) : UInt32 × UInt32 :=
  amounts.foldl round block

/-- The block function: five groups of four rounds, each followed by a part of the key. -/
def block (g : Generator) (counter : UInt32 × UInt32) : UInt32 × UInt32 :=
  let third := g.high ^^^ g.low ^^^ 0x1BD11BDA
  let even : List UInt32 := [13, 15, 26, 6]
  let odd : List UInt32 := [17, 29, 16, 24]
  let inject (b : UInt32 × UInt32) (p q i : UInt32) : UInt32 × UInt32 := (b.1 + p, b.2 + q + i)
  let b := inject counter g.high g.low 0
  let b := inject (rounds b even) g.low third 1
  let b := inject (rounds b odd) third g.high 2
  let b := inject (rounds b even) g.high g.low 3
  let b := inject (rounds b odd) g.low third 4
  inject (rounds b even) third g.high 5

def split (g : Generator) : Generator × Generator :=
  let a := g.block (0, 0)
  let b := g.block (0, 1)
  (⟨a.1, a.2⟩, ⟨b.1, b.2⟩)

/-- The byte a generator stands for: the low eight bits of a block of its second half. -/
def byte (g : Generator) : UInt8 :=
  let b := g.split.2.block (0, 0)
  (b.1 ^^^ b.2).toUInt8

def draw (g : Generator) : Generator × UInt8 :=
  (g.split.1, g.split.2.byte)

end Generator

end Chip8
