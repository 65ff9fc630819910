/-!
Instruction words. A word keeps the number it was given; its fields read the low sixteen bits,
so that a negative number counts in two's complement and higher bits are ignored.
-/

namespace Chip8

abbrev Register := Fin 16

abbrev Address := Fin 4096

-- Stated once, so that the numerals of these two types carry no proof of their own.
instance sixteenNeZero : @NeZero Nat .ofOfNat0 16 := ⟨by decide⟩

instance memorySizeNeZero : @NeZero Nat .ofOfNat0 4096 := ⟨by decide⟩

structure Word where
  raw : Int
  deriving DecidableEq, Repr

namespace Word

def code (w : Word) : Nat := (w.raw % 65536).toNat

def opcode (w : Word) : Fin 16 := Fin.ofNat 16 (w.code / 4096)

def x (w : Word) : Register := Fin.ofNat 16 (w.code / 256)

def y (w : Word) : Register := Fin.ofNat 16 (w.code / 16)

def n (w : Word) : Fin 16 := Fin.ofNat 16 w.code

def nn (w : Word) : UInt8 := UInt8.ofNat w.code

def nnn (w : Word) : Address := Fin.ofNat 4096 w.code

def ofBytes (high low : UInt8) : Word := ⟨(high.toNat * 256 + low.toNat : Nat)⟩

theorem code_lt (w : Word) : w.code < 65536 := by
  unfold code
  omega

end Word

end Chip8
