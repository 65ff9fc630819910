import Chip8.Word

/-!
The instruction table. `Instruction.ofWord?` reads a word into one of the forms the machine
carries out and answers `none` for every other word. The class decides which of the remaining
fields are looked at: the low byte in classes 0, E and F, the low nibble in 5, 8 and 9.
-/

namespace Chip8

inductive Alu where
  | copy | or | and | xor | add | sub | shiftRight | subFrom | shiftLeft
  deriving DecidableEq, Repr

inductive Condition where
  | is (x : Register) (value : UInt8)
  | isNot (x : Register) (value : UInt8)
  | same (x y : Register)
  | differ (x y : Register)
  | keyDown (x : Register)
  | keyUp (x : Register)
  deriving DecidableEq, Repr

inductive Instruction where
  | clearScreen
  | ret
  | jump (target : Address)
  | call (target : Address)
  | skip (condition : Condition)
  | set (x : Register) (value : UInt8)
  | addConstant (x : Register) (value : UInt8)
  | alu (op : Alu) (x y : Register)
  | setIndex (target : Address)
  | jumpOffset (base : Address)
  | random (x : Register) (mask : UInt8)
  | draw (x y : Register) (height : Fin 16)
  | readDelay (x : Register)
  | waitKey (x : Register)
  | setDelay (x : Register)
  | setSound (x : Register)
  | addIndex (x : Register)
  | glyph (x : Register)
  | decimal (x : Register)
  | store (last : Register)
  | load (last : Register)
  deriving DecidableEq, Repr

def Alu.ofNibble? (n : Fin 16) : Option Alu :=
  match n.val with
  | 0x0 => some .copy
  | 0x1 => some .or
  | 0x2 => some .and
  | 0x3 => some .xor
  | 0x4 => some .add
  | 0x5 => some .sub
  | 0x6 => some .shiftRight
  | 0x7 => some .subFrom
  | 0xE => some .shiftLeft
  | _ => none

namespace Instruction

/-- Class 0: the low byte alone decides, whatever the second nibble holds. -/
def system? (w : Word) : Option Instruction :=
  match w.nn.toNat with
  | 0xE0 => some .clearScreen
  | 0xEE => some .ret
  | _ => none

def arithmetic? (w : Word) : Option Instruction :=
  (Alu.ofNibble? w.n).map (.alu · w.x w.y)

def keySkip? (w : Word) : Option Instruction :=
  match w.nn.toNat with
  | 0x9E => some (.skip (.keyDown w.x))
  | 0xA1 => some (.skip (.keyUp w.x))
  | _ => none

def miscellaneous? (w : Word) : Option Instruction :=
  match w.nn.toNat with
  | 0x07 => some (.readDelay w.x)
  | 0x0A => some (.waitKey w.x)
  | 0x15 => some (.setDelay w.x)
  | 0x18 => some (.setSound w.x)
  | 0x1E => some (.addIndex w.x)
  | 0x29 => some (.glyph w.x)
  | 0x33 => some (.decimal w.x)
  | 0x55 => some (.store w.x)
  | 0x65 => some (.load w.x)
  | _ => none

/-- The instruction a word stands for, `none` when it is in no row of the table. -/
def ofWord? (w : Word) : Option Instruction :=
  match w.opcode.val with
  | 0x0 => system? w
  | 0x1 => some (.jump w.nnn)
  | 0x2 => some (.call w.nnn)
  | 0x3 => some (.skip (.is w.x w.nn))
  | 0x4 => some (.skip (.isNot w.x w.nn))
  | 0x5 => if w.n = 0 then some (.skip (.same w.x w.y)) else none
  | 0x6 => some (.set w.x w.nn)
  | 0x7 => some (.addConstant w.x w.nn)
  | 0x8 => arithmetic? w
  | 0x9 => if w.n = 0 then some (.skip (.differ w.x w.y)) else none
  | 0xA => some (.setIndex w.nnn)
  | 0xB => some (.jumpOffset w.nnn)
  | 0xC => some (.random w.x w.nn)
  | 0xD => some (.draw w.x w.y w.n)
  | 0xE => keySkip? w
  | _ => miscellaneous? w

end Instruction

def Word.supported (w : Word) : Bool := (Instruction.ofWord? w).isSome

end Chip8
