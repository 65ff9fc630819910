import Chip8.Instruction
import Chip8.Text.Hex

/-!
Instructions in words, as trace lines and listings show them.
-/

namespace Chip8

def reg (x : Register) : String := "V" ++ Hex.padded 1 x.val

def byteText (b : UInt8) : String := "0x" ++ Hex.padded 2 b.toNat

def addressText (a : Address) : String := "0x" ++ Hex.padded 3 a.val

def Alu.describe (op : Alu) (x y : Register) : String :=
  match op with
  | .copy => reg x ++ " = " ++ reg y
  | .or => reg x ++ " |= " ++ reg y
  | .and => reg x ++ " &= " ++ reg y
  | .xor => reg x ++ " ^= " ++ reg y
  | .add => reg x ++ " += " ++ reg y ++ ", VF = carry"
  | .sub => reg x ++ " -= " ++ reg y ++ ", VF = not borrow"
  | .shiftRight => reg x ++ " >>= 1, VF = shifted bit"
  | .subFrom => reg x ++ " = " ++ reg y ++ " - " ++ reg x ++ ", VF = not borrow"
  | .shiftLeft => reg x ++ " <<= 1, VF = shifted bit"

def Condition.describe : Condition → String
  | .is x value => reg x ++ " == " ++ byteText value
  | .isNot x value => reg x ++ " != " ++ byteText value
  | .same x y => reg x ++ " == " ++ reg y
  | .differ x y => reg x ++ " != " ++ reg y
  | .keyDown x => "key " ++ reg x ++ " pressed"
  | .keyUp x => "key " ++ reg x ++ " not pressed"

/-- One line of text for an instruction. Operands that it ignores are not shown. -/
def Instruction.describe : Instruction → String
  | .clearScreen => "Clear screen"
  | .ret => "Return from subroutine"
  | .jump target => "Jump to " ++ addressText target
  | .call target => "Call subroutine at " ++ addressText target
  | .skip condition => "Skip next if " ++ condition.describe
  | .set x value => "Set " ++ reg x ++ " = " ++ byteText value
  | .addConstant x value => "Set " ++ reg x ++ " += " ++ byteText value
  | .alu op x y => op.describe x y
  | .setIndex target => "Set I = " ++ addressText target
  | .jumpOffset base => "Jump to " ++ addressText base ++ " + offset register"
  | .random x mask => "Set " ++ reg x ++ " = random & " ++ byteText mask
  | .draw x y height =>
    "Draw " ++ toString height.val ++ "-row sprite at (" ++ reg x ++ ", " ++ reg y ++
      ") from I, VF = collision"
  | .readDelay x => reg x ++ " = delay timer"
  | .waitKey x => "Wait for key, store in " ++ reg x
  | .setDelay x => "Delay timer = " ++ reg x
  | .setSound x => "Sound timer = " ++ reg x
  | .addIndex x => "I += " ++ reg x
  | .glyph x => "I = font glyph for " ++ reg x
  | .decimal x => "Store BCD of " ++ reg x ++ " at I"
  | .store last => "Store V0.." ++ reg last ++ " at I"
  | .load last => "Load V0.." ++ reg last ++ " from I"

def Word.disassemble (w : Word) : String :=
  match Instruction.ofWord? w with
  | some i => i.describe
  | none => "Unimplemented opcode"

end Chip8
