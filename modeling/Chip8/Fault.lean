import Chip8.Text.Hex
import Chip8.Word

/-!
Fatal violations of the machine's state. Each cause carries the program counter at the point of
failure, already past the instruction word, and the word that was being carried out.
-/

namespace Chip8

inductive Fault where
  | stackOverflow (pc : UInt16) (word : Option Word)
  | stackUnderflow (pc : UInt16) (word : Option Word)
  | outsideMemory (pc : UInt16)
  | unsupported (pc : UInt16) (word : Word)
  deriving DecidableEq, Repr

namespace Fault

def pc : Fault → UInt16
  | stackOverflow pc _ | stackUnderflow pc _ | outsideMemory pc | unsupported pc _ => pc

def word? : Fault → Option Word
  | stackOverflow _ word | stackUnderflow _ word => word
  | outsideMemory _ => none
  | unsupported _ word => some word

def kind : Fault → String
  | stackOverflow .. => "stack overflow"
  | stackUnderflow .. => "stack underflow"
  | outsideMemory .. => "program counter out of bounds"
  | unsupported .. => "unsupported instruction"

private def summary : Fault → String
  | stackOverflow .. => "Call stack is full (12 entries)"
  | stackUnderflow .. => "Return with an empty call stack"
  | outsideMemory .. => "Program counter outside memory"
  | unsupported .. => "Unsupported instruction"

def message (fault : Fault) : String :=
  let word := match fault.word? with
    | some w => ", opcode=0x" ++ Hex.padded 4 w.raw
    | none => ""
  fault.summary ++ " (PC=0x" ++ Hex.padded 4 fault.pc.toNat ++ word ++ ")"

end Fault

end Chip8
