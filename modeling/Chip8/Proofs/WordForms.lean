import Chip8.Instruction

/-!
Words and the instructions they stand for, read in both directions. `Reads` lists the fields that
make a word stand for an instruction, one constructor for a form, with the operands taken from the
word; `ofWord?` finds an instruction exactly where one of them applies. So the class of a word is
the class of its instruction, and the two forms that use the call stack are told by fields of the
word alone.
-/

namespace Chip8

namespace Instruction

def opcode : Instruction → Fin 16
  | clearScreen | ret => 0x0
  | jump _ => 0x1
  | call _ => 0x2
  | skip (.is ..) => 0x3
  | skip (.isNot ..) => 0x4
  | skip (.same ..) => 0x5
  | set .. => 0x6
  | addConstant .. => 0x7
  | alu .. => 0x8
  | skip (.differ ..) => 0x9
  | setIndex _ => 0xA
  | jumpOffset _ => 0xB
  | random .. => 0xC
  | draw .. => 0xD
  | skip (.keyDown _) | skip (.keyUp _) => 0xE
  | readDelay _ | waitKey _ | setDelay _ | setSound _ | addIndex _ | glyph _ | decimal _
  | store _ | load _ => 0xF

/-- The fields by which a word stands for an instruction, and the operands it hands over. -/
inductive Reads (w : Word) : Instruction → Prop where
  | clearScreen (class0 : w.opcode = 0x0) (low : w.nn = 0xE0) : Reads w .clearScreen
  | ret (class0 : w.opcode = 0x0) (low : w.nn = 0xEE) : Reads w .ret
  | jump (class1 : w.opcode = 0x1) : Reads w (.jump w.nnn)
  | call (class2 : w.opcode = 0x2) : Reads w (.call w.nnn)
  | skipIs (class3 : w.opcode = 0x3) : Reads w (.skip (.is w.x w.nn))
  | skipIsNot (class4 : w.opcode = 0x4) : Reads w (.skip (.isNot w.x w.nn))
  | skipSame (class5 : w.opcode = 0x5) (last : w.n = 0) : Reads w (.skip (.same w.x w.y))
  | set (class6 : w.opcode = 0x6) : Reads w (.set w.x w.nn)
  | addConstant (class7 : w.opcode = 0x7) : Reads w (.addConstant w.x w.nn)
  | alu {op : Alu} (class8 : w.opcode = 0x8) (named : Alu.ofNibble? w.n = some op) :
      Reads w (.alu op w.x w.y)
  | skipDiffer (class9 : w.opcode = 0x9) (last : w.n = 0) : Reads w (.skip (.differ w.x w.y))
  | setIndex (class10 : w.opcode = 0xA) : Reads w (.setIndex w.nnn)
  | jumpOffset (class11 : w.opcode = 0xB) : Reads w (.jumpOffset w.nnn)
  | random (class12 : w.opcode = 0xC) : Reads w (.random w.x w.nn)
  | draw (class13 : w.opcode = 0xD) : Reads w (.draw w.x w.y w.n)
  | keyDown (class14 : w.opcode = 0xE) (low : w.nn = 0x9E) : Reads w (.skip (.keyDown w.x))
  | keyUp (class14 : w.opcode = 0xE) (low : w.nn = 0xA1) : Reads w (.skip (.keyUp w.x))
  | readDelay (class15 : w.opcode = 0xF) (low : w.nn = 0x07) : Reads w (.readDelay w.x)
  | waitKey (class15 : w.opcode = 0xF) (low : w.nn = 0x0A) : Reads w (.waitKey w.x)
  | setDelay (class15 : w.opcode = 0xF) (low : w.nn = 0x15) : Reads w (.setDelay w.x)
  | setSound (class15 : w.opcode = 0xF) (low : w.nn = 0x18) : Reads w (.setSound w.x)
  | addIndex (class15 : w.opcode = 0xF) (low : w.nn = 0x1E) : Reads w (.addIndex w.x)
  | glyph (class15 : w.opcode = 0xF) (low : w.nn = 0x29) : Reads w (.glyph w.x)
  | decimal (class15 : w.opcode = 0xF) (low : w.nn = 0x33) : Reads w (.decimal w.x)
  | store (class15 : w.opcode = 0xF) (low : w.nn = 0x55) : Reads w (.store w.x)
  | load (class15 : w.opcode = 0xF) (low : w.nn = 0x65) : Reads w (.load w.x)

variable {w : Word} {i : Instruction}

theorem reads_of_system? (class0 : w.opcode = 0x0) (h : system? w = some i) : Reads w i := by
  unfold system? at h
  split at h <;> cases h
  case h_1 low => exact .clearScreen class0 (UInt8.toNat_inj.mp low)
  case h_2 low => exact .ret class0 (UInt8.toNat_inj.mp low)

theorem reads_of_keySkip? (class14 : w.opcode = 0xE) (h : keySkip? w = some i) : Reads w i := by
  unfold keySkip? at h
  split at h <;> cases h
  case h_1 low => exact .keyDown class14 (UInt8.toNat_inj.mp low)
  case h_2 low => exact .keyUp class14 (UInt8.toNat_inj.mp low)

theorem reads_of_miscellaneous? (class15 : w.opcode = 0xF) (h : miscellaneous? w = some i) :
    Reads w i := by
  unfold miscellaneous? at h
  split at h <;> cases h
  all_goals
    rename_i low
    constructor
    · exact class15
    · exact UInt8.toNat_inj.mp low

theorem reads_of_ofWord? (h : ofWord? w = some i) : Reads w i := by
  have named (k : Nat) (c : w.opcode.val = k) : w.opcode = ⟨k, c ▸ w.opcode.isLt⟩ := Fin.ext c
  unfold ofWord? at h
  split at h
  case h_1 c => exact reads_of_system? (named _ c) h
  case h_6 c | h_10 c =>
    split at h <;> cases h
    rename_i last
    constructor
    · exact named _ c
    · exact last
  case h_9 c =>
    obtain ⟨op, found, rfl⟩ := Option.map_eq_some_iff.mp h
    exact .alu (named _ c) found
  case h_15 c => exact reads_of_keySkip? (named _ c) h
  case h_16 =>
    -- the last row of the table is reached with every smaller class excluded
    have c : w.opcode.val = 15 := by
      have bound := w.opcode.isLt
      grind
    exact reads_of_miscellaneous? (named _ c) h
  all_goals
    rename_i c
    cases h
    constructor
    exact named _ c

theorem Reads.ofWord? (h : Reads w i) : Instruction.ofWord? w = some i := by
  cases h with
  | clearScreen c low | ret c low =>
    rw [Instruction.ofWord?, c]
    change system? w = _
    rw [system?, low]
    rfl
  | skipSame c last | skipDiffer c last =>
    rw [Instruction.ofWord?, c]
    exact if_pos last
  | alu c named =>
    rw [Instruction.ofWord?, c]
    change arithmetic? w = _
    rw [arithmetic?, named]
    rfl
  | keyDown c low | keyUp c low =>
    rw [Instruction.ofWord?, c]
    change keySkip? w = _
    rw [keySkip?, low]
    rfl
  | readDelay c low | waitKey c low | setDelay c low | setSound c low | addIndex c low
  | glyph c low | decimal c low | store c low | load c low =>
    rw [Instruction.ofWord?, c]
    change miscellaneous? w = _
    rw [miscellaneous?, low]
    rfl
  | jump c | call c | skipIs c | skipIsNot c | set c | addConstant c | setIndex c | jumpOffset c
  | random c | draw c =>
    rw [Instruction.ofWord?, c]
    rfl

theorem opcode_of_ofWord? (h : ofWord? w = some i) : w.opcode = i.opcode := by
  cases reads_of_ofWord? h <;> assumption

theorem nn_of_ofWord?_ret (h : ofWord? w = some .ret) : w.nn = 0xEE := by
  cases reads_of_ofWord? h
  assumption

end Instruction

namespace Word

def isCall (w : Word) : Bool := w.opcode = 2

/-- The words of class 0 with low byte EE, whatever the second nibble holds. -/
def isReturn (w : Word) : Bool := w.opcode = 0 && w.nn = 0xEE

theorem ofWord?_of_isCall {w : Word} (h : w.isCall = true) :
    Instruction.ofWord? w = some (.call w.nnn) := by
  have class2 : w.opcode = 2 := by simpa [isCall] using h
  exact (Instruction.Reads.call class2).ofWord?

theorem ofWord?_of_isReturn {w : Word} (h : w.isReturn = true) :
    Instruction.ofWord? w = some .ret := by
  have fields : w.opcode = 0 ∧ w.nn = 0xEE := by simpa [isReturn] using h
  exact (Instruction.Reads.ret fields.1 fields.2).ofWord?

theorem isCall_eq (w : Word) :
    w.isCall = match Instruction.ofWord? w with
      | some (.call _) => true
      | _ => false := by
  split
  case h_1 h =>
    have class2 : w.opcode = 2 := Instruction.opcode_of_ofWord? h
    simp [isCall, class2]
  case h_2 other =>
    rw [Bool.eq_false_iff]
    intro h
    exact other w.nnn (ofWord?_of_isCall h)

theorem isReturn_eq (w : Word) :
    w.isReturn = match Instruction.ofWord? w with
      | some .ret => true
      | _ => false := by
  split
  case h_1 h =>
    have class0 : w.opcode = 0 := Instruction.opcode_of_ofWord? h
    simp [isReturn, class0, Instruction.nn_of_ofWord?_ret h]
  case h_2 other =>
    rw [Bool.eq_false_iff]
    intro h
    exact other (ofWord?_of_isReturn h)

theorem isReturn_eq_false_of_isCall {w : Word} (h : w.isCall = true) : w.isReturn = false := by
  rw [isReturn_eq, ofWord?_of_isCall h]

theorem isCall_eq_false_of_isReturn {w : Word} (h : w.isReturn = true) : w.isCall = false := by
  rw [isCall_eq, ofWord?_of_isReturn h]

theorem supported_of_isCall {w : Word} (h : w.isCall = true) : w.supported = true := by
  rw [supported, ofWord?_of_isCall h]
  rfl

theorem supported_of_isReturn {w : Word} (h : w.isReturn = true) : w.supported = true := by
  rw [supported, ofWord?_of_isReturn h]
  rfl

end Word

end Chip8
