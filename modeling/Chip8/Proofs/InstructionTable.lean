import Chip8.Execution
import Chip8.Proofs.WordForms

/-!
The instruction table row by row, and the words outside it. A row fixes the class of its words
and, where it matters, the last digit or the low byte; only the two rows of class 0 are single
words. Every instruction has a row, which its words fit. The machine looks at the low byte of a
word of class 0 and not at its second digit, so it also carries out the strays: the words of class
0 that end in E0 or EE without being 00E0 or 00EE. All other words outside the table do nothing,
or are refused when strict.
-/

namespace Chip8

inductive TableRow where
  | word (code : Nat)
  | ofClass (opcode : Fin 16)
  | ofDigit (opcode n : Fin 16)
  | ofByte (opcode : Fin 16) (nn : UInt8)
  deriving DecidableEq, Repr

namespace TableRow

def fits (w : Word) : TableRow → Bool
  | word code => w.code = code
  | ofClass opcode => w.opcode = opcode
  | ofDigit opcode n => w.opcode = opcode && w.n = n
  | ofByte opcode nn => w.opcode = opcode && w.nn = nn

def all : List TableRow :=
  [word 0x00E0, word 0x00EE, ofClass 0x1, ofClass 0x2, ofClass 0x3, ofClass 0x4, ofDigit 0x5 0x0,
    ofClass 0x6, ofClass 0x7,
    ofDigit 0x8 0x0, ofDigit 0x8 0x1, ofDigit 0x8 0x2, ofDigit 0x8 0x3, ofDigit 0x8 0x4,
    ofDigit 0x8 0x5, ofDigit 0x8 0x6, ofDigit 0x8 0x7, ofDigit 0x8 0xE,
    ofDigit 0x9 0x0, ofClass 0xA, ofClass 0xB, ofClass 0xC, ofClass 0xD,
    ofByte 0xE 0x9E, ofByte 0xE 0xA1,
    ofByte 0xF 0x07, ofByte 0xF 0x0A, ofByte 0xF 0x15, ofByte 0xF 0x18, ofByte 0xF 0x1E,
    ofByte 0xF 0x29, ofByte 0xF 0x33, ofByte 0xF 0x55, ofByte 0xF 0x65]

end TableRow

def Alu.nibble : Alu → Fin 16
  | copy => 0x0
  | or => 0x1
  | and => 0x2
  | xor => 0x3
  | add => 0x4
  | sub => 0x5
  | shiftRight => 0x6
  | subFrom => 0x7
  | shiftLeft => 0xE

theorem Alu.nibble_of_ofNibble? {n : Fin 16} {op : Alu} (h : ofNibble? n = some op) :
    op.nibble = n := by
  revert n op
  decide

namespace Instruction

open TableRow in
def row : Instruction → TableRow
  | clearScreen => word 0x00E0
  | ret => word 0x00EE
  | skip (.is ..) => ofClass 0x3
  | skip (.isNot ..) => ofClass 0x4
  | skip (.same ..) => ofDigit 0x5 0x0
  | alu op .. => ofDigit 0x8 op.nibble
  | skip (.differ ..) => ofDigit 0x9 0x0
  | skip (.keyDown _) => ofByte 0xE 0x9E
  | skip (.keyUp _) => ofByte 0xE 0xA1
  | readDelay _ => ofByte 0xF 0x07
  | waitKey _ => ofByte 0xF 0x0A
  | setDelay _ => ofByte 0xF 0x15
  | setSound _ => ofByte 0xF 0x18
  | addIndex _ => ofByte 0xF 0x1E
  | glyph _ => ofByte 0xF 0x29
  | decimal _ => ofByte 0xF 0x33
  | store _ => ofByte 0xF 0x55
  | load _ => ofByte 0xF 0x65
  | other => ofClass other.opcode

theorem fits_row {w : Word} {i : Instruction} (h : ofWord? w = some i)
    (clear : i ≠ .clearScreen) (ret : i ≠ .ret) : i.row.fits w = true := by
  cases reads_of_ofWord? h with
  | clearScreen | ret => contradiction
  | alu class8 named =>
    simp [row, TableRow.fits, class8, Alu.nibble_of_ofNibble? named]
  | _ => simp [row, TableRow.fits, opcode, *]

theorem isSome_system? (w : Word) : (system? w).isSome = (w.nn = 0xE0 || w.nn = 0xEE) := by
  simp only [← UInt8.toNat_inj]
  unfold system?
  split <;> simp_all

theorem isSome_arithmetic? (w : Word) :
    (arithmetic? w).isSome = [0x0, 0x1, 0x2, 0x3, 0x4, 0x5, 0x6, 0x7, 0xE].contains w.n := by
  rw [arithmetic?, Option.isSome_map]
  generalize w.n = n
  revert n
  decide

theorem isSome_keySkip? (w : Word) : (keySkip? w).isSome = (w.nn = 0x9E || w.nn = 0xA1) := by
  simp only [← UInt8.toNat_inj]
  unfold keySkip?
  split <;> simp_all

theorem isSome_miscellaneous? (w : Word) :
    (miscellaneous? w).isSome =
      [0x07, 0x0A, 0x15, 0x18, 0x1E, 0x29, 0x33, 0x55, 0x65].contains w.nn := by
  simp only [List.contains_eq_mem, List.mem_cons, List.not_mem_nil, ← UInt8.toNat_inj]
  unfold miscellaneous?
  split <;> simp_all

end Instruction

namespace Word

open TableRow (fits)

def among (rows : List TableRow) (w : Word) : Bool := rows.any (fits w)

def tabled (w : Word) : Bool := w.among TableRow.all

def stray (w : Word) : Bool := w.opcode = 0 && w.x ≠ 0 && (w.nn = 0xE0 || w.nn = 0xEE)

/-- Rows that do not name the single words of class 0 take in every word of their instructions. -/
theorem row_notMem_of_not_among {rows : List TableRow} {w : Word} {i : Instruction}
    (h : Instruction.ofWord? w = some i) (wide : ∀ code, .word code ∉ rows)
    (outside : w.among rows = false) : i.row ∉ rows := by
  intro listed
  have fits : i.row.fits w = true := by
    apply i.fits_row h
    · rintro rfl
      exact wide _ listed
    · rintro rfl
      exact wide _ listed
  have inside : w.among rows = true := List.any_eq_true.mpr ⟨i.row, listed, fits⟩
  rw [outside] at inside
  cases inside

theorem code_eq_iff (w : Word) (nn : UInt8) :
    w.code = nn.toNat ↔ w.opcode = 0 ∧ w.x = 0 ∧ w.nn = nn := by
  have word := w.code_lt
  have byte := nn.toNat_lt
  simp only [opcode, x, Word.nn, Fin.ext_iff, Fin.val_ofNat, ← UInt8.toNat_inj,
    UInt8.toNat_ofNat']
  omega

theorem supported_eq (w : Word) : w.supported = (w.tabled || w.stray) := by
  have clear : w.code = 0xE0 ↔ w.opcode = 0 ∧ w.x = 0 ∧ w.nn = 0xE0 := w.code_eq_iff 0xE0
  have ret : w.code = 0xEE ↔ w.opcode = 0 ∧ w.x = 0 ∧ w.nn = 0xEE := w.code_eq_iff 0xEE
  have named (k : Nat) (c : w.opcode.val = k) : w.opcode = ⟨k, c ▸ w.opcode.isLt⟩ := Fin.ext c
  rw [supported, Instruction.ofWord?]
  split
  case h_1 c =>
    simp [tabled, among, TableRow.all, fits, stray, named _ c, Instruction.isSome_system?, clear,
      ret]
    grind
  case h_6 c | h_10 c =>
    by_cases last : w.n = 0 <;>
      simp [tabled, among, TableRow.all, fits, stray, named _ c, clear, ret, last]
  case h_9 c =>
    simp [tabled, among, TableRow.all, fits, stray, named _ c, Instruction.isSome_arithmetic?,
      clear, ret]
  case h_15 c =>
    simp [tabled, among, TableRow.all, fits, stray, named _ c, Instruction.isSome_keySkip?, clear,
      ret]
  case h_16 =>
    -- the last row of the table is reached with every smaller class excluded
    have c : w.opcode.val = 15 := by
      have bound := w.opcode.isLt
      grind
    simp [tabled, among, TableRow.all, fits, stray, named _ c, Instruction.isSome_miscellaneous?,
      clear, ret]
  all_goals
    rename_i c
    simp [tabled, among, TableRow.all, fits, named _ c]

theorem ofWord?_of_not_tabled {w : Word} (outside : w.tabled = false)
    (clear : ¬(w.opcode = 0 ∧ w.nn = 0xE0)) (ret : ¬(w.opcode = 0 ∧ w.nn = 0xEE)) :
    Instruction.ofWord? w = none := by
  have strayless : w.stray = false := by
    simp only [stray]
    grind
  have unknown : w.supported = false := by rw [supported_eq, outside, strayless]; rfl
  simpa [supported] using unknown

end Word

namespace Machine

theorem execute_of_unchecked {m : Machine} {w : Word} {i : Instruction} {strict : Bool}
    (form : Instruction.ofWord? w = some i) (unchecked : m.check w i = .ok ()) :
    m.execute w strict = .ok (m.apply i) := by
  rw [execute, form]
  simp [unchecked, Except.map]

theorem eq_perform_of_execute {m next : Machine} {w : Word} {strict : Bool}
    (done : m.execute w strict = .ok next) : next = m.perform (Instruction.ofWord? w) := by
  rw [execute] at done
  cases form : Instruction.ofWord? w with
  | none =>
    cases strict with
    | true => simp [form] at done
    | false => simpa [form, perform, eq_comm] using done
  | some i =>
    rw [form] at done
    cases checked : m.check w i with
    | error fault => simp [checked, Except.map] at done
    | ok => simpa [checked, Except.map, perform, eq_comm] using done

theorem execute_clear {w : Word} (class0 : w.opcode = 0) (low : w.nn = 0xE0) (m : Machine)
    (strict : Bool) : m.execute w strict = .ok { m with screen := m.screen.clear } := by
  rw [execute, (Instruction.Reads.clearScreen class0 low).ofWord?]
  rfl

theorem execute_return {w : Word} (class0 : w.opcode = 0) (low : w.nn = 0xEE) (m : Machine)
    (strict : Bool) :
    m.execute w strict = if m.stack.depth ≤ 0 then .error (.stackUnderflow m.pc (some w))
      else .ok { m with stack := m.stack.pop, pc := m.stack.top } := by
  have ret : w.isReturn = true := by simp [Word.isReturn, class0, low]
  have checked : m.check w .ret = m.stack.checkPop m.pc (some w) := rfl
  rw [execute, Word.ofWord?_of_isReturn ret]
  by_cases empty : m.stack.depth ≤ 0
  · simp [checked, CallStack.checkPop, empty, Except.map]
  · simp [checked, CallStack.checkPop, empty, Except.map, apply]

/-- A word outside the table does nothing, or is a fault when strict, unless it is a stray: one
that ends in E0 clears the screen as 00E0 does, one that ends in EE returns as 00EE does. -/
theorem execute_of_not_tabled (m : Machine) {w : Word} (outside : w.tabled = false)
    (strict : Bool) :
    m.execute w strict =
      if w.opcode = 0 ∧ w.nn = 0xE0 then .ok { m with screen := m.screen.clear }
      else if w.opcode = 0 ∧ w.nn = 0xEE then
        if m.stack.depth ≤ 0 then .error (.stackUnderflow m.pc (some w))
        else .ok { m with stack := m.stack.pop, pc := m.stack.top }
      else if strict then .error (.unsupported m.pc w)
      else .ok m := by
  by_cases clear : w.opcode = 0 ∧ w.nn = 0xE0
  · rw [if_pos clear, execute_clear clear.1 clear.2]
  by_cases ret : w.opcode = 0 ∧ w.nn = 0xEE
  · rw [if_neg clear, if_pos ret, execute_return ret.1 ret.2]
  · rw [if_neg clear, if_neg ret, execute, Word.ofWord?_of_not_tabled outside clear ret]

theorem execute_of_not_tabled_four_words :
    let m := create ⟨0, 0⟩ 2 2 .legacy
    ([⟨0x0123⟩, ⟨0x8128⟩, ⟨0x01E0⟩, ⟨0x0FEE⟩] : List Word).all (·.tabled = false) ∧
      m.execute ⟨0x0123⟩ false = .ok m ∧
      m.execute ⟨0x8128⟩ true = .error (.unsupported 0x200 ⟨0x8128⟩) ∧
      m.execute ⟨0x01E0⟩ true = .ok { m with screen := m.screen.clear } ∧
      m.execute ⟨0x0FEE⟩ false = .error (.stackUnderflow 0x200 (some ⟨0x0FEE⟩)) := by
  intro m
  exact ⟨by decide, execute_of_not_tabled m (by decide) false,
    execute_of_not_tabled m (by decide) true, execute_of_not_tabled m (by decide) true,
    execute_of_not_tabled m (by decide) false⟩

/-- Two machine code calls outside the table: one clears a lit pixel, also when strict, and one
takes a return address off the stack. -/
theorem stray_words_act :
    let m := { create ⟨0, 0⟩ 2 2 .modern with
      screen := (Framebuffer.blank 2 2).light 1 1
      stack := CallStack.ofList [0x300] }
    (⟨0x01E0⟩ : Word).tabled = false ∧ (⟨0x0FEE⟩ : Word).tabled = false ∧
      m.execute ⟨0x01E0⟩ false ≠ .ok m ∧
      m.execute ⟨0x01E0⟩ true ≠ .error (.unsupported m.pc ⟨0x01E0⟩) ∧
      m.execute ⟨0x0FEE⟩ false ≠ .ok m := by
  intro m
  have clears := execute_clear (w := ⟨0x01E0⟩) (by decide) (by decide) m
  have returns := execute_return (w := ⟨0x0FEE⟩) (by decide) (by decide) m false
  refine ⟨by decide, by decide, ?_, ?_, ?_⟩
  · intro same
    have pixel := congrArg (·.screen.lit 1 1) (Except.ok.inj ((clears false).symm.trans same))
    revert pixel
    decide
  · simp [clears true]
  · intro same
    have popped : { m with stack := m.stack.pop, pc := m.stack.top } = m :=
      Except.ok.inj (returns.symm.trans same)
    have depth := congrArg (·.stack.depth) popped
    revert depth
    decide

end Machine

end Chip8
