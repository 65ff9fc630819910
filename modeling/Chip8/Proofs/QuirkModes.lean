import Chip8.Proofs.Lockstep

/-!
The two modes. They read five forms of words in two ways: the shifts, the jump with an offset and
the block transfers. Every other instruction has one effect in both, so a program without the five
goes the same way in both modes. Where the two readings of one of the five name the same operand
there is no difference either, and a block transfer leaves all but the index alike.
-/

namespace Chip8

namespace TableRow

/-- 8XY6 and 8XYE. -/
def shifts : List TableRow := [ofDigit 0x8 0x6, ofDigit 0x8 0xE]

/-- FX55 and FX65. -/
def blockTransfers : List TableRow := [ofByte 0xF 0x55, ofByte 0xF 0x65]

/-- The rows that the modes read in two ways: with the shifts and the block transfers, BNNN. -/
def quirks : List TableRow := shifts ++ [ofClass 0xB] ++ blockTransfers

end TableRow

namespace Word

theorem ofWord?_of_shift {w : Word} (h : w.among TableRow.shifts = true) :
    ∃ op : Alu, Instruction.ofWord? w = some (.alu op w.x w.y) := by
  have fields : w.opcode = 0x8 ∧ w.n = 0x6 ∨ w.opcode = 0x8 ∧ w.n = 0xE := by
    simpa [among, TableRow.shifts, TableRow.fits] using h
  rcases fields with ⟨class8, right⟩ | ⟨class8, left⟩
  · exact ⟨.shiftRight, (Instruction.Reads.alu class8 (by rw [right]; rfl)).ofWord?⟩
  · exact ⟨.shiftLeft, (Instruction.Reads.alu class8 (by rw [left]; rfl)).ofWord?⟩

theorem ofWord?_of_blockTransfer {w : Word} (h : w.among TableRow.blockTransfers = true) :
    ∃ i, Instruction.ofWord? w = some i ∧ (i = .store w.x ∨ i = .load w.x) := by
  have fields : w.opcode = 0xF ∧ w.nn = 0x55 ∨ w.opcode = 0xF ∧ w.nn = 0x65 := by
    simpa [among, TableRow.blockTransfers, TableRow.fits] using h
  rcases fields with ⟨class15, low⟩ | ⟨class15, low⟩
  · exact ⟨_, (Instruction.Reads.store class15 low).ofWord?, .inl rfl⟩
  · exact ⟨_, (Instruction.Reads.load class15 low).ofWord?, .inr rfl⟩

theorem x_eq_top_of_nnn (w : Word) : w.x = Fin.ofNat 16 (w.nnn.val / 256) := by
  apply Fin.ext
  simp only [x, nnn, Fin.val_ofNat]
  omega

end Word

theorem Alu.eval_self (op : Alu) (mode mode' : Mode) (vx vf : UInt8) :
    op.eval mode vx vx vf = op.eval mode' vx vx vf := by
  cases op <;> simp [eval]

namespace Machine

def inMode (m : Machine) (mode : Mode) : Machine := { m with mode := mode }

theorem apply_inMode {i : Instruction} (plain : i.row ∉ TableRow.quirks) (m : Machine)
    (mode : Mode) : (m.inMode mode).apply i = (m.apply i).inMode mode := by
  cases i with
  | skip condition =>
    rw [apply_skip, apply_skip]
    cases condition <;> rfl
  | waitKey x =>
    rw [apply_waitKey, apply_waitKey]
    rfl
  | alu op x y =>
    cases op with
    | shiftRight | shiftLeft =>
      exact absurd (by simp [Instruction.row, Alu.nibble, TableRow.quirks, TableRow.shifts]) plain
    | _ => rfl
  | jumpOffset base =>
    exact absurd (by simp [Instruction.row, Instruction.opcode, TableRow.quirks]) plain
  | store last | load last =>
    exact absurd (by simp [Instruction.row, TableRow.quirks, TableRow.blockTransfers]) plain
  | _ => rfl

theorem lockstep_inMode (mode : Mode) : Lockstep TableRow.quirks fun a b => b = a.inMode mode :=
  .of_commuting (by simp [TableRow.quirks, TableRow.shifts, TableRow.blockTransfers])
    (fun _ => rfl) (fun _ => rfl) (fun _ => rfl) (fun _ => rfl)
    fun m _ plain => apply_inMode plain m mode

def SameEffect (m : Machine) (w : Word) (strict : Bool) : Prop :=
  ∃ next, (m.inMode .modern).execute w strict = .ok next ∧
    (m.inMode .legacy).execute w strict = .ok (next.inMode .legacy)

theorem sameEffect_of_shift (m : Machine) {w : Word} (shift : w.among TableRow.shifts = true)
    (same : w.x = w.y) (strict : Bool) : m.SameEffect w strict := by
  obtain ⟨op, form⟩ := Word.ofWord?_of_shift shift
  refine ⟨(m.inMode .modern).apply (.alu op w.x w.y), execute_of_unchecked form rfl, ?_⟩
  rw [execute_of_unchecked form rfl, ← same]
  simp only [apply, inMode, Alu.eval_self op .legacy .modern]
  rfl

theorem sameEffect_of_jumpOffset (m : Machine) {w : Word} (class11 : w.opcode = 0xB)
    (same : m.v.get w.x = m.v.get 0) (strict : Bool) : m.SameEffect w strict := by
  have form := (Instruction.Reads.jumpOffset class11).ofWord?
  refine ⟨(m.inMode .modern).apply (.jumpOffset w.nnn), execute_of_unchecked form rfl, ?_⟩
  rw [execute_of_unchecked form rfl]
  rw [w.x_eq_top_of_nnn] at same
  simp only [apply, inMode, same]

theorem apply_blockTransfer {i : Instruction} {last : Register}
    (transfer : i = .store last ∨ i = .load last) (m : Machine) :
    (m.inMode .legacy).apply i =
      { ((m.inMode .modern).apply i).inMode .legacy with
        index := m.index + UInt16.ofNat (last.val + 1) } := by
  rcases transfer with rfl | rfl <;> simp only [apply, inMode, indexAfterBlock]

theorem execute_blockTransfer (m : Machine) {w : Word}
    (transfer : w.among TableRow.blockTransfers = true) (strict : Bool) :
    ∃ next, (m.inMode .modern).execute w strict = .ok next ∧ next.index = m.index ∧
      (m.inMode .legacy).execute w strict =
        .ok { next.inMode .legacy with index := m.index + UInt16.ofNat (w.x.val + 1) } := by
  obtain ⟨i, form, kind⟩ := Word.ofWord?_of_blockTransfer transfer
  have unchecked : ∀ m : Machine, m.check w i = .ok () := by
    intro m
    rcases kind with rfl | rfl <;> rfl
  have kept : ((m.inMode .modern).apply i).index = m.index := by
    rcases kind with rfl | rfl <;> exact apply_index ..
  refine ⟨_, execute_of_unchecked form (unchecked _), kept, ?_⟩
  rw [execute_of_unchecked form (unchecked _), apply_blockTransfer kind]

/-- A program that uses none of the five quirks runs in legacy mode as it does in modern mode. Of
the five, a shift of a register by itself and a jump by a register that equals V0 also have one
effect, and the block transfers differ in the index alone. -/
theorem modes_differ_only_at_quirks (m : Machine) :
    (∀ strictness : List Bool,
      let modern := (m.inMode .modern).steps strictness
      (∀ w ∈ modern.words, w.among TableRow.quirks = false) →
        (m.inMode .legacy).steps strictness =
          ⟨modern.words, modern.machine.inMode .legacy, modern.fault⟩) ∧
    (∀ w strict, w.among TableRow.shifts = true → w.x = w.y → m.SameEffect w strict) ∧
    (∀ w strict, w.opcode = 0xB → m.v.get w.x = m.v.get 0 → m.SameEffect w strict) ∧
    ∀ w strict, w.among TableRow.blockTransfers = true →
      ∃ next, (m.inMode .modern).execute w strict = .ok next ∧ next.index = m.index ∧
        (m.inMode .legacy).execute w strict =
          .ok { next.inMode .legacy with index := m.index + UInt16.ofNat (w.x.val + 1) } := by
  refine ⟨?_, ?_, ?_, ?_⟩
  · intro strictness modern plain
    obtain ⟨words, fault, machine⟩ :=
      (lockstep_inMode .legacy).steps (a := m.inMode .modern) rfl strictness plain
    rw [← words, ← fault, ← machine]
    rfl
  · intro w strict shift same
    exact m.sameEffect_of_shift shift same strict
  · intro w strict class11 same
    exact m.sameEffect_of_jumpOffset class11 same strict
  · intro w strict transfer
    exact m.execute_blockTransfer transfer strict

/-- A run that moves the index, adds and draws, up to a word that is refused when strict; and from
the same machine a shift of V1 by itself, a jump by V3, which is V0 there, and a store. -/
theorem modes_differ_only_at_quirks_up_to_a_fault :
    let memory := Memory.writeBlock (Vector.replicate 4096 0) 0
      [0xA0, 0x02, 0x61, 0xF1, 0x81, 0x14, 0xD1, 0x12, 0x81, 0x28]
    let m := { create ⟨0, 0⟩ 16 4 .modern with memory := memory, pc := 0 }
    let modern := (m.inMode .modern).steps [true, true, false, true, true]
    modern.words = [⟨0xA002⟩, ⟨0x61F1⟩, ⟨0x8114⟩, ⟨0xD112⟩] ∧
      modern.fault = some (.unsupported 10 ⟨0x8128⟩) ∧
      (m.inMode .legacy).steps [true, true, false, true, true] =
        ⟨modern.words, modern.machine.inMode .legacy, modern.fault⟩ ∧
      m.SameEffect ⟨0x811E⟩ true ∧ m.SameEffect ⟨0xB312⟩ true ∧
      ∃ next, (m.inMode .modern).execute ⟨0xF255⟩ true = .ok next ∧ next.index = 0 ∧
        (m.inMode .legacy).execute ⟨0xF255⟩ true =
          .ok { next.inMode .legacy with index := 0 + UInt16.ofNat 3 } := by
  intro memory m modern
  have words : modern.words = [⟨0xA002⟩, ⟨0x61F1⟩, ⟨0x8114⟩, ⟨0xD112⟩] := by decide +kernel
  have fault : modern.fault = some (.unsupported 10 ⟨0x8128⟩) := by decide +kernel
  have plain : ∀ w ∈ modern.words, w.among TableRow.quirks = false := by
    rw [words]
    decide
  obtain ⟨run, shift, jump, transfer⟩ := modes_differ_only_at_quirks m
  exact ⟨words, fault, run _ plain, shift ⟨0x811E⟩ true (by decide) (by decide),
    jump ⟨0xB312⟩ true (by decide) (by decide), transfer ⟨0xF255⟩ true (by decide)⟩

end Machine

end Chip8
