import Chip8.Proofs.ComponentEffects
import Chip8.Proofs.WordForms

/-!
One step as a choice between a fault and a successor. The fault is read off the program counter,
the word there and the depth of the call stack, before anything is carried out; the successor is
the machine past that word with its instruction applied. Strictness decides only whether a word
outside the table counts as a fault.
-/

namespace Chip8

theorem toNat_add_two (a : UInt16) : (a + 2).toNat = (a.toNat + 2) % 65536 := by
  rw [UInt16.toNat_add]
  rfl

theorem toNat_sub_two {a : UInt16} (h : 2 ≤ a.toNat) : (a - 2).toNat = a.toNat - 2 :=
  UInt16.toNat_sub_of_le a 2 (UInt16.le_iff_toNat_le.mpr h)

namespace Machine

theorem canFetch_iff (m : Machine) : m.canFetch = true ↔ m.pc.toNat < 0xFFF := by
  rw [canFetch, decide_eq_true_iff]
  change m.pc.toNat + 1 < 4096 ↔ m.pc.toNat < 4095
  omega

theorem pc_le_of_canFetch {m : Machine} (h : m.canFetch = true) : m.pc.toNat ≤ 0xFFE := by
  have below := m.canFetch_iff.mp h
  omega

/-- What stops the next step. -/
def obstacle? (m : Machine) (strict : Bool) : Option Fault :=
  if !m.canFetch then some (.outsideMemory m.pc)
  else if m.wordAtPc.isCall ∧ 12 ≤ m.stack.depth then
    some (.stackOverflow (m.pc + 2) (some m.wordAtPc))
  else if m.wordAtPc.isReturn ∧ m.stack.depth ≤ 0 then
    some (.stackUnderflow (m.pc + 2) (some m.wordAtPc))
  else if strict ∧ m.wordAtPc.supported = false then some (.unsupported (m.pc + 2) m.wordAtPc)
  else none

/-- The machine after the next step when nothing stops it. -/
def successor (m : Machine) : Machine := m.advance.perform (Instruction.ofWord? m.wordAtPc)

theorem step_of_canFetch {m : Machine} (inside : m.canFetch = true) (strict : Bool) :
    m.step strict = (m.advance.execute m.wordAtPc strict).map (·, m.wordAtPc) := by
  have fetched : m.fetch = .ok (m.advance, m.wordAtPc) := by simp [fetch, inside]
  rw [step, fetched]
  rfl

theorem step_eq (m : Machine) (strict : Bool) :
    m.step strict = match m.obstacle? strict with
      | some fault => .error fault
      | none => .ok (m.successor, m.wordAtPc) := by
  cases inside : m.canFetch with
  | false =>
    simp [step, fetch, obstacle?, inside]
    rfl
  | true =>
    rw [step_of_canFetch inside, execute, successor, obstacle?, inside]
    have call := m.wordAtPc.isCall_eq
    have ret := m.wordAtPc.isReturn_eq
    have supported : m.wordAtPc.supported = (Instruction.ofWord? m.wordAtPc).isSome := rfl
    cases h : Instruction.ofWord? m.wordAtPc with
    | none =>
      rw [h] at call ret supported
      cases strict <;> simp [call, ret, supported, Except.map, perform, advance]
    | some i =>
      rw [h] at call ret supported
      cases i with
      | call target =>
        have checked : m.advance.check m.wordAtPc (.call target) =
            m.stack.checkPush (m.pc + 2) (some m.wordAtPc) := rfl
        by_cases full : 12 ≤ m.stack.depth <;>
          simp [call, ret, supported, checked, CallStack.checkPush, full, Except.map, perform]
      | ret =>
        have checked : m.advance.check m.wordAtPc .ret =
            m.stack.checkPop (m.pc + 2) (some m.wordAtPc) := rfl
        by_cases empty : m.stack.depth ≤ 0 <;>
          simp [call, ret, supported, checked, CallStack.checkPop, empty, Except.map, perform]
      | _ =>
        simp [call, ret, supported]
        rfl

theorem step_eq_ok_iff {m next : Machine} {strict : Bool} {w : Word} :
    m.step strict = .ok (next, w) ↔
      m.obstacle? strict = none ∧ next = m.successor ∧ w = m.wordAtPc := by
  rw [step_eq]
  cases m.obstacle? strict with
  | none => simp [eq_comm]
  | some fault => simp

theorem step_eq_error_iff {m : Machine} {strict : Bool} {fault : Fault} :
    m.step strict = .error fault ↔ m.obstacle? strict = some fault := by
  rw [step_eq]
  cases m.obstacle? strict <;> simp

theorem obstacle?_eq_none_iff (m : Machine) (strict : Bool) :
    m.obstacle? strict = none ↔
      m.canFetch = true ∧ (m.wordAtPc.isCall = true → m.stack.depth < 12) ∧
        (m.wordAtPc.isReturn = true → 0 < m.stack.depth) ∧
        (strict = true → m.wordAtPc.supported = true) := by
  unfold obstacle?
  cases m.canFetch <;> grind

theorem successor_cases (m : Machine) :
    (Instruction.ofWord? m.wordAtPc = none ∧ m.successor = m.advance) ∨
      ∃ i, Instruction.ofWord? m.wordAtPc = some i ∧ m.successor = m.advance.apply i := by
  unfold successor
  cases Instruction.ofWord? m.wordAtPc with
  | none => exact .inl ⟨rfl, rfl⟩
  | some i => exact .inr ⟨i, rfl, rfl⟩

theorem successor_of_isCall {m : Machine} (h : m.wordAtPc.isCall = true) :
    m.successor = m.advance.apply (.call m.wordAtPc.nnn) := by
  rw [successor, Word.ofWord?_of_isCall h, perform]

theorem successor_of_isReturn {m : Machine} (h : m.wordAtPc.isReturn = true) :
    m.successor = m.advance.apply .ret := by
  rw [successor, Word.ofWord?_of_isReturn h, perform]

theorem obstacle?_congr {a b : Machine} (memory : a.memory = b.memory) (pc : a.pc = b.pc)
    (stack : a.stack = b.stack) (strict : Bool) : a.obstacle? strict = b.obstacle? strict := by
  have inside : a.canFetch = b.canFetch := by rw [canFetch, canFetch, pc]
  have word : a.wordAtPc = b.wordAtPc := by rw [wordAtPc, wordAtPc, memory, pc]
  rw [obstacle?, obstacle?, inside, word, pc, stack]

theorem successor_stack_cases (m : Machine) :
    (m.wordAtPc.isCall = true ∧ m.successor.stack = m.stack.push (m.pc + 2)) ∨
      (m.wordAtPc.isReturn = true ∧ m.successor.stack = m.stack.pop) ∨
      (m.wordAtPc.isCall = false ∧ m.wordAtPc.isReturn = false ∧ m.successor.stack = m.stack) := by
  rw [Word.isCall_eq, Word.isReturn_eq]
  rcases m.successor_cases with ⟨h, same⟩ | ⟨i, h, applied⟩
  · rw [h, same]
    exact .inr (.inr ⟨rfl, rfl, rfl⟩)
  · rw [h, applied, apply_stack]
    cases i with
    | call target => exact .inl ⟨rfl, rfl⟩
    | ret => exact .inr (.inl ⟨rfl, rfl⟩)
    | _ => exact .inr (.inr ⟨rfl, rfl, rfl⟩)

end Machine

end Chip8
