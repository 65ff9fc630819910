import Chip8.Proofs.InstructionTable
import Chip8.Proofs.OperationTrace

/-!
Two machines that go in step. A relation between machines with one memory, one program counter and
one stack is enough for both to meet the same word or the same fault, so if every instruction
outside some rows of the table keeps the relation, then so does a run that meets no word of these.
-/

namespace Chip8.Machine

structure Lockstep (rows : List TableRow) (R : Machine → Machine → Prop) : Prop where
  wide : ∀ code, .word code ∉ rows
  memory : ∀ {a b}, R a b → a.memory = b.memory
  pc : ∀ {a b}, R a b → a.pc = b.pc
  stack : ∀ {a b}, R a b → a.stack = b.stack
  advance : ∀ {a b}, R a b → R a.advance b.advance
  apply : ∀ {a b i}, R a b → i.row ∉ rows → R (a.apply i) (b.apply i)

namespace Lockstep

variable {rows : List TableRow} {R : Machine → Machine → Prop} {a b : Machine}

/-- A change of the machine that instructions outside the rows commute with. -/
theorem of_commuting {f : Machine → Machine} (wide : ∀ code, .word code ∉ rows)
    (memory : ∀ m, (f m).memory = m.memory) (pc : ∀ m, (f m).pc = m.pc)
    (stack : ∀ m, (f m).stack = m.stack) (advance : ∀ m, (f m).advance = f m.advance)
    (apply : ∀ m i, i.row ∉ rows → (f m).apply i = f (m.apply i)) :
    Lockstep rows fun a b => b = f a where
  wide := wide
  memory := by
    rintro a _ rfl
    exact (memory a).symm
  pc := by
    rintro a _ rfl
    exact (pc a).symm
  stack := by
    rintro a _ rfl
    exact (stack a).symm
  advance := by
    rintro a _ rfl
    exact advance a
  apply := by
    rintro a _ i rfl outside
    exact apply a i outside

theorem wordAtPc (h : Lockstep rows R) (related : R a b) : a.wordAtPc = b.wordAtPc := by
  rw [Machine.wordAtPc, Machine.wordAtPc, h.memory related, h.pc related]

theorem obstacle? (h : Lockstep rows R) (related : R a b) (strict : Bool) :
    a.obstacle? strict = b.obstacle? strict :=
  obstacle?_congr (h.memory related) (h.pc related) (h.stack related) strict

theorem successor (h : Lockstep rows R) (related : R a b)
    (outside : a.wordAtPc.among rows = false) : R a.successor b.successor := by
  rw [Machine.successor, Machine.successor, ← h.wordAtPc related]
  cases form : Instruction.ofWord? a.wordAtPc with
  | none => exact h.advance related
  | some i =>
    exact h.apply (h.advance related) (Word.row_notMem_of_not_among form h.wide outside)

theorem steps (h : Lockstep rows R) (related : R a b) (strictness : List Bool)
    (outside : ∀ w ∈ (a.steps strictness).words, w.among rows = false) :
    (b.steps strictness).words = (a.steps strictness).words ∧
      (b.steps strictness).fault = (a.steps strictness).fault ∧
      R (a.steps strictness).machine (b.steps strictness).machine := by
  induction strictness generalizing a b with
  | nil => exact ⟨rfl, rfl, related⟩
  | cons strict rest ih =>
    rw [steps_cons] at outside
    rw [steps_cons, steps_cons, ← h.obstacle? related, ← h.wordAtPc related]
    cases blocked : a.obstacle? strict with
    | some fault => exact ⟨rfl, rfl, related⟩
    | none =>
      rw [blocked] at outside
      obtain ⟨now, later⟩ := List.forall_mem_cons.mp outside
      obtain ⟨words, fault, machine⟩ := ih (h.successor related now) later
      exact ⟨congrArg (a.wordAtPc :: ·) words, fault, machine⟩

end Lockstep

end Chip8.Machine
