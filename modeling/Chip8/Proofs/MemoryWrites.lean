import Chip8.Proofs.ReachableState
import Chip8.Proofs.InstructionTable

/-!
Which bytes of memory a program writes. Two words write memory, FX33 the three decimal digits of
a register and FX55 a block of registers, both from the index on and around the end of memory.
They write these bytes and no other, so a byte that differs after a run, be it of the font or of
the program, was written by one of the two on the way.
-/

namespace Chip8

namespace Memory

def SameOutside (memory after : Memory) (start count : Nat) : Prop :=
  ∀ a, (∀ k < count, (start + k) % 4096 ≠ a % 4096) → after.read a = memory.read a

theorem sameOutside_writeBlock (memory : Memory) (start : Nat) (bytes : List UInt8) :
    memory.SameOutside (memory.writeBlock start bytes) start bytes.length :=
  fun a outside => read_writeBlock_of_forall_ne memory start bytes a outside

end Memory

structure IsDecimal (value hundreds tens ones : UInt8) : Prop where
  hundreds_le : hundreds.toNat ≤ 9
  tens_le : tens.toNat ≤ 9
  ones_le : ones.toNat ≤ 9
  sum_eq : 100 * hundreds.toNat + 10 * tens.toNat + ones.toNat = value.toNat

theorem IsDecimal.unique {value hundreds tens ones hundreds' tens' ones' : UInt8}
    (digits : IsDecimal value hundreds tens ones)
    (digits' : IsDecimal value hundreds' tens' ones') :
    hundreds' = hundreds ∧ tens' = tens ∧ ones' = ones := by
  obtain ⟨a, b, c, sum⟩ := digits
  obtain ⟨a', b', c', sum'⟩ := digits'
  simp only [← UInt8.toNat_inj]
  omega

theorem isDecimal_digits (value : UInt8) :
    IsDecimal value (value / 100) (value / 10 % 10) (value % 10) := by
  have small := value.toNat_lt
  have hundreds : (value / 100).toNat = value.toNat / 100 := UInt8.toNat_div ..
  have tens : (value / 10 % 10).toNat = value.toNat / 10 % 10 := by
    rw [UInt8.toNat_mod, UInt8.toNat_div]
    rfl
  have ones : (value % 10).toNat = value.toNat % 10 := UInt8.toNat_mod ..
  constructor <;> omega

namespace Machine

open Instruction (Reads)

/-- Whether the word writes the byte at an address. -/
def overwrites (m : Machine) (w : Word) (a : Nat) : Prop :=
  (w.opcode = 0xF ∧ w.nn = 0x33 ∧ ∃ k < 3, (m.index.toNat + k) % 4096 = a % 4096) ∨
    (w.opcode = 0xF ∧ w.nn = 0x55 ∧ ∃ k ≤ w.x.val, (m.index.toNat + k) % 4096 = a % 4096)

variable {m : Machine} {w : Word} {i : Instruction}

theorem read_apply_decimal (m : Machine) (x : Register) :
    let next := m.apply (.decimal x)
    IsDecimal (m.v.get x) (next.memory.read m.index.toNat) (next.memory.read (m.index.toNat + 1))
      (next.memory.read (m.index.toNat + 2)) := by
  intro next
  have short : (decimalDigits (m.v.get x)).length ≤ 4096 := show 3 ≤ 4096 by decide
  have hundreds : next.memory.read m.index.toNat = m.v.get x / 100 :=
    Memory.read_writeBlock _ _ _ short 0 (show 0 < 3 by decide)
  have tens : next.memory.read (m.index.toNat + 1) = m.v.get x / 10 % 10 :=
    Memory.read_writeBlock _ _ _ short 1 (show 1 < 3 by decide)
  have ones : next.memory.read (m.index.toNat + 2) = m.v.get x % 10 :=
    Memory.read_writeBlock _ _ _ short 2 (show 2 < 3 by decide)
  rw [hundreds, tens, ones]
  exact isDecimal_digits _

theorem execute_decimal (class15 : w.opcode = 0xF) (low : w.nn = 0x33) (m : Machine)
    (strict : Bool) : m.execute w strict = .ok (m.apply (.decimal w.x)) :=
  execute_of_unchecked (Reads.decimal class15 low).ofWord? rfl

theorem execute_store (class15 : w.opcode = 0xF) (low : w.nn = 0x55) (m : Machine)
    (strict : Bool) : m.execute w strict = .ok (m.apply (.store w.x)) :=
  execute_of_unchecked (Reads.store class15 low).ofWord? rfl

theorem memory_perform_of_ne (other : ¬(w.opcode = 0xF ∧ (w.nn = 0x33 ∨ w.nn = 0x55))) :
    (m.perform (Instruction.ofWord? w)).memory = m.memory := by
  cases form : Instruction.ofWord? w with
  | none => rfl
  | some i =>
    rw [perform, apply_memory]
    cases Instruction.reads_of_ofWord? form with
    | decimal class15 low => exact absurd ⟨class15, .inl low⟩ other
    | store class15 low => exact absurd ⟨class15, .inr low⟩ other
    | _ => rfl

theorem read_perform_of_not_overwrites {a : Nat} (spared : ¬m.overwrites w a) :
    (m.perform (Instruction.ofWord? w)).memory.read a = m.memory.read a := by
  cases form : Instruction.ofWord? w with
  | none => rfl
  | some i =>
    rw [perform, apply_memory]
    cases Instruction.reads_of_ofWord? form with
    | decimal class15 low =>
      apply Memory.sameOutside_writeBlock
      intro k bound same
      exact spared (.inl ⟨class15, low, k, bound, same⟩)
    | store class15 low =>
      apply Memory.sameOutside_writeBlock
      intro k bound same
      rw [length_block] at bound
      exact spared (.inr ⟨class15, low, k, by omega, same⟩)
    | _ => rfl

theorem exists_overwrites_of_read_ne {strictness : List Bool} {a : Nat}
    (changed : (m.steps strictness).machine.memory.read a ≠ m.memory.read a) :
    ∃ now ∈ m.visited strictness, now.overwrites now.wordAtPc a := by
  apply Classical.byContradiction
  intro spared
  apply changed
  apply steps_invariant (P := fun now => now.memory.read a = m.memory.read a) rfl
  intro now visited same
  have untouched : ¬now.advance.overwrites now.wordAtPc a :=
    fun writes => spared ⟨now, visited, writes⟩
  exact (read_perform_of_not_overwrites untouched).trans same

theorem read_loaded_font {image : List UInt8} (fits : image.length ≤ 3584) {a : Nat}
    (glyph : a < Memory.font.length) :
    (Memory.initial.writeBlock Memory.programStart image).read a = Memory.font[a] := by
  have reserved : a < 80 := glyph
  rw [Memory.read_writeBlock_of_forall_ne]
  · have := Memory.read_writeBlock (Vector.replicate 4096 0) 0 Memory.font (by decide) a glyph
    rwa [Nat.zero_add] at this
  · intro k bound
    simp only [Memory.programStart]
    omega

/-- FX33 writes three bytes, the decimal digits of VX, and FX55 one byte for each register up to
VX; no other byte changes under these two and none at all under other words. So a byte of the font
or of a loaded program that differs later was written by one of the two. -/
theorem memory_footprint (m : Machine) :
    (∀ w strict, w.opcode = 0xF → w.nn = 0x33 →
      ∃ next, m.execute w strict = .ok next ∧
        IsDecimal (m.v.get w.x) (next.memory.read (m.index.toNat % 4096))
          (next.memory.read ((m.index.toNat + 1) % 4096))
          (next.memory.read ((m.index.toNat + 2) % 4096)) ∧
        m.memory.SameOutside next.memory m.index.toNat 3) ∧
    (∀ w strict, w.opcode = 0xF → w.nn = 0x55 →
      ∃ next, m.execute w strict = .ok next ∧
        (∀ k ≤ w.x, next.memory.read ((m.index.toNat + k.val) % 4096) = m.v.get k) ∧
        m.memory.SameOutside next.memory m.index.toNat (w.x.val + 1)) ∧
    (∀ w strict next, m.execute w strict = .ok next →
      ¬(w.opcode = 0xF ∧ (w.nn = 0x33 ∨ w.nn = 0x55)) → next.memory = m.memory) ∧
    ∀ random width height mode image, image.length ≤ 3584 →
      ∃ loaded, (create random width height mode).loadProgram image = .ok loaded ∧
        ∀ strictness,
          let last := (loaded.steps strictness).machine
          (∀ (a : Nat) (_ : a < Memory.font.length), last.memory.read a ≠ Memory.font[a] →
            ∃ now ∈ loaded.visited strictness, now.overwrites now.wordAtPc a) ∧
          ∀ (k : Nat) (_ : k < image.length), last.memory.read (0x200 + k) ≠ image[k] →
            ∃ now ∈ loaded.visited strictness, now.overwrites now.wordAtPc (0x200 + k) := by
  refine ⟨?_, ?_, ?_, ?_⟩
  · intro w strict class15 low
    refine ⟨_, execute_decimal class15 low m strict, ?_, ?_⟩
    · simp only [Memory.read_mod]
      exact m.read_apply_decimal w.x
    · exact m.memory.sameOutside_writeBlock _ _
  · intro w strict class15 low
    refine ⟨_, execute_store class15 low m strict, ?_, ?_⟩
    · intro k inside
      rw [Memory.read_mod, read_apply_store m inside]
    · have block := m.memory.sameOutside_writeBlock m.index.toNat (m.v.toList.take (w.x.val + 1))
      rwa [length_block] at block
  · intro w strict next done other
    rw [eq_perform_of_execute done]
    exact memory_perform_of_ne other
  · intro random width height mode image fits
    refine ⟨_, loadProgram_of_fits fits _, fun strictness => ⟨?_, ?_⟩⟩
    · intro a glyph differs
      apply exists_overwrites_of_read_ne
      intro same
      exact differs (same.trans (read_loaded_font fits glyph))
    · intro k inside differs
      apply exists_overwrites_of_read_ne
      intro same
      exact differs (same.trans (Memory.read_writeBlock _ _ _ (by omega) k inside))

/-- At the largest index the digits of 254 and the three bytes of a block go around the end of
memory into the font. A loaded program that stores V0 over the first byte of the font has done so
by the word F055. -/
theorem memory_footprint_around_the_end :
    let m := { (create ⟨0, 0⟩ 1 1 .legacy).setV 2 254 with index := 0xFFFF }
    let image : List UInt8 := [0xA0, 0x00, 0x60, 0x07, 0xF0, 0x55]
    (∃ next, m.execute ⟨0xF233⟩ false = .ok next ∧ next.memory.read 0xFFF = 2 ∧
      next.memory.read 0 = 5 ∧ next.memory.read 1 = 4 ∧ next.memory.read 2 = 0x90) ∧
      (∃ next, m.execute ⟨0xF255⟩ false = .ok next ∧ next.memory.read 1 = 254 ∧
        next.memory.read 2 = 0x90) ∧
      (∃ next, m.execute ⟨0xF265⟩ false = .ok next ∧ next.memory = m.memory) ∧
      ∃ loaded, (create ⟨0, 0⟩ 1 1 .legacy).loadProgram image = .ok loaded ∧
        (loaded.steps [true, true, true]).machine.memory.read 0 ≠ 0xF0 ∧
        ∃ now ∈ loaded.visited [true, true, true], now.overwrites now.wordAtPc 0 := by
  intro m image
  obtain ⟨decimal, store, others, loads⟩ := memory_footprint m
  have last : m.index.toNat % 4096 = 0xFFF := by decide
  have around : (m.index.toNat + 1) % 4096 = 0 := by decide
  have second : (m.index.toNat + 2) % 4096 = 1 := by decide
  have glyph : m.memory.read 2 = 0x90 := by decide +kernel
  refine ⟨?_, ?_, ?_, ?_⟩
  · obtain ⟨next, done, digits, spared⟩ := decimal ⟨0xF233⟩ false rfl rfl
    have known : IsDecimal 254 2 5 4 := ⟨by decide, by decide, by decide, by decide⟩
    obtain ⟨hundreds, tens, ones⟩ := known.unique digits
    rw [last] at hundreds
    rw [around] at tens
    rw [second] at ones
    exact ⟨next, done, hundreds, tens, ones, (spared 2 (by decide)).trans glyph⟩
  · obtain ⟨next, done, written, spared⟩ := store ⟨0xF255⟩ false rfl rfl
    have block : next.memory.read ((m.index.toNat + 2) % 4096) = 254 := written 2 (by decide)
    rw [second] at block
    exact ⟨next, done, block, (spared 2 (by decide)).trans glyph⟩
  · have done : m.execute ⟨0xF265⟩ false = .ok (m.apply (.load 2)) := rfl
    exact ⟨_, done, others _ _ _ done (by decide)⟩
  · obtain ⟨loaded, load, runs⟩ := loads ⟨0, 0⟩ 1 1 .legacy image (by decide)
    have changed : (loaded.steps [true, true, true]).machine.memory.read 0 ≠ 0xF0 := by
      cases load
      decide +kernel
    exact ⟨loaded, load, changed, (runs _).1 0 (by decide) changed⟩

end Machine

end Chip8
