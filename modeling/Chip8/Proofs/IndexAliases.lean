import Chip8.Proofs.Lockstep

/-!
The index as the name of a place in memory. It has sixteen bits and a place twelve, so every place
has sixteen names. The words that use memory go by the place alone, so that a machine given
another name for the same place goes the same way, until FX1E tells the names apart: its sum is
the same place again, but the flag is read off the name.
-/

namespace Chip8

def TableRow.indexSum : List TableRow := [ofByte 0xF 0x1E]

namespace Memory

theorem readBlock_congr {start start' : Nat} (same : start % 4096 = start' % 4096)
    (memory : Memory) (count : Nat) :
    memory.readBlock start count = memory.readBlock start' count := by
  rw [readBlock, readBlock]
  congr 1
  funext k
  exact read_congr (by omega) memory

end Memory

namespace Machine

def withIndex (m : Machine) (index : UInt16) : Machine := { m with index := index }

/-- The same machine, but for another name of the place that the index names. -/
def Aliases (a b : Machine) : Prop :=
  ∃ index : UInt16, index.toNat % 4096 = a.index.toNat % 4096 ∧ b = a.withIndex index

variable {m a b : Machine} {index : UInt16}

theorem apply_withIndex (place : index.toNat % 4096 = m.index.toNat % 4096) {i : Instruction}
    (plain : i.row ∉ TableRow.indexSum) :
    (m.withIndex index).apply i =
      (m.apply i).withIndex ((m.withIndex index).apply i).index := by
  cases i with
  | skip condition =>
    rw [apply_skip, apply_skip]
    cases condition <;> rfl
  | waitKey x =>
    rw [apply_waitKey, apply_waitKey]
    rfl
  | addIndex x => exact absurd (by simp [Instruction.row, TableRow.indexSum]) plain
  | draw x y height =>
    have rows : (m.withIndex index).sprite height.val = m.sprite height.val :=
      Memory.readBlock_congr place m.memory height.val
    simp only [apply, rows]
    rfl
  | decimal x | store last =>
    simp only [apply, withIndex, Memory.writeBlock_congr place]
  | load last =>
    have byte (k : Nat) :
        m.memory.read (index.toNat + k) = m.memory.read (m.index.toNat + k) :=
      Memory.read_congr (by omega) m.memory
    simp only [apply_load, withIndex, byte]
  | _ => rfl

/-- Past a block the names still agree: the size of memory divides 65536. -/
theorem place_indexAfterBlock (place : index.toNat % 4096 = m.index.toNat % 4096)
    (last : Register) :
    ((m.withIndex index).indexAfterBlock last).toNat % 4096 =
      (m.indexAfterBlock last).toNat % 4096 := by
  have mode : (m.withIndex index).mode = m.mode := rfl
  rw [indexAfterBlock, indexAfterBlock, mode]
  cases m.mode with
  | modern => exact place
  | legacy =>
    have sum : (index.toNat + (UInt16.ofNat (last.val + 1)).toNat) % 4096 =
        (m.index.toNat + (UInt16.ofNat (last.val + 1)).toNat) % 4096 := by omega
    simp only [withIndex, UInt16.toNat_add]
    omega

theorem Aliases.apply (same : Aliases a b) {i : Instruction} (plain : i.row ∉ TableRow.indexSum) :
    Aliases (a.apply i) (b.apply i) := by
  obtain ⟨index, place, rfl⟩ := same
  refine ⟨_, ?_, apply_withIndex place plain⟩
  rw [apply_index, apply_index]
  cases i with
  | addIndex x => exact absurd (by simp [Instruction.row, TableRow.indexSum]) plain
  | store last | load last => exact place_indexAfterBlock place last
  | setIndex target | glyph x => rfl
  | _ => exact place

theorem Aliases.advance (same : Aliases a b) : Aliases a.advance b.advance := by
  obtain ⟨index, place, rfl⟩ := same
  exact ⟨index, place, rfl⟩

theorem lockstep_aliases : Lockstep TableRow.indexSum Aliases where
  wide := by simp [TableRow.indexSum]
  memory := by
    rintro a _ ⟨index, place, rfl⟩
    rfl
  pc := by
    rintro a _ ⟨index, place, rfl⟩
    rfl
  stack := by
    rintro a _ ⟨index, place, rfl⟩
    rfl
  advance same := same.advance
  apply same plain := same.apply plain

/-- The results of two sums differ in VF at most, and have one index, which is a place. -/
structure SumsAlike (a b : Machine) : Prop where
  same : b = a.setV 15 (b.v.get 15)
  index_eq : b.index = a.index
  index_le : a.index.toNat ≤ 0xFFF

theorem Aliases.apply_addIndex (same : Aliases a b) (x : Register) :
    SumsAlike (a.apply (.addIndex x)) (b.apply (.addIndex x)) := by
  obtain ⟨index, place, rfl⟩ := same
  have sum : (index.toNat + (a.v.get x).toNat) % 4096 =
      (a.index.toNat + (a.v.get x).toNat) % 4096 := by omega
  refine ⟨?_, congrArg UInt16.ofNat sum, ?_⟩
  · have flag : ((a.withIndex index).apply (.addIndex x)).v.get 15 =
        if index.toNat + (a.v.get x).toNat > 0xFFF then 1 else 0 :=
      (get_set _ 15 15 _).trans (if_pos rfl)
    rw [flag]
    simp only [Machine.apply, setV, withIndex, sum, Vector.set_set]
    rfl
  · have below : (a.index.toNat + (a.v.get x).toNat) % 4096 < 4096 := Nat.mod_lt _ (by decide)
    rw [apply_index, UInt16.toNat_ofNat']
    omega

theorem ofWord?_of_indexSum {w : Word} (sum : w.among TableRow.indexSum = true) :
    Instruction.ofWord? w = some (.addIndex w.x) := by
  have fields : w.opcode = 0xF ∧ w.nn = 0x1E := by
    simpa [Word.among, TableRow.indexSum, TableRow.fits] using sum
  exact (Instruction.Reads.addIndex fields.1 fields.2).ofWord?

theorem execute_indexSum {w : Word} (sum : w.among TableRow.indexSum = true) (m : Machine)
    (strict : Bool) : m.execute w strict = .ok (m.apply (.addIndex w.x)) :=
  execute_of_unchecked (ofWord?_of_indexSum sum) rfl

/-- A program without FX1E runs alike from two names of one place, to the same words, the same
fault or none, and two names of one place again. After FX1E, the index is the same and at most
VF tells the two machines apart. -/
theorem only_the_place_matters (same : Aliases a b) :
    (∀ strictness, (∀ w ∈ (a.steps strictness).words, w.among TableRow.indexSum = false) →
      (b.steps strictness).words = (a.steps strictness).words ∧
        (b.steps strictness).fault = (a.steps strictness).fault ∧
        Aliases (a.steps strictness).machine (b.steps strictness).machine) ∧
    (∀ w strict, w.among TableRow.indexSum = true →
      ∃ next next', a.execute w strict = .ok next ∧ b.execute w strict = .ok next' ∧
        SumsAlike next next') ∧
    ∀ strict, a.canFetch = true → a.wordAtPc.among TableRow.indexSum = true →
      ∃ next next', a.step strict = .ok (next, a.wordAtPc) ∧
        b.step strict = .ok (next', a.wordAtPc) ∧ SumsAlike next next' := by
  refine ⟨?_, ?_, ?_⟩
  · intro strictness plain
    exact lockstep_aliases.steps same strictness plain
  · intro w strict sum
    exact ⟨_, _, execute_indexSum sum a strict, execute_indexSum sum b strict,
      same.apply_addIndex w.x⟩
  · intro strict inside sum
    have word : b.wordAtPc = a.wordAtPc := (lockstep_aliases.wordAtPc same).symm
    have inside' : b.canFetch = true := by
      rwa [canFetch, ← lockstep_aliases.pc same]
    refine ⟨_, _, ?_, ?_, same.advance.apply_addIndex a.wordAtPc.x⟩
    · rw [step_of_canFetch inside, execute_indexSum sum]
      rfl
    · rw [step_of_canFetch inside', word, execute_indexSum sum]
      rfl

/-- A block stored over the end of memory takes the two names to 0x1000 and to zero; then digits
are written, a sprite is drawn and a block is loaded by both, up to a return from nowhere. With
V2 = 1 the sums are 0xFFF and 0xFFFF, so that one of them sets the flag. -/
theorem only_the_place_matters_around_the_end :
    let memory := Memory.writeBlock (Vector.replicate 4096 0x42) 0
      [0xF1, 0x55, 0xF0, 0x33, 0xD0, 0x15, 0xF1, 0x65, 0x00, 0xEE, 0xF2, 0x1E]
    let m := { (create ⟨0, 0⟩ 16 4 .legacy).setV 2 1 with
      memory := memory
      pc := 0
      index := 0xFFE }
    let five := [true, true, true, true, true]
    let words : List Word := [⟨0xF155⟩, ⟨0xF033⟩, ⟨0xD015⟩, ⟨0xF165⟩]
    let fault : Fault := .stackUnderflow 10 (some ⟨0x00EE⟩)
    (((m.steps five).words = words ∧ (m.steps five).fault = some fault) ∧
      ((m.withIndex 0xFFFE).steps five).words = words ∧
      ((m.withIndex 0xFFFE).steps five).fault = some fault ∧
      Aliases (m.steps five).machine ((m.withIndex 0xFFFE).steps five).machine) ∧
    (∃ next next', m.execute ⟨0xF21E⟩ true = .ok next ∧
      (m.withIndex 0xFFFE).execute ⟨0xF21E⟩ true = .ok next' ∧ SumsAlike next next' ∧
      next.v.get 15 = 0 ∧ next'.v.get 15 = 1) ∧
    ∃ next next', { m with pc := 10 }.step false = .ok (next, ⟨0xF21E⟩) ∧
      ({ m with pc := 10 }.withIndex 0xFFFE).step false = .ok (next', ⟨0xF21E⟩) ∧
      SumsAlike next next' := by
  intro memory m five words fault
  have run : (m.steps five).words = words ∧ (m.steps five).fault = some fault := by
    decide +kernel
  have place : (0xFFFE : UInt16).toNat % 4096 = m.index.toNat % 4096 := by decide
  obtain ⟨runs, sums, -⟩ := only_the_place_matters (a := m) ⟨0xFFFE, place, rfl⟩
  obtain ⟨-, -, stepped⟩ := only_the_place_matters (a := { m with pc := 10 }) ⟨0xFFFE, place, rfl⟩
  have plain : ∀ w ∈ (m.steps five).words, w.among TableRow.indexSum = false := by
    rw [run.1]
    decide
  obtain ⟨sameWords, sameFault, aliases⟩ := runs five plain
  have word : { m with pc := 10 }.wordAtPc = ⟨0xF21E⟩ := by decide +kernel
  refine ⟨⟨run, sameWords.trans run.1, sameFault.trans run.2, aliases⟩, ?_, ?_⟩
  · obtain ⟨next, next', done, done', alike⟩ := sums ⟨0xF21E⟩ true (by decide)
    refine ⟨next, next', done, done', alike, ?_, ?_⟩
    · cases done
      decide
    · cases done'
      decide
  · have sum := stepped false (by decide) (by rw [word]; decide)
    rwa [word] at sum

end Machine

end Chip8
