import Chip8.Proofs.QuirkModes
import Chip8.Proofs.ReachableState

/-!
What each word may write. For a register, the index, a timer and the screen the words are listed
that may change it; the keys, the mode and the size of the screen are changed by none. A component
keeps its value under every word outside its list, and so through every run that carries out none
of them. Handlers that write more cells than they change, such as the flag of a copy or the
registers above the last one of a block, are taken cell by cell.
-/

namespace Chip8

/-- A part of the machine that words write or leave alone as a whole. -/
inductive Component where
  | register (k : Register)
  | index
  | delay
  | sound
  | screen
  | keypad
  | mode
  | screenSize
  deriving DecidableEq, Repr

def Component.Kept (m next : Machine) : Component → Prop
  | register k => next.v.get k = m.v.get k
  | index => next.index = m.index
  | delay => next.delay = m.delay
  | sound => next.sound = m.sound
  | screen => next.screen = m.screen
  | keypad => next.keypad = m.keypad
  | mode => next.mode = m.mode
  | screenSize => next.screen.width = m.screen.width ∧ next.screen.height = m.screen.height

namespace TableRow

/-- The words that set VX and nothing else among the registers. -/
def assignments : List TableRow :=
  [ofClass 0x6, ofClass 0x7, ofClass 0xC, ofByte 0xF 0x07, ofByte 0xF 0x0A]

def arithmetic : List TableRow :=
  [ofDigit 0x8 0x0, ofDigit 0x8 0x1, ofDigit 0x8 0x2, ofDigit 0x8 0x3, ofDigit 0x8 0x4,
    ofDigit 0x8 0x5, ofDigit 0x8 0x6, ofDigit 0x8 0x7, ofDigit 0x8 0xE]

end TableRow

open TableRow in
/-- Whether a component is one that the word may change. -/
def Word.writes (mode : Mode) (w : Word) : Component → Bool
  | .register k =>
    (w.among assignments && k = w.x) || (w.among arithmetic && (k = w.x || k = 15)) ||
      (w.among [ofClass 0xD, ofByte 0xF 0x1E] && k = 15) ||
      (w.among [ofByte 0xF 0x65] && k ≤ w.x)
  | .index =>
    w.among [ofClass 0xA, ofByte 0xF 0x1E, ofByte 0xF 0x29] ||
      (mode = .legacy && w.among blockTransfers)
  | .delay => w.among [ofByte 0xF 0x15]
  | .sound => w.among [ofByte 0xF 0x18]
  | .screen => w.among [ofByte 0x0 0xE0, ofClass 0xD]
  | .keypad | .mode | .screenSize => false

namespace Component

theorem Kept.refl (m : Machine) (c : Component) : c.Kept m m := by
  cases c with
  | screenSize => exact ⟨rfl, rfl⟩
  | _ => rfl

theorem Kept.trans {a b m : Machine} {c : Component} (first : c.Kept a b) (second : c.Kept b m) :
    c.Kept a m := by
  cases c with
  | screenSize => exact ⟨second.1.trans first.1, second.2.trans first.2⟩
  | _ => exact Eq.trans second first

end Component

namespace Machine

open Instruction (Reads)

variable {m : Machine} {w : Word} {i : Instruction}

theorem get_setV_of_ne {x k : Register} (other : k ≠ x) (m : Machine) (value : UInt8) :
    (m.setV x value).v.get k = m.v.get k :=
  (get_set _ x k _).trans (if_neg other.symm)

theorem get_apply_of_not_writes {k : Register} (reads : Reads w i)
    (unwritten : w.writes m.mode (.register k) = false) :
    (m.apply i).v.get k = m.v.get k := by
  simp only [Word.writes, Word.among, TableRow.assignments, TableRow.arithmetic] at unwritten
  cases reads with
  | set | addConstant | random | readDelay =>
    have other : k ≠ w.x := by simpa [TableRow.fits, *] using unwritten
    exact get_setV_of_ne other m _
  | waitKey =>
    have other : k ≠ w.x := by simpa [TableRow.fits, *] using unwritten
    rw [apply_waitKey]
    cases m.keypad.first? with
    | some key => exact get_setV_of_ne other m _
    | none => rfl
  | alu class8 named =>
    rename_i op
    have digit := Alu.nibble_of_ofNibble? named
    have other : k ≠ w.x ∧ k ≠ 15 := by
      cases op <;> simpa [TableRow.fits, class8, ← digit, Alu.nibble] using unwritten
    exact apply_alu_of_ne m op other.1 other.2 w.y
  | draw | addIndex =>
    have other : k ≠ 15 := by simpa [TableRow.fits, *] using unwritten
    exact get_setV_of_ne other m _
  | load =>
    have beyond : ¬k ≤ w.x := by simpa [TableRow.fits, *] using unwritten
    rw [get_apply_load, if_neg beyond]
  | skipIs | skipIsNot | skipSame | skipDiffer | keyDown | keyUp => rw [apply_skip]
  | _ => rfl

theorem apply_index_of_not_writes (reads : Reads w i)
    (unwritten : w.writes m.mode .index = false) : (m.apply i).index = m.index := by
  rw [apply_index]
  cases reads with
  | setIndex | addIndex | glyph => simp [Word.writes, Word.among, TableRow.fits, *] at unwritten
  | store | load =>
    have notLegacy : m.mode ≠ .legacy := by
      simpa [Word.writes, Word.among, TableRow.fits, TableRow.blockTransfers, *] using unwritten
    cases mode : m.mode with
    | modern => simp [indexAfterBlock, mode]
    | legacy => exact absurd mode notLegacy
  | _ => rfl

theorem kept_apply {c : Component} (reads : Reads w i) (unwritten : w.writes m.mode c = false) :
    c.Kept m (m.apply i) := by
  cases c with
  | register k => exact get_apply_of_not_writes reads unwritten
  | index => exact apply_index_of_not_writes reads unwritten
  | delay =>
    change (m.apply i).delay = m.delay
    rw [apply_delay]
    cases reads with
    | setDelay => simp [Word.writes, Word.among, TableRow.fits, *] at unwritten
    | _ => rfl
  | sound =>
    change (m.apply i).sound = m.sound
    rw [apply_sound]
    cases reads with
    | setSound => simp [Word.writes, Word.among, TableRow.fits, *] at unwritten
    | _ => rfl
  | screen =>
    change (m.apply i).screen = m.screen
    rw [apply_screen]
    cases reads with
    | clearScreen | draw => simp [Word.writes, Word.among, TableRow.fits, *] at unwritten
    | _ => rfl
  | keypad => exact apply_keypad m i
  | mode => exact apply_mode m i
  | screenSize => exact apply_screen_size m i

theorem kept_perform {c : Component} (unwritten : w.writes m.mode c = false) :
    c.Kept m (m.perform (Instruction.ofWord? w)) := by
  cases form : Instruction.ofWord? w with
  | none => exact .refl m c
  | some i => exact kept_apply (Instruction.reads_of_ofWord? form) unwritten

theorem kept_successor {c : Component} (unwritten : m.wordAtPc.writes m.mode c = false) :
    c.Kept m m.successor := by
  have fetched : c.Kept m m.advance := by cases c <;> first | rfl | exact ⟨rfl, rfl⟩
  exact fetched.trans (kept_perform (m := m.advance) unwritten)

theorem kept_steps {c : Component} {strictness : List Bool}
    (unwritten : ∀ w ∈ (m.steps strictness).words, w.writes m.mode c = false) :
    c.Kept m (m.steps strictness).machine := by
  rw [words_steps] at unwritten
  -- the mode is carried along, since the list for the index depends on it
  have kept : c.Kept m (m.steps strictness).machine ∧
      (m.steps strictness).machine.mode = m.mode := by
    apply steps_invariant (P := fun now => c.Kept m now ∧ now.mode = m.mode) ⟨.refl m c, rfl⟩
    rintro now visited ⟨same, mode⟩
    have plain : now.wordAtPc.writes now.mode c = false := by
      rw [mode]
      exact unwritten _ (List.mem_map_of_mem visited)
    have stays : now.successor.mode = now.mode := kept_successor (c := .mode) rfl
    exact ⟨same.trans (kept_successor plain), stays.trans mode⟩
  exact kept.1

theorem execute_addConstant (class7 : w.opcode = 0x7) (m : Machine) (strict : Bool) :
    m.execute w strict = .ok (m.setV w.x (m.v.get w.x + w.nn)) :=
  execute_of_unchecked (Reads.addConstant class7).ofWord? rfl

/-- A word that is carried out changes no component outside its list, so a component keeps its
value through every run that carries out no word of its list. In particular 7XNN has no carry to
leave in VF. -/
theorem write_footprint (m : Machine) :
    (∀ w strict next, m.execute w strict = .ok next →
      ∀ c, w.writes m.mode c = false → c.Kept m next) ∧
    (∀ w strict, w.opcode = 0x7 → w.x ≠ 15 →
      ∃ next, m.execute w strict = .ok next ∧ next.v.get 15 = m.v.get 15) ∧
    ∀ strictness c, (∀ w ∈ (m.steps strictness).words, w.writes m.mode c = false) →
      c.Kept m (m.steps strictness).machine := by
  refine ⟨?_, ?_, fun strictness c => kept_steps⟩
  · intro w strict next done c unwritten
    rw [eq_perform_of_execute done]
    exact kept_perform unwritten
  · intro w strict class7 plain
    exact ⟨_, execute_addConstant class7 m strict, get_setV_of_ne plain.symm m _⟩

/-- A modern run that wraps VA, stores and loads a block, and ends with a return that has no call:
the index, VF and a register above the block are as before. -/
theorem write_footprint_of_block_transfers :
    let memory := Memory.writeBlock (Vector.replicate 4096 0) 0
      [0x7A, 0xFF, 0xF1, 0x55, 0xF1, 0x65, 0x00, 0xEE]
    let m := { (create ⟨0, 0⟩ 1 1 .modern).setV 10 9 with
      memory := memory, pc := 0, index := 0x80 }
    let run := m.steps [true, true, true, true]
    run.words = [⟨0x7AFF⟩, ⟨0xF155⟩, ⟨0xF165⟩] ∧ run.fault ≠ none ∧
      run.machine.index = m.index ∧ run.machine.v.get 15 = m.v.get 15 ∧
      run.machine.v.get 2 = m.v.get 2 ∧
      (∃ next, m.execute ⟨0xF165⟩ false = .ok next ∧ next.v.get 2 = m.v.get 2) ∧
      ∃ next, m.execute ⟨0x7AFF⟩ true = .ok next ∧ next.v.get 15 = 0 := by
  intro memory m run
  have words : run.words = [⟨0x7AFF⟩, ⟨0xF155⟩, ⟨0xF165⟩] := by decide +kernel
  have kept : ∀ c ∈ [Component.index, .register 15, .register 2], c.Kept m run.machine := by
    intro c listed
    apply (write_footprint m).2.2
    rw [words]
    revert c listed
    decide
  have loaded : m.execute ⟨0xF165⟩ false = .ok (m.apply (.load 1)) := rfl
  refine ⟨words, by decide +kernel, kept .index (by decide), kept (.register 15) (by decide),
    kept (.register 2) (by decide), ⟨_, loaded, ?_⟩, ?_⟩
  · exact (write_footprint m).1 ⟨0xF165⟩ false _ loaded (.register 2) (by decide)
  · exact (write_footprint m).2.1 ⟨0x7AFF⟩ true (by decide) (by decide)

end Machine

end Chip8
