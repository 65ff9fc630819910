import Chip8.Proofs.ReachableState
import Chip8.Proofs.InstructionTable

/-!
Where the machine goes on. The address after a step is told by the word alone for jumps and calls,
by the stack for returns, and by the registers, the keys and the mode for the rest; every word
that is none of these, in the table or not, goes on with the word after it. The skips come in
three pairs, and from every state exactly one word of a pair skips.
-/

namespace Chip8

theorem Keypad.first?_eq_none_iff (keypad : Keypad) :
    keypad.first? = none ↔ ∀ k, keypad.get k = false := by
  simp [first?]

/-- The two words are skips on opposite conditions: 3XNN and 4XNN, 5XY0 and 9XY0, EX9E and EXA1. -/
inductive Word.Opposes (w w' : Word) : Prop where
  | constant (class3 : w.opcode = 0x3) (class4 : w'.opcode = 0x4) (x : w'.x = w.x)
      (nn : w'.nn = w.nn)
  | registers (class5 : w.opcode = 0x5) (last : w.n = 0) (class9 : w'.opcode = 0x9)
      (last' : w'.n = 0) (x : w'.x = w.x) (y : w'.y = w.y)
  | keys (class14 : w.opcode = 0xE) (low : w.nn = 0x9E) (class14' : w'.opcode = 0xE)
      (low' : w'.nn = 0xA1) (x : w'.x = w.x)

namespace Machine

open Instruction (Reads)

/-- Whether a word is a skip and its condition holds. A key is named by VX modulo 16. -/
def skips (m : Machine) (w : Word) : Bool :=
  let vx := m.v.get w.x
  let vy := m.v.get w.y
  let down := m.keypad.get (Fin.ofNat 16 vx.toNat)
  (w.opcode = 0x3 && vx == w.nn) || (w.opcode = 0x4 && vx != w.nn) ||
    (w.opcode = 0x5 && w.n = 0 && vx == vy) || (w.opcode = 0x9 && w.n = 0 && vx != vy) ||
    (w.opcode = 0xE && w.nn = 0x9E && down) || (w.opcode = 0xE && w.nn = 0xA1 && !down)

/-- The address at which the machine goes on after the word at its program counter. -/
def nextAddress (m : Machine) (w : Word) : Nat :=
  if w.opcode = 0x1 ∨ w.opcode = 0x2 then w.nnn.val
  else if w.opcode = 0x0 ∧ w.nn = 0xEE then m.stack.top.toNat
  else if w.opcode = 0xB then
    let offset := if m.mode = .legacy then 0 else Fin.ofNat 16 (w.nnn.val / 256)
    (w.nnn.val + (m.v.get offset).toNat) % 4096
  else if w.opcode = 0xF ∧ w.nn = 0x0A ∧ ∀ k, m.keypad.get k = false then m.pc.toNat
  else if m.skips w then m.pc.toNat + 4
  else m.pc.toNat + 2

variable {m : Machine} {w : Word} {i : Instruction} {condition : Condition}

theorem skips_of_reads (reads : Reads w (.skip condition)) : m.skips w = condition.holds m := by
  cases reads <;> simp [skips, Condition.holds, bne, *]

theorem holds_advance (m : Machine) (condition : Condition) :
    condition.holds m.advance = condition.holds m := by
  cases condition <;> rfl

theorem nextAddress_of_skip (reads : Reads w (.skip condition)) :
    m.nextAddress w = if condition.holds m then m.pc.toNat + 4 else m.pc.toNat + 2 := by
  rw [← skips_of_reads reads]
  cases reads <;> simp [nextAddress, *]

theorem nextAddress_of_wait (class15 : w.opcode = 0xF) (low : w.nn = 0x0A) :
    m.nextAddress w = if m.keypad.first? = none then m.pc.toNat else m.pc.toNat + 2 := by
  simp [nextAddress, skips, class15, low, Keypad.first?_eq_none_iff]

theorem nextAddress_of_jumpOffset (class11 : w.opcode = 0xB) :
    m.nextAddress w = (m.target (.jumpOffset w.nnn)).toNat := by
  have small : ∀ n, n % 4096 % 65536 = n % 4096 := by omega
  cases mode : m.mode <;> simp [nextAddress, target, class11, mode, small]

theorem exists_reads_of_skips (skips : m.skips w = true) :
    ∃ condition, Reads w (.skip condition) := by
  simp only [Machine.skips, Bool.or_eq_true, Bool.and_eq_true, decide_eq_true_eq] at skips
  rcases skips with ((((is | isNot) | same) | differ) | down) | up
  · exact ⟨_, .skipIs is.1⟩
  · exact ⟨_, .skipIsNot isNot.1⟩
  · exact ⟨_, .skipSame same.1.1 same.1.2⟩
  · exact ⟨_, .skipDiffer differ.1.1 differ.1.2⟩
  · exact ⟨_, .keyDown down.1.1 down.1.2⟩
  · exact ⟨_, .keyUp up.1.1 up.1.2⟩

theorem nextAddress_of_unread (unread : ∀ i, ¬Reads w i) :
    m.nextAddress w = m.pc.toNat + 2 := by
  have jump : ¬(w.opcode = 0x1 ∨ w.opcode = 0x2) := by
    rintro (class1 | class2)
    · exact unread _ (.jump class1)
    · exact unread _ (.call class2)
  have ret : ¬(w.opcode = 0x0 ∧ w.nn = 0xEE) := fun fields => unread _ (.ret fields.1 fields.2)
  have offset : w.opcode ≠ 0xB := fun class11 => unread _ (.jumpOffset class11)
  have wait : ¬(w.opcode = 0xF ∧ w.nn = 0x0A ∧ ∀ k, m.keypad.get k = false) :=
    fun fields => unread _ (.waitKey fields.1 fields.2.1)
  have skip : ¬m.skips w = true := by
    intro skips
    obtain ⟨condition, reads⟩ := exists_reads_of_skips skips
    exact unread _ reads
  rw [nextAddress, if_neg jump, if_neg ret, if_neg offset, if_neg wait, if_neg skip]

theorem toNat_target_advance (inside : m.canFetch = true) (reads : Reads w i) :
    (m.advance.target i).toNat = m.nextAddress w := by
  have next := advance_pc inside
  have low := pc_le_of_canFetch inside
  have far : (m.advance.pc + 2).toNat = m.pc.toNat + 4 := by
    rw [toNat_add_two]
    omega
  have back : (m.advance.pc - 2).toNat = m.pc.toNat := by
    rw [toNat_sub_two (by omega)]
    omega
  cases i with
  | skip condition =>
    rw [nextAddress_of_skip reads, target, holds_advance, apply_ite UInt16.toNat, far, next]
  | waitKey x =>
    cases reads with
    | waitKey class15 low =>
      rw [nextAddress_of_wait class15 low, target, apply_ite UInt16.toNat, back, next]
      rfl
  | jumpOffset base =>
    cases reads with
    | jumpOffset class11 =>
      rw [nextAddress_of_jumpOffset class11]
      rfl
  | ret =>
    cases reads with
    | ret class0 low =>
      rw [nextAddress, if_neg (by simp [class0]), if_pos ⟨class0, low⟩]
      rfl
  | jump | call =>
    have small := w.nnn.isLt
    cases reads
    rw [nextAddress, if_pos (by simp [*]), target, UInt16.toNat_ofNat']
    omega
  | _ =>
    cases reads
    simp [nextAddress, skips, target, *]

theorem toNat_successor_pc (inside : m.canFetch = true) :
    m.successor.pc.toNat = m.nextAddress m.wordAtPc := by
  rcases m.successor_cases with ⟨form, same⟩ | ⟨i, form, applied⟩
  · have unread : ∀ i, ¬Reads m.wordAtPc i := by
      intro i reads
      rw [reads.ofWord?] at form
      cases form
    rw [same, advance_pc inside, nextAddress_of_unread unread]
  · rw [applied, apply_pc, toNat_target_advance inside (Instruction.reads_of_ofWord? form)]

theorem conditions_of_opposes {w' : Word} (opposes : w.Opposes w') :
    ∃ condition condition', Reads w (.skip condition) ∧ Reads w' (.skip condition') ∧
      ∀ m, condition'.holds m = !condition.holds m := by
  cases opposes with
  | constant class3 class4 x nn =>
    refine ⟨_, _, .skipIs class3, .skipIsNot class4, fun m => ?_⟩
    rw [x, nn]
    rfl
  | registers class5 last class9 last' x y =>
    refine ⟨_, _, .skipSame class5 last, .skipDiffer class9 last', fun m => ?_⟩
    rw [x, y]
    rfl
  | keys class14 low class14' low' x =>
    refine ⟨_, _, .keyDown class14 low, .keyUp class14' low', fun m => ?_⟩
    rw [x]
    rfl

theorem execute_skip (reads : Reads w (.skip condition)) (m : Machine) (strict : Bool) :
    m.execute w strict = .ok (if condition.holds m then { m with pc := m.pc + 2 } else m) :=
  execute_of_unchecked reads.ofWord? rfl

def OneSkips (m : Machine) (w w' : Word) (strict : Bool) : Prop :=
  (m.execute w strict = .ok { m with pc := m.pc + 2 } ∧ m.execute w' strict = .ok m) ∨
    (m.execute w strict = .ok m ∧ m.execute w' strict = .ok { m with pc := m.pc + 2 })

theorem oneSkips_of_opposes {w' : Word} (opposes : w.Opposes w') (m : Machine) (strict : Bool) :
    m.OneSkips w w' strict := by
  obtain ⟨condition, condition', reads, reads', opposite⟩ := conditions_of_opposes opposes
  rw [OneSkips, execute_skip reads, execute_skip reads', opposite m]
  cases condition.holds m with
  | true => exact .inl ⟨rfl, rfl⟩
  | false => exact .inr ⟨rfl, rfl⟩

/-- A step that succeeds goes on at `nextAddress`, which for a return is what the uppermost used
slot of the stack holds. All of it is read off the machine before the step; so from every state
one of two opposite skips is taken and the other is not. -/
theorem next_address (m : Machine) :
    (∀ strict next w, m.stack.depth ≤ 12 → m.step strict = .ok (next, w) →
      m.pc.toNat ≤ 0xFFE ∧
      w = .ofBytes (m.memory.read m.pc.toNat) (m.memory.read (m.pc.toNat + 1)) ∧
      next.pc.toNat = m.nextAddress w ∧
      (w.opcode = 0x0 → w.nn = 0xEE →
        ∃ (d : Nat) (hd : d < 12), m.stack.depth = d + 1 ∧ next.pc = m.stack.slots[d])) ∧
    ∀ w w', w.Opposes w' → ∀ strict, m.OneSkips w w' strict := by
  refine ⟨?_, fun w w' opposes strict => oneSkips_of_opposes opposes m strict⟩
  intro strict next w high done
  obtain ⟨free, rfl, rfl⟩ := step_eq_ok_iff.mp done
  obtain ⟨inside, -, used, -⟩ := (obstacle?_eq_none_iff m strict).mp free
  refine ⟨pc_le_of_canFetch inside, rfl, toNat_successor_pc inside, ?_⟩
  intro class0 low
  have ret : m.wordAtPc.isReturn = true := by simp [Word.isReturn, class0, low]
  have positive := used ret
  have slot : m.stack.depth = (m.stack.depth - 1).toNat + 1 := by omega
  have below : (m.stack.depth - 1).toNat < 12 := by omega
  refine ⟨_, below, slot, ?_⟩
  rw [successor_of_isReturn ret, apply_pc]
  exact CallStack.top_eq m.stack _ below slot

/-- A jump by VF around the end of memory, a return from the second of two calls, and a skip in
the last word of memory; and of E19E and E1A1 one skips. -/
theorem next_address_at_the_end :
    let memory := Memory.writeBlock (Vector.replicate 4096 0x42) 0 [0xBF, 0xFF, 0x00, 0xEE]
    let m := { (create ⟨0, 0⟩ 1 1 .modern).setV 15 2 with
      memory := memory, pc := 0, stack := CallStack.ofList [0x300, 0xABC] }
    (∃ next, m.step true = .ok (next, ⟨0xBFFF⟩) ∧ next.pc.toNat = 1) ∧
      (∃ next, { m with pc := 2 }.step false = .ok (next, ⟨0x00EE⟩) ∧ next.pc.toNat = 0xABC) ∧
      (∃ next, { m with pc := 0xFFE }.step false = .ok (next, ⟨0x4242⟩) ∧
        next.pc.toNat = 0x1002) ∧
      m.OneSkips ⟨0xE19E⟩ ⟨0xE1A1⟩ true := by
  intro memory m
  have jump : m.step true = .ok (m.successor, ⟨0xBFFF⟩) :=
    step_eq_ok_iff.mpr ⟨by decide +kernel, rfl, by decide +kernel⟩
  have ret : { m with pc := 2 }.step false = .ok ({ m with pc := 2 }.successor, ⟨0x00EE⟩) :=
    step_eq_ok_iff.mpr ⟨by decide +kernel, rfl, by decide +kernel⟩
  have skip : { m with pc := 0xFFE }.step false =
      .ok ({ m with pc := 0xFFE }.successor, ⟨0x4242⟩) :=
    step_eq_ok_iff.mpr ⟨by decide +kernel, rfl, by decide +kernel⟩
  have high : m.stack.depth ≤ 12 := by decide
  obtain ⟨-, -, jumps, -⟩ := (next_address m).1 _ _ _ high jump
  obtain ⟨-, -, returns, -⟩ := (next_address { m with pc := 2 }).1 _ _ _ high ret
  obtain ⟨-, -, goes, -⟩ := (next_address { m with pc := 0xFFE }).1 _ _ _ high skip
  refine ⟨⟨_, jump, ?_⟩, ⟨_, ret, ?_⟩, ⟨_, skip, ?_⟩, ?_⟩
  · rw [jumps]
    decide +kernel
  · rw [returns]
    decide +kernel
  · rw [goes]
    decide +kernel
  · exact (next_address m).2 ⟨0xE19E⟩ ⟨0xE1A1⟩ (.keys rfl rfl rfl rfl rfl) true

end Machine

end Chip8
