import Chip8.Execution

/-!
What an instruction does to each component of the machine, one equation for a component. Only
skips and the wait for a key choose between two machines; both are first written as one update of
the program counter, and of the registers for the wait. The load of a block is unfolded by its
equation, since its sixteen registers are slow to compare. The registers after a two-register
operation are told one by one, since its two writes may meet in VF, and so are the bytes and the
registers of a block.
-/

namespace Chip8.Machine

theorem length_block (v : Vector UInt8 16) (last : Register) :
    (v.toList.take (last.val + 1)).length = last.val + 1 := by
  have small := last.isLt
  rw [List.length_take, Vector.length_toList]
  omega

theorem getElem?_block (v : Vector UInt8 16) {last k : Register} (inside : k ≤ last) :
    (v.toList.take (last.val + 1))[k.val]? = some (v.get k) := by
  rw [List.getElem?_take, if_pos (Nat.lt_succ_of_le inside), List.getElem?_eq_some_iff]
  exact ⟨by simp, rfl⟩

/-- Where an instruction leaves the program counter, which already points past its word. -/
def target (m : Machine) : Instruction → UInt16
  | .ret => m.stack.top
  | .jump target | .call target => UInt16.ofNat target.val
  | .skip condition => if condition.holds m then m.pc + 2 else m.pc
  | .jumpOffset base =>
    let offset := match m.mode with
      | .modern => m.v.get (Fin.ofNat 16 (base.val / 256))
      | .legacy => m.v.get 0
    UInt16.ofNat ((base.val + offset.toNat) % 4096)
  | .waitKey _ => if m.keypad.first? = none then m.pc - 2 else m.pc
  | _ => m.pc

theorem apply_skip (m : Machine) (condition : Condition) :
    m.apply (.skip condition) = { m with pc := m.target (.skip condition) } := by
  simp only [apply, target]
  split <;> rfl

theorem apply_waitKey (m : Machine) (x : Register) :
    m.apply (.waitKey x) =
      { m with
        pc := m.target (.waitKey x)
        v := match m.keypad.first? with
          | some key => (m.setV x (UInt8.ofNat key.val)).v
          | none => m.v } := by
  simp only [apply, target]
  cases m.keypad.first? <;> simp [setV]

theorem apply_load (m : Machine) (last : Register) :
    m.apply (.load last) =
      { m with
        v := Vector.ofFn fun k =>
          if k ≤ last then m.memory.read (m.index.toNat + k.val) else m.v.get k
        index := m.indexAfterBlock last } := by
  simp only [apply]

theorem apply_pc (m : Machine) (i : Instruction) : (m.apply i).pc = m.target i := by
  cases i with
  | skip | waitKey | load => simp only [apply_skip, apply_waitKey, apply_load, target]
  | _ => rfl

theorem apply_stack (m : Machine) (i : Instruction) :
    (m.apply i).stack = match i with
      | .call _ => m.stack.push m.pc
      | .ret => m.stack.pop
      | _ => m.stack := by
  cases i with
  | skip | waitKey | load => simp only [apply_skip, apply_waitKey, apply_load]
  | _ => rfl

theorem apply_index (m : Machine) (i : Instruction) :
    (m.apply i).index = match i with
      | .setIndex target => UInt16.ofNat target.val
      | .addIndex x => UInt16.ofNat ((m.index.toNat + (m.v.get x).toNat) % 4096)
      | .glyph x => UInt16.ofNat ((m.v.get x).toNat % 16 * 5)
      | .store last | .load last => m.indexAfterBlock last
      | _ => m.index := by
  cases i with
  | skip | waitKey | load => simp only [apply_skip, apply_waitKey, apply_load]
  | _ => rfl

theorem apply_memory (m : Machine) (i : Instruction) :
    (m.apply i).memory = match i with
      | .decimal x => m.memory.writeBlock m.index.toNat (decimalDigits (m.v.get x))
      | .store last => m.memory.writeBlock m.index.toNat (m.v.toList.take (last.val + 1))
      | _ => m.memory := by
  cases i with
  | skip | waitKey | load => simp only [apply_skip, apply_waitKey, apply_load]
  | _ => rfl

theorem apply_delay (m : Machine) (i : Instruction) :
    (m.apply i).delay = match i with
      | .setDelay x => m.v.get x
      | _ => m.delay := by
  cases i with
  | skip | waitKey | load => simp only [apply_skip, apply_waitKey, apply_load]
  | _ => rfl

theorem apply_sound (m : Machine) (i : Instruction) :
    (m.apply i).sound = match i with
      | .setSound x => m.v.get x
      | _ => m.sound := by
  cases i with
  | skip | waitKey | load => simp only [apply_skip, apply_waitKey, apply_load]
  | _ => rfl

theorem apply_keypad (m : Machine) (i : Instruction) : (m.apply i).keypad = m.keypad := by
  cases i with
  | skip | waitKey | load => simp only [apply_skip, apply_waitKey, apply_load]
  | _ => rfl

theorem apply_screen (m : Machine) (i : Instruction) :
    (m.apply i).screen = match i with
      | .clearScreen => m.screen.clear
      | .draw x y height =>
        m.screen.draw (m.sprite height.val) ((m.v.get x).toNat % m.screen.width)
          ((m.v.get y).toNat % m.screen.height)
      | _ => m.screen := by
  cases i with
  | skip | waitKey | load => simp only [apply_skip, apply_waitKey, apply_load]
  | _ => rfl

theorem apply_random (m : Machine) (i : Instruction) :
    (m.apply i).random = match i with
      | .random .. => m.random.split.1
      | _ => m.random := by
  cases i with
  | skip | waitKey | load => simp only [apply_skip, apply_waitKey, apply_load]
  | _ => rfl

theorem apply_mode (m : Machine) (i : Instruction) : (m.apply i).mode = m.mode := by
  cases i with
  | skip | waitKey | load => simp only [apply_skip, apply_waitKey, apply_load]
  | _ => rfl

theorem apply_alu_flag (m : Machine) (op : Alu) (x y : Register) :
    (m.apply (.alu op x y)).v.get 15 =
      (op.eval m.mode (m.v.get x) (m.v.get y) (m.v.get 15)).2 := by
  exact (get_set _ 15 15 _).trans (if_pos rfl)

theorem apply_alu_result (m : Machine) (op : Alu) {x : Register} (plain : x ≠ 15) (y : Register) :
    (m.apply (.alu op x y)).v.get x =
      (op.eval m.mode (m.v.get x) (m.v.get y) (m.v.get 15)).1 := by
  exact (get_set _ 15 x _).trans <| (if_neg plain.symm).trans <|
    (get_set _ x x _).trans (if_pos rfl)

theorem apply_alu_of_ne (m : Machine) (op : Alu) {x k : Register} (result : k ≠ x)
    (flag : k ≠ 15) (y : Register) : (m.apply (.alu op x y)).v.get k = m.v.get k := by
  exact (get_set _ 15 k _).trans <| (if_neg flag.symm).trans <|
    (get_set _ x k _).trans (if_neg result.symm)

theorem read_apply_store (m : Machine) {last k : Register} (inside : k ≤ last) :
    (m.apply (.store last)).memory.read (m.index.toNat + k.val) = m.v.get k := by
  obtain ⟨bound, byte⟩ := List.getElem?_eq_some_iff.mp (getElem?_block m.v inside)
  have short : (m.v.toList.take (last.val + 1)).length ≤ 4096 := by
    rw [length_block]
    omega
  rw [apply_memory]
  exact (Memory.read_writeBlock _ _ _ short _ bound).trans byte

theorem get_apply_load (m : Machine) (last k : Register) :
    (m.apply (.load last)).v.get k =
      if k ≤ last then m.memory.read (m.index.toNat + k.val) else m.v.get k := by
  rw [apply_load]
  change (Vector.ofFn _)[k.val] = _
  rw [Vector.getElem_ofFn]

end Chip8.Machine
