import Chip8.Proofs.CallNesting

/-!
The state that a loaded machine can get into. Each component is bounded by a mechanism of its own:
the program counter by the check of the fetch, return addresses by the mask of the push, free
stack slots by the clearing of the pop, the depth by the checks before calls and returns, and the
index by the twelve bits of whatever sets it in modern mode. The bound on the program counter is
two past the end of memory and one word more, which only a skip in the last word reaches.
-/

namespace Chip8.Machine

structure Sound (width height : Nat) (mode : Mode) (m : Machine) : Prop where
  pc_le : m.pc.toNat ≤ 0x1002
  stack_clean : m.stack.Clean
  return_le : ∀ (i : Nat) (hi : i < 12), i < m.stack.depth → m.stack.slots[i].toNat ≤ 0xFFF
  index_le : mode = .modern → m.index.toNat ≤ 0xFFF
  mode_eq : m.mode = mode
  width_eq : m.screen.width = width
  height_eq : m.screen.height = height

theorem advance_pc {m : Machine} (h : m.canFetch = true) :
    m.advance.pc.toNat = m.pc.toNat + 2 := by
  have low := pc_le_of_canFetch h
  change (m.pc + 2).toNat = m.pc.toNat + 2
  rw [toNat_add_two]
  omega

theorem target_le {m : Machine} {i : Instruction} (low : 2 ≤ m.pc.toNat)
    (high : m.pc.toNat ≤ 0x1000) (top : i = .ret → m.stack.top.toNat ≤ 0xFFF) :
    (m.target i).toNat ≤ 0x1002 := by
  cases i with
  | ret =>
    have := top rfl
    simp only [target]
    omega
  | jump t | call t =>
    have := t.isLt
    simp only [target, UInt16.toNat_ofNat']
    omega
  | skip condition =>
    simp only [target]
    split
    · rw [toNat_add_two]
      omega
    · omega
  | jumpOffset base =>
    simp only [target, UInt16.toNat_ofNat']
    omega
  | waitKey x =>
    simp only [target]
    split
    · rw [toNat_sub_two low]
      omega
    · omega
  | _ =>
    simp only [target]
    omega

theorem apply_index_le {m : Machine} (modern : m.mode = .modern) (h : m.index.toNat ≤ 0xFFF)
    (i : Instruction) : (m.apply i).index.toNat ≤ 0xFFF := by
  rw [apply_index]
  cases i with
  | setIndex t =>
    have := t.isLt
    simp only [UInt16.toNat_ofNat']
    omega
  | addIndex x =>
    simp only [UInt16.toNat_ofNat']
    omega
  | glyph x =>
    have glyphs : (m.v.get x).toNat % 16 * 5 < 4096 := by omega
    simp only [UInt16.toNat_ofNat']
    rw [Nat.mod_eq_of_lt (by omega)]
    omega
  | store last | load last =>
    simp only [indexAfterBlock, modern]
    exact h
  | _ => exact h

theorem apply_screen_size (m : Machine) (i : Instruction) :
    (m.apply i).screen.width = m.screen.width ∧ (m.apply i).screen.height = m.screen.height := by
  rw [apply_screen]
  cases i <;> exact ⟨rfl, rfl⟩

namespace Sound

variable {width height : Nat} {mode : Mode} {m : Machine} {strict : Bool}

theorem successor_return_le (h : Sound width height mode m) (free : m.obstacle? strict = none)
    (i : Nat) (hi : i < 12) (below : i < m.successor.stack.depth) :
    m.successor.stack.slots[i].toNat ≤ 0xFFF := by
  obtain ⟨-, room, used, -⟩ := (obstacle?_eq_none_iff m strict).mp free
  have old := h.return_le i hi
  rcases m.successor_stack_cases with ⟨call, pushed⟩ | ⟨ret, popped⟩ | ⟨-, -, same⟩
  · simp only [pushed, CallStack.depth_push] at below ⊢
    rw [CallStack.slots_push _ _ h.stack_clean.depth_nonneg (room call)]
    split
    · rw [UInt16.toNat_and]
      exact Nat.and_le_right
    · exact old (by omega)
  · simp only [popped, CallStack.depth_pop] at below ⊢
    rw [CallStack.slots_pop _ (used ret) h.stack_clean.depth_le, if_neg (by omega)]
    exact old (by omega)
  · simp only [same] at below ⊢
    exact old below

theorem successor_pc_le (h : Sound width height mode m) (free : m.obstacle? strict = none) :
    m.successor.pc.toNat ≤ 0x1002 := by
  obtain ⟨inside, -, used, -⟩ := (obstacle?_eq_none_iff m strict).mp free
  have fetched := advance_pc inside
  have low := pc_le_of_canFetch inside
  rcases m.successor_cases with ⟨-, same⟩ | ⟨i, form, applied⟩
  · rw [same]
    omega
  · rw [applied, apply_pc]
    apply target_le (by omega) (by omega)
    rintro rfl
    have ret : m.wordAtPc.isReturn = true := by rw [Word.isReturn_eq, form]
    have depth := used ret
    have high := h.stack_clean.depth_le
    have top := CallStack.top_eq m.stack (m.stack.depth - 1).toNat (by omega) (by omega)
    change m.stack.top.toNat ≤ 0xFFF
    rw [top]
    exact h.return_le _ _ (by omega)

theorem successor (h : Sound width height mode m) (free : m.obstacle? strict = none) :
    Sound width height mode m.successor where
  pc_le := h.successor_pc_le free
  stack_clean := successor_clean h.stack_clean free
  return_le := h.successor_return_le free
  index_le modern := by
    have kept : m.advance.index.toNat ≤ 0xFFF := h.index_le modern
    have still : m.advance.mode = .modern := h.mode_eq.trans modern
    rcases m.successor_cases with ⟨-, same⟩ | ⟨i, -, applied⟩
    · rw [same]
      exact kept
    · rw [applied]
      exact apply_index_le still kept i
  mode_eq := by
    rcases m.successor_cases with ⟨-, same⟩ | ⟨i, -, applied⟩
    · rw [same]
      exact h.mode_eq
    · rw [applied, apply_mode]
      exact h.mode_eq
  width_eq := by
    rcases m.successor_cases with ⟨-, same⟩ | ⟨i, -, applied⟩
    · rw [same]
      exact h.width_eq
    · rw [applied, (apply_screen_size _ i).1]
      exact h.width_eq
  height_eq := by
    rcases m.successor_cases with ⟨-, same⟩ | ⟨i, -, applied⟩
    · rw [same]
      exact h.height_eq
    · rw [applied, (apply_screen_size _ i).2]
      exact h.height_eq

theorem operate {op : Operation} {next : Machine} {words : List Word}
    (h : Sound width height mode m) (done : m.operate op = .ok (next, words)) :
    Sound width height mode next := by
  cases op with
  | step strict =>
    obtain ⟨free, rfl, -⟩ := operate_step_eq_ok_iff.mp done
    exact h.successor free
  | tick | keys keypad =>
    cases done
    exact { h with }

end Sound

theorem sound_loaded (random : Generator) (width height : Nat) (mode : Mode)
    (memory : Memory) :
    Sound width height mode { create random width height mode with memory := memory } where
  pc_le := show (0x200 : UInt16).toNat ≤ 0x1002 by decide
  stack_clean := CallStack.clean_empty
  return_le i hi below := by
    have : (i : Int) < 0 := below
    omega
  index_le _ := show (0 : UInt16).toNat ≤ 0xFFF by decide
  mode_eq := rfl
  width_eq := rfl
  height_eq := rfl

theorem loadProgram_of_fits {image : List UInt8} (fits : image.length ≤ 3584) (m : Machine) :
    m.loadProgram image =
      .ok { m with memory := m.memory.writeBlock Memory.programStart image } := by
  have room : ¬image.length > Memory.programRoom := by
    simpa [Memory.programRoom, Memory.size, Memory.programStart] using fits
  rw [loadProgram, if_neg room]

/-- Whatever is done to a loaded machine, its state stays within bounds, and the additions and
subtractions on the program counter that a fetch, a skip and the wait for a key do never wrap. -/
theorem sound_of_loaded (random : Generator) (width height : Nat) (mode : Mode)
    (image : List UInt8) (fits : image.length ≤ 3584) (ops : List Operation) :
    ∃ loaded, (create random width height mode).loadProgram image = .ok loaded ∧
      Sound width height mode (loaded.settleAll ops) ∧
      ((loaded.settleAll ops).canFetch = true →
        let m := loaded.settleAll ops
        m.advance.pc.toNat = m.pc.toNat + 2 ∧
        (m.advance.pc + 2).toNat = m.pc.toNat + 4 ∧
        (m.advance.pc - 2).toNat = m.pc.toNat) := by
  refine ⟨_, if_neg (by simpa [Memory.programRoom, Memory.size, Memory.programStart] using fits),
    ?_, ?_⟩
  · exact settleAll_invariant (fun _ _ _ _ h done => h.operate done) _ ops
      (sound_loaded random width height mode _)
  · intro inside
    have fetched := advance_pc inside
    have low := pc_le_of_canFetch inside
    refine ⟨fetched, ?_, ?_⟩
    · rw [toNat_add_two]
      omega
    · rw [toNat_sub_two (by omega)]
      omega

/-- The program writes a skip to the last word of memory and jumps there. -/
theorem sound_of_loaded_skip_at_end :
    let image : List UInt8 := [0x60, 0x40, 0xAF, 0xFE, 0xF0, 0x55, 0x1F, 0xFE]
    let ops : List Operation := [.step true, .step true, .tick, .step true,
      .keys (Keypad.ofList [5]), .step false, .step true, .step false]
    image.length ≤ 3584 ∧
      ∃ loaded, (create ⟨0, 0⟩ 64 32 .modern).loadProgram image = .ok loaded ∧
        Sound 64 32 .modern (loaded.settleAll ops) := by
  intro image ops
  have fits : image.length ≤ 3584 := by decide
  obtain ⟨loaded, load, sound, -⟩ := sound_of_loaded ⟨0, 0⟩ 64 32 .modern image fits ops
  exact ⟨fits, loaded, load, sound⟩

end Chip8.Machine
