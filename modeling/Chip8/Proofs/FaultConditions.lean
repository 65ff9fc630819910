import Chip8.Proofs.CallNesting

/-!
Exactly when a step faults. `Stops` lists the causes with what each of them carries, told by the
program counter, the word there and the depth of the stack, without the order in which a step
looks at these. No two causes meet, and a step that none of them stops is carried out and leaves
the depth within the twelve slots. A strict run is a lenient run that meets only words of the table.
-/

namespace Chip8.Machine

variable {m : Machine} {strict : Bool} {fault : Fault}

inductive Stops (m : Machine) (strict : Bool) : Fault → Prop where
  | outsideMemory (outside : 0xFFF ≤ m.pc.toNat) : Stops m strict (.outsideMemory m.pc)
  | stackOverflow (inside : m.pc.toNat < 0xFFF) (class2 : m.wordAtPc.opcode = 2)
      (full : m.stack.depth = 12) :
      Stops m strict (.stackOverflow (m.pc + 2) (some m.wordAtPc))
  | stackUnderflow (inside : m.pc.toNat < 0xFFF) (class0 : m.wordAtPc.opcode = 0)
      (low : m.wordAtPc.nn = 0xEE) (empty : m.stack.depth = 0) :
      Stops m strict (.stackUnderflow (m.pc + 2) (some m.wordAtPc))
  | unsupported (inside : m.pc.toNat < 0xFFF) (isStrict : strict = true)
      (unknown : m.wordAtPc.supported = false) :
      Stops m strict (.unsupported (m.pc + 2) m.wordAtPc)

theorem Stops.of_obstacle? (low : 0 ≤ m.stack.depth) (high : m.stack.depth ≤ 12)
    (h : m.obstacle? strict = some fault) : m.Stops strict fault := by
  unfold obstacle? at h
  split at h
  · rename_i noFetch
    cases h
    apply outsideMemory
    have outside : ¬m.pc.toNat < 0xFFF := by
      rw [← canFetch_iff]
      simpa using noFetch
    omega
  rename_i fetches
  have inside : m.pc.toNat < 0xFFF := m.canFetch_iff.mp (by simpa using fetches)
  split at h
  · rename_i overflows
    cases h
    have class2 : m.wordAtPc.opcode = 2 := by simpa [Word.isCall] using overflows.1
    exact stackOverflow inside class2 (by omega)
  split at h
  · rename_i underflows
    cases h
    have fields : m.wordAtPc.opcode = 0 ∧ m.wordAtPc.nn = 0xEE := by
      simpa [Word.isReturn] using underflows.1
    exact stackUnderflow inside fields.1 fields.2 (by omega)
  split at h
  · rename_i refused
    cases h
    exact unsupported inside refused.1 refused.2
  · cases h

theorem Stops.obstacle? (h : m.Stops strict fault) : m.obstacle? strict = some fault := by
  cases h with
  | outsideMemory outside =>
    have noFetch : m.canFetch = false := by
      rw [Bool.eq_false_iff, ne_eq, canFetch_iff]
      omega
    simp [Machine.obstacle?, noFetch]
  | stackOverflow inside class2 full =>
    have fetches := m.canFetch_iff.mpr inside
    have call : m.wordAtPc.isCall = true := by simp [Word.isCall, class2]
    simp [Machine.obstacle?, fetches, call, full]
  | stackUnderflow inside class0 low empty =>
    have fetches := m.canFetch_iff.mpr inside
    have ret : m.wordAtPc.isReturn = true := by simp [Word.isReturn, class0, low]
    have call := Word.isCall_eq_false_of_isReturn ret
    simp [Machine.obstacle?, fetches, call, ret, empty]
  | unsupported inside isStrict unknown =>
    have fetches := m.canFetch_iff.mpr inside
    -- calls and returns are in the table, so the two checks before this one do not apply
    have call : m.wordAtPc.isCall = false := by
      rw [Bool.eq_false_iff]
      intro call
      simp [Word.supported_of_isCall call] at unknown
    have ret : m.wordAtPc.isReturn = false := by
      rw [Bool.eq_false_iff]
      intro ret
      simp [Word.supported_of_isReturn ret] at unknown
    simp [Machine.obstacle?, fetches, call, ret, isStrict, unknown]

theorem step_eq_error_iff_stops (low : 0 ≤ m.stack.depth) (high : m.stack.depth ≤ 12) :
    m.step strict = .error fault ↔ m.Stops strict fault := by
  rw [step_eq_error_iff]
  exact ⟨.of_obstacle? low high, Stops.obstacle?⟩

theorem depth_successor_within (low : 0 ≤ m.stack.depth) (high : m.stack.depth ≤ 12)
    (free : m.obstacle? strict = none) :
    0 ≤ m.successor.stack.depth ∧ m.successor.stack.depth ≤ 12 := by
  obtain ⟨-, room, used, -⟩ := (obstacle?_eq_none_iff m strict).mp free
  rcases m.successor_stack_cases with ⟨call, pushed⟩ | ⟨ret, popped⟩ | ⟨-, -, same⟩
  · have := room call
    rw [pushed, CallStack.depth_push]
    omega
  · have := used ret
    rw [popped, CallStack.depth_pop]
    omega
  · rw [same]
    exact ⟨low, high⟩

theorem step_ok_of_not_stops (low : 0 ≤ m.stack.depth) (high : m.stack.depth ≤ 12)
    (unstopped : ∀ fault, ¬m.Stops strict fault) :
    m.step strict = .ok (m.successor, m.wordAtPc) ∧
      0 ≤ m.successor.stack.depth ∧ m.successor.stack.depth ≤ 12 := by
  have free : m.obstacle? strict = none := by
    rw [Option.eq_none_iff_forall_ne_some]
    intro fault obstacle
    exact unstopped fault (.of_obstacle? low high obstacle)
  exact ⟨step_eq_ok_iff.mpr ⟨free, rfl, rfl⟩, depth_successor_within low high free⟩

theorem obstacle?_strict_eq_none_iff (m : Machine) :
    m.obstacle? true = none ↔ m.obstacle? false = none ∧ m.wordAtPc.supported = true := by
  simp only [obstacle?_eq_none_iff]
  grind

theorem steps_strict_ok_iff (m : Machine) (n : Nat) :
    (m.steps (List.replicate n true)).fault = none ↔
      (m.steps (List.replicate n false)).fault = none ∧
        ∀ w ∈ (m.steps (List.replicate n false)).words, w.supported = true := by
  induction n generalizing m with
  | zero => simp [steps]
  | succ n ih =>
    have now := m.obstacle?_strict_eq_none_iff
    have later := ih m.successor
    rw [List.replicate_succ, List.replicate_succ, steps_cons, steps_cons]
    cases strict : m.obstacle? true with
    | none =>
      obtain ⟨lenient, known⟩ := now.mp strict
      simpa [lenient, known] using later
    | some fault =>
      cases lenient : m.obstacle? false with
      | none => simp_all
      | some other => simp

theorem steps_strict_eq_lenient {n : Nat}
    (ok : (m.steps (List.replicate n true)).fault = none) :
    m.steps (List.replicate n true) = m.steps (List.replicate n false) := by
  induction n generalizing m with
  | zero => rfl
  | succ n ih =>
    obtain ⟨free, rest, split⟩ := steps_cons_ok ok
    have lenient : m.obstacle? false = none := (m.obstacle?_strict_eq_none_iff.mp free).1
    rw [List.replicate_succ, split, ih rest, List.replicate_succ, steps_cons, lenient]

/-- A step faults in the cases that `Stops` lists, with what is told there, and in no others, and
strict steps are the lenient steps as long as every word of these is in the table. -/
theorem step_outcome (m : Machine) (strict : Bool) (n : Nat) :
    (0 ≤ m.stack.depth → m.stack.depth ≤ 12 →
      (∀ fault, m.step strict = .error fault ↔ m.Stops strict fault) ∧
      ((∀ fault, ¬m.Stops strict fault) → ∃ next, m.step strict = .ok (next, m.wordAtPc) ∧
        0 ≤ next.stack.depth ∧ next.stack.depth ≤ 12)) ∧
    ((m.steps (List.replicate n true)).fault = none ↔
      (m.steps (List.replicate n false)).fault = none ∧
        ∀ w ∈ (m.steps (List.replicate n false)).words, w.supported = true) ∧
    ((m.steps (List.replicate n true)).fault = none →
      m.steps (List.replicate n true) = m.steps (List.replicate n false)) := by
  refine ⟨?_, steps_strict_ok_iff m n, steps_strict_eq_lenient⟩
  intro low high
  refine ⟨fun fault => step_eq_error_iff_stops low high, ?_⟩
  intro unstopped
  exact ⟨m.successor, step_ok_of_not_stops low high unstopped⟩

/-- A thirteenth call, and a strict run that differs from the lenient one at the third word. -/
theorem step_outcome_full_stack_and_unknown_word :
    let memory := Memory.writeBlock (Vector.replicate 4096 0) 0
      [0x60, 0x01, 0x70, 0x01, 0x81, 0x28, 0x2A, 0xBC]
    let start := { create ⟨0, 0⟩ 1 1 .modern with memory := memory, pc := 0 }
    let full := { start with
      pc := 6, stack := CallStack.ofList (List.replicate 12 0x300) }
    (0 ≤ full.stack.depth ∧ full.stack.depth ≤ 12 ∧
      full.step false = .error (.stackOverflow 8 (some ⟨0x2ABC⟩))) ∧
    (start.steps [true, true]).fault = none ∧ (start.steps [true, true, true]).fault ≠ none ∧
      (start.steps [false, false, false]).fault = none := by
  intro memory start full
  have low : 0 ≤ full.stack.depth := by decide
  have high : full.stack.depth ≤ 12 := by decide
  have class2 : full.wordAtPc.opcode = 2 := by decide +kernel
  have word : full.wordAtPc = ⟨0x2ABC⟩ := by decide +kernel
  have stops : full.Stops false (.stackOverflow (full.pc + 2) (some full.wordAtPc)) :=
    .stackOverflow (by decide) class2 (by decide)
  rw [word] at stops
  have lenient : (start.steps (List.replicate 3 false)).fault = none := by decide +kernel
  have known : ∀ w ∈ (start.steps (List.replicate 2 false)).words, w.supported = true := by
    decide +kernel
  have unknown : ¬∀ w ∈ (start.steps (List.replicate 3 false)).words, w.supported = true := by
    decide +kernel
  refine ⟨⟨low, high, (((step_outcome full false 0).1 low high).1 _).mpr stops⟩, ?_, ?_, lenient⟩
  · exact (step_outcome start true 2).2.1.mpr ⟨by decide +kernel, known⟩
  · intro ok
    exact unknown ((step_outcome start true 3).2.1.mp ok).2

end Chip8.Machine
