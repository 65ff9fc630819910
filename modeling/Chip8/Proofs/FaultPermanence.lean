import Chip8.Proofs.ControllerCycle

/-!
A fault in the middle of a frame. The machine stays at the last good state, the steps before the
fault are counted, and neither the timers nor the frame counters move. From then on the next step
of the machine faults for good: keys do not matter to it, and a paused cycle carries nothing out.
The log and the tally are left open, since a tracer sees the failing word once more each time.
-/

namespace Chip8.Controller

def later (c : Controller) : Nat → Controller
  | 0 => c
  | i + 1 => (c.later i).cycle.1

/-- Nothing was carried out or counted as such since `base`; only the keys may differ. -/
structure Rests (base c : Controller) : Prop where
  settings : c.settings = base.settings
  machine : c.machine = { base.machine with keypad := c.machine.keypad }
  current : c.current = base.current
  cycles : c.cycles = base.cycles
  instructions : c.instructions = base.instructions

structure Blocked (fault : Fault) (c : Controller) : Prop where
  busy : 0 < c.settings.instructions.toNat
  obstacle : c.machine.obstacle? c.settings.strict = some fault

theorem Rests.refl (c : Controller) : Rests c c := ⟨rfl, rfl, rfl, rfl, rfl⟩

theorem Rests.trans {a b c : Controller} (first : Rests a b) (second : Rests b c) : Rests a c where
  settings := second.settings.trans first.settings
  machine := by
    rw [second.machine, first.machine]
  current := second.current.trans first.current
  cycles := second.cycles.trans first.cycles
  instructions := second.instructions.trans first.instructions

theorem Blocked.of_rests {fault : Fault} {base c : Controller} (h : Blocked fault base)
    (rests : Rests base c) : Blocked fault c where
  busy := by
    rw [rests.settings]
    exact h.busy
  obstacle := by
    rw [rests.settings, rests.machine, ← h.obstacle]
    exact Machine.obstacle?_congr rfl rfl rfl _

theorem cycle_of_running_fault {c : Controller} {words : List Word} {good : Machine} {fault : Fault}
    (going : c.runState ≠ .quit) (running : c.upcoming = .running)
    (trace : c.cycleTrace = ⟨words, good, some fault⟩) :
    ∃ d, c.cycle =
      ({ c with
          machine := good
          runState := .running
          input := c.input.poll.2
          current := words.getLast?.or c.current
          instructions := c.instructions + words.length
          diagnostics := d }, some fault) := by
  obtain ⟨d, cycled⟩ := cycle_eq going
  refine ⟨d, ?_⟩
  rw [cycled, Controller.cycled, worked, trace, running]
  rfl

theorem cycleTrace_of_step_error {c : Controller} {j : Nat} {words : List Word} {good : Machine}
    {fault : Fault} (running : c.upcoming = .running) (within : j < c.settings.instructions.toNat)
    (before : (c.machine.withKeys c.input.poll.1.keypad).trace
      (List.replicate j (.step c.settings.strict)) = ⟨words, good, none⟩)
    (raises : good.step c.settings.strict = .error fault) :
    c.cycleTrace = ⟨words, good, some fault⟩ := by
  obtain ⟨r, total⟩ : ∃ r, c.settings.instructions.toNat = j + (r + 1) :=
    ⟨c.settings.instructions.toNat - j - 1, by omega⟩
  have split : List.replicate c.settings.instructions.toNat (Operation.step c.settings.strict) =
      List.replicate j (.step c.settings.strict) ++
        .step c.settings.strict :: List.replicate r (.step c.settings.strict) := by
    rw [total, ← List.replicate_append_replicate, List.replicate_succ]
  have stops := Machine.step_eq_error_iff.mp raises
  rw [cycleTrace, running, FrameSettings.operations, Machine.trace_keys, split, List.append_assoc,
    Machine.trace_append_of_ok (congrArg Trace.fault before), before, List.cons_append,
    Machine.trace_step, stops]
  simp [Trace.after]

theorem Blocked.cycle {fault : Fault} {c : Controller} (h : Blocked fault c)
    (going : c.runState ≠ .quit) (running : c.upcoming = .running) :
    ∃ d, c.cycle =
      ({ c with
          machine := c.machine.withKeys c.input.poll.1.keypad
          runState := .running
          input := c.input.poll.2
          diagnostics := d }, some fault) := by
  have raises :
      (c.machine.withKeys c.input.poll.1.keypad).step c.settings.strict = .error fault := by
    rw [Machine.step_eq_error_iff, ← h.obstacle]
    exact Machine.obstacle?_congr rfl rfl rfl _
  exact cycle_of_running_fault going running (cycleTrace_of_step_error running h.busy rfl raises)

theorem Blocked.rests_cycle {fault : Fault} {c : Controller} (h : Blocked fault c) :
    Rests c c.cycle.1 := by
  by_cases ended : c.runState = .quit
  · rw [cycle_of_quit ended]
    exact .refl c
  cases next : c.upcoming with
  | quit =>
    rw [cycle_of_ne_quit ended, next]
    exact ⟨rfl, rfl, rfl, rfl, rfl⟩
  | paused =>
    rw [cycle_of_ne_quit ended, next]
    exact ⟨rfl, rfl, rfl, rfl, rfl⟩
  | running =>
    obtain ⟨d, cycled⟩ := h.cycle ended next
    rw [cycled]
    exact ⟨rfl, rfl, rfl, rfl, rfl⟩

theorem Blocked.rests_later {fault : Fault} {c : Controller} (h : Blocked fault c) (i : Nat) :
    Rests c (c.later i) := by
  induction i with
  | zero => exact .refl c
  | succ i ih => exact ih.trans (h.of_rests ih).rests_cycle

/-- The step after the first `j` of a frame faults: the cycle ends there with these `j` steps done,
and every later cycle that tries to run ends at the same fault and does nothing. -/
theorem fault_stops_for_good {c : Controller} {j : Nat} {words : List Word} {good : Machine}
    {fault : Fault} (going : c.runState ≠ .quit)
    (running : c.runState.next c.input.poll.1 = .running)
    (within : j < c.settings.instructions.toNat)
    (before : ({ c.machine with keypad := c.input.poll.1.keypad } : Machine).trace
      (List.replicate j (.step c.settings.strict)) = ⟨words, good, none⟩)
    (raises : good.step c.settings.strict = .error fault) :
    (∃ d, c.cycle =
      ({ c with
          machine := good
          runState := .running
          input := c.input.poll.2
          current := words.getLast?.or c.current
          instructions := c.instructions + j
          diagnostics := d }, some fault)) ∧
      ∀ i, Rests c.cycle.1 (c.cycle.1.later i) ∧
        let stuck := c.cycle.1.later i
        stuck.runState ≠ .quit → stuck.runState.next stuck.input.poll.1 = .running →
          ∃ d, stuck.cycle =
            ({ stuck with
                machine := { stuck.machine with keypad := stuck.input.poll.1.keypad }
                runState := .running
                input := stuck.input.poll.2
                diagnostics := d }, some fault) := by
  have length : words.length = j := by
    have count := Machine.length_words_trace
      (List.replicate j (Operation.step c.settings.strict)) (congrArg Trace.fault before)
    simpa [before, List.countP_replicate, Operation.isStep] using count
  have trace := cycleTrace_of_step_error running within before raises
  obtain ⟨d, cycled⟩ := cycle_of_running_fault going running trace
  rw [length] at cycled
  have blocked : Blocked fault c.cycle.1 := by
    rw [cycled]
    exact ⟨Nat.zero_lt_of_lt within, Machine.step_eq_error_iff.mp raises⟩
  refine ⟨⟨d, cycled⟩, ?_⟩
  intro i
  have rests := blocked.rests_later i
  exact ⟨rests, (blocked.of_rests rests).cycle⟩

/-- The second of three steps returns from nowhere; the script then pauses once and resumes. -/
theorem fault_stops_for_good_across_a_pause :
    let memory := Memory.writeBlock (Vector.replicate 4096 0) 0 [0x61, 0x02, 0x00, 0xEE]
    let m := { Machine.create ⟨0, 0⟩ 1 1 .modern with memory := memory, pc := 0 }
    let switch : Snapshot := ⟨Keypad.ofList [5], true, false⟩
    let c := create ⟨3, true, ⟨⟨0, 0, 0⟩, ⟨0, 0, 0⟩⟩, false⟩ m
      (Script.ofList [Snapshot.idle, switch, switch])
      ⟨Console.create "" .error false false [], none⟩
    let fault : Fault := .stackUnderflow 4 (some ⟨0x00EE⟩)
    c.cycle.2 = some fault ∧ c.cycle.1.current = some ⟨0x6102⟩ ∧ c.cycle.1.instructions = 1 ∧
      c.cycle.1.cycles = 0 ∧ (c.cycle.1.later 1).cycle.2 = some fault := by
  intro memory m switch c fault
  let start := c.machine.withKeys c.input.poll.1.keypad
  have free : start.obstacle? c.settings.strict = none := by decide +kernel
  have word : start.wordAtPc = ⟨0x6102⟩ := by decide +kernel
  have stops : start.successor.obstacle? c.settings.strict = some fault := by decide +kernel
  have before : start.trace (List.replicate 1 (.step c.settings.strict)) =
      ⟨[start.wordAtPc], start.successor, none⟩ := by
    rw [List.replicate_succ, Machine.trace_step, free]
    rfl
  obtain ⟨⟨d, cycled⟩, later⟩ := fault_stops_for_good (by decide) (by decide) (by decide) before
    (Machine.step_eq_error_iff.mpr stops)
  obtain ⟨d', again⟩ := (later 1).2 (by decide +kernel) (by decide +kernel)
  refine ⟨by rw [cycled], ?_, by rw [cycled]; rfl, by rw [cycled]; rfl, by rw [again]⟩
  rw [cycled, ← word]
  rfl

end Chip8.Controller
