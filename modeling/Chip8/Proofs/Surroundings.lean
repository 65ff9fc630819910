import Chip8.Proofs.Lockstep
import Chip8.Proofs.RunTrace

/-!
The timers and the keypad are what moves in a machine without its program. Six rows of the table
look at them or set them; every other instruction does the same in all surroundings and leaves
these as they are. So ticks and key changes may be put between the steps of a program that uses
none of the six in any way: it carries out the same words, ends at the same fault or at none, and
only the surroundings tell how it was cut.
-/

namespace Chip8

structure Surroundings where
  delay : UInt8
  sound : UInt8
  keypad : Keypad
  deriving DecidableEq, Repr

def Operation.isTick : Operation → Bool
  | .tick => true
  | _ => false

def Operation.keypad? : Operation → Option Keypad
  | .keys keypad => some keypad
  | _ => none

/-- The operations ahead of the step that follows so many steps; all of them if there is none. -/
def Operation.ahead : Nat → List Operation → List Operation
  | _, [] => []
  | 0, .step _ :: _ => []
  | k + 1, .step strict :: rest => .step strict :: ahead k rest
  | k, .tick :: rest => .tick :: ahead k rest
  | k, .keys keypad :: rest => .keys keypad :: ahead k rest

theorem Operation.ahead_of_countP_le {k : Nat} {ops : List Operation}
    (few : ops.countP Operation.isStep ≤ k) : Operation.ahead k ops = ops := by
  induction ops generalizing k with
  | nil => rfl
  | cons op rest ih =>
    cases op with
    | tick =>
      rw [ahead, ih]
      simpa [isStep] using few
    | keys keypad =>
      rw [ahead, ih]
      simpa [isStep] using few
    | step strict =>
      rw [List.countP_cons_of_pos rfl] at few
      cases k with
      | zero => omega
      | succ k => rw [ahead, ih (by omega)]

namespace Surroundings

def react (s : Surroundings) : Operation → Surroundings
  | .step _ => s
  | .tick =>
    { s with
      delay := if s.delay = 0 then 0 else s.delay - 1
      sound := if s.sound = 0 then 0 else s.sound - 1 }
  | .keys keypad => { s with keypad := keypad }

def after (s : Surroundings) (ops : List Operation) : Surroundings := ops.foldl react s

theorem toNat_countdown (timer : UInt8) :
    (if timer = 0 then 0 else timer - 1 : UInt8).toNat = timer.toNat - 1 := by
  by_cases done : timer = 0
  · simp [done]
  · have running : timer.toNat ≠ 0 := fun zero => done (UInt8.toNat_inj.mp zero)
    have least : (1 : UInt8) ≤ timer := by
      rw [UInt8.le_iff_toNat_le]
      change 1 ≤ timer.toNat
      omega
    rw [if_neg done, UInt8.toNat_sub_of_le timer 1 least]
    rfl

theorem timer_after {timer : Surroundings → UInt8}
    (counts : ∀ s op, (timer (s.react op)).toNat = (timer s).toNat - if op.isTick then 1 else 0)
    (s : Surroundings) (ops : List Operation) :
    timer (s.after ops) = UInt8.ofNat ((timer s).toNat - ops.countP Operation.isTick) := by
  rw [← UInt8.ofNat_toNat (x := timer (s.after ops))]
  congr 1
  induction ops generalizing s with
  | nil => rfl
  | cons op rest ih =>
    have next : s.after (op :: rest) = (s.react op).after rest := rfl
    rw [next, ih, counts, List.countP_cons]
    omega

theorem delay_after (s : Surroundings) (ops : List Operation) :
    (s.after ops).delay = UInt8.ofNat (s.delay.toNat - ops.countP Operation.isTick) := by
  apply timer_after
  intro s op
  cases op with
  | tick => exact toNat_countdown s.delay
  | _ => rfl

theorem sound_after (s : Surroundings) (ops : List Operation) :
    (s.after ops).sound = UInt8.ofNat (s.sound.toNat - ops.countP Operation.isTick) := by
  apply timer_after
  intro s op
  cases op with
  | tick => exact toNat_countdown s.sound
  | _ => rfl

theorem keypad_after (s : Surroundings) (ops : List Operation) :
    (s.after ops).keypad = (ops.filterMap Operation.keypad?).getLast?.getD s.keypad := by
  induction ops generalizing s with
  | nil => rfl
  | cons op rest ih =>
    have next : s.after (op :: rest) = (s.react op).after rest := rfl
    rw [next, ih]
    cases op with
    | keys keypad =>
      have given : Operation.keypad? (.keys keypad) = some keypad := rfl
      rw [List.filterMap_cons_some given, List.getLast?_cons]
      rfl
    | _ => rw [List.filterMap_cons_none rfl]; rfl

end Surroundings

namespace TableRow

/-- FX07, FX0A, FX15, FX18, EX9E and EXA1. -/
def timersAndKeys : List TableRow :=
  [ofByte 0xF 0x07, ofByte 0xF 0x0A, ofByte 0xF 0x15, ofByte 0xF 0x18, ofByte 0xE 0x9E,
    ofByte 0xE 0xA1]

end TableRow

namespace Machine

variable {m : Machine} {s : Surroundings} {ops : List Operation}

def surroundings (m : Machine) : Surroundings := ⟨m.delay, m.sound, m.keypad⟩

def within (m : Machine) (s : Surroundings) : Machine :=
  { m with delay := s.delay, sound := s.sound, keypad := s.keypad }

@[simp] theorem within_surroundings (m : Machine) : m.within m.surroundings = m := rfl

theorem tick_within (m : Machine) (s : Surroundings) :
    (m.within s).tick = m.within (s.react .tick) := rfl

theorem withKeys_within (m : Machine) (s : Surroundings) (keypad : Keypad) :
    (m.within s).withKeys keypad = m.within (s.react (.keys keypad)) := rfl

theorem apply_within {i : Instruction} (blind : i.row ∉ TableRow.timersAndKeys) (m : Machine)
    (s : Surroundings) : (m.within s).apply i = (m.apply i).within s := by
  cases i with
  | skip condition =>
    cases condition with
    | keyDown x => exact absurd (by simp [Instruction.row, TableRow.timersAndKeys]) blind
    | keyUp x => exact absurd (by simp [Instruction.row, TableRow.timersAndKeys]) blind
    | _ =>
      rw [apply_skip, apply_skip]
      rfl
  | readDelay x => exact absurd (by simp [Instruction.row, TableRow.timersAndKeys]) blind
  | waitKey x => exact absurd (by simp [Instruction.row, TableRow.timersAndKeys]) blind
  | setDelay x => exact absurd (by simp [Instruction.row, TableRow.timersAndKeys]) blind
  | setSound x => exact absurd (by simp [Instruction.row, TableRow.timersAndKeys]) blind
  | _ => rfl

theorem lockstep_within (s : Surroundings) :
    Lockstep TableRow.timersAndKeys fun a b => b = a.within s :=
  .of_commuting (by simp [TableRow.timersAndKeys]) (fun _ => rfl) (fun _ => rfl) (fun _ => rfl)
    (fun _ => rfl) fun m _ blind => apply_within blind m s

/-- The steps of a trace go as they would alone, and the rest only moves the surroundings. -/
theorem trace_within
    (blind : ∀ w ∈ (m.trace (ops.filter Operation.isStep)).words,
      w.among TableRow.timersAndKeys = false) :
    let plain := m.trace (ops.filter Operation.isStep)
    (m.within s).trace ops =
      ⟨plain.words, plain.machine.within (s.after (Operation.ahead plain.words.length ops)),
        plain.fault⟩ := by
  induction ops generalizing m s with
  | nil => rfl
  | cons op rest ih =>
    cases op with
    | tick =>
      simp only [Operation.ahead, trace_tick, tick_within]
      exact ih blind
    | keys keypad =>
      simp only [Operation.ahead, trace_keys, withKeys_within]
      exact ih blind
    | step strict =>
      have kept : (Operation.step strict :: rest).filter Operation.isStep =
          .step strict :: rest.filter Operation.isStep := rfl
      rw [kept] at blind ⊢
      rw [trace_step] at blind
      rw [trace_step, trace_step, ← (lockstep_within s).obstacle? rfl]
      cases free : m.obstacle? strict with
      | some fault => rfl
      | none =>
        rw [free] at blind
        obtain ⟨now, later⟩ := List.forall_mem_cons.mp blind
        have rest := ih later (s := s)
        simp only [(lockstep_within s).successor rfl now, rest]
        rfl

end Machine

theorem Controller.filter_isStep_agenda {c : Controller} (running : c.runState = .running) (n : Nat)
    (quiet : ∀ s ∈ (c.input.polls n).1, s.pauseToggled = false ∧ s.quit = false) :
    (c.agenda n).filter Operation.isStep =
      List.replicate (n * c.settings.instructions.toNat) (.step c.settings.strict) := by
  suffices general : ∀ input : Script,
      (∀ s ∈ (input.polls n).1, s.pauseToggled = false ∧ s.quit = false) →
      (c.settings.agenda .running input n).filter Operation.isStep =
        List.replicate (n * c.settings.instructions.toNat) (.step c.settings.strict) by
    rw [agenda, running]
    exact general c.input quiet
  clear quiet
  induction n with
  | zero =>
    intro input _
    simp [FrameSettings.agenda]
  | succ n ih =>
    intro input quiet
    obtain ⟨now, later⟩ := List.forall_mem_cons.mp quiet
    have stays : RunState.running.next input.poll.1 = .running := by simp [RunState.next, now]
    have frame : (c.settings.operations input.poll.1 .running).filter Operation.isStep =
        List.replicate c.settings.instructions.toNat (.step c.settings.strict) := by
      simp [FrameSettings.operations, Operation.isStep]
    rw [FrameSettings.agenda, if_neg (by decide), stays, List.filter_append, frame, ih _ later,
      List.replicate_append_replicate, Nat.succ_mul, Nat.add_comm]

namespace Machine

/-- Ticks and key changes put between the steps of a program that uses neither timers nor keys, and
frames of any length, change nothing but the timers and the keypad at the end. -/
theorem timers_and_keys_do_not_interfere (m : Machine) (ops : List Operation)
    (blind : ∀ w ∈ (m.trace (ops.filter Operation.isStep)).words,
      w.among TableRow.timersAndKeys = false) :
    let plain := m.trace (ops.filter Operation.isStep)
    let done := Operation.ahead plain.words.length ops
    (m.trace ops).words = plain.words ∧ (m.trace ops).fault = plain.fault ∧
    (m.trace ops).machine =
      { plain.machine with
        delay := UInt8.ofNat (m.delay.toNat - done.countP Operation.isTick)
        sound := UInt8.ofNat (m.sound.toNat - done.countP Operation.isTick)
        keypad := (done.filterMap Operation.keypad?).getLast?.getD m.keypad } ∧
    (plain.fault = none → done = ops) ∧
    ∀ (c : Controller) (n : Nat), c.machine = m →
      (c.agenda n).filter Operation.isStep = ops.filter Operation.isStep →
      (c.run n).2 = plain.fault ∧
      (c.run n).1.instructions = c.instructions + plain.words.length ∧
      (c.run n).1.current = plain.words.getLast?.or c.current ∧
      ∃ s, (c.run n).1.machine = plain.machine.within s := by
  intro plain done
  have mixed : m.trace ops =
      ⟨plain.words, plain.machine.within (m.surroundings.after done), plain.fault⟩ :=
    trace_within (s := m.surroundings) blind
  refine ⟨by rw [mixed], by rw [mixed], ?_, ?_, ?_⟩
  · rw [mixed, within, Surroundings.delay_after, Surroundings.sound_after,
      Surroundings.keypad_after]
    rfl
  · intro ok
    have count := length_words_trace _ ok
    apply Operation.ahead_of_countP_le
    rw [count, List.countP_filter]
    simp
  · intro c n start sameSteps
    have reports := c.reports_run n
    rw [Controller.runTrace, start] at reports
    rw [← sameSteps] at blind
    have cut := trace_within (s := m.surroundings) blind
    rw [within_surroundings, sameSteps] at cut
    rw [cut] at reports
    exact ⟨reports.fault, reports.instructions, reports.current, _, reports.machine⟩

/-- The fourth step returns from nowhere. Frames of two steps and of four steps come to the same as
the bare steps, and so do steps with ticks and keys between them. -/
theorem timers_and_keys_do_not_interfere_up_to_a_fault :
    let memory := Memory.writeBlock (Vector.replicate 4096 0) 0
      [0x61, 0x05, 0xC2, 0x0F, 0x81, 0x14, 0x00, 0xEE]
    let m := { create ⟨0, 0⟩ 1 1 .modern with memory := memory, pc := 0, delay := 9, sound := 1 }
    let ops : List Operation := [.keys (Keypad.ofList [5]), .step false, .tick, .step false, .tick,
      .step false, .keys (Keypad.ofList [7]), .step false, .tick, .keys Keypad.idle]
    let fault : Fault := .stackUnderflow 8 (some ⟨0x00EE⟩)
    let c (perFrame : Int) : Controller := .create
      ⟨perFrame, false, ⟨⟨0, 0, 0⟩, ⟨0, 0, 0⟩⟩, false⟩ m
      (Script.ofList [⟨Keypad.ofList [3], false, false⟩])
      ⟨Console.create "" .error false false [], none⟩
    (m.trace ops).words = [⟨0x6105⟩, ⟨0xC20F⟩, ⟨0x8114⟩] ∧ (m.trace ops).fault = some fault ∧
      (m.trace ops).machine.delay = 7 ∧ (m.trace ops).machine.sound = 0 ∧
      (m.trace ops).machine.keypad = Keypad.ofList [7] ∧
      ((c 2).run 2).2 = some fault ∧ ((c 4).run 1).2 = some fault ∧
      ((c 2).run 2).1.instructions = 3 ∧ ((c 4).run 1).1.instructions = 3 := by
  intro memory m ops fault c
  let plain := m.trace (ops.filter Operation.isStep)
  have words : plain.words = [⟨0x6105⟩, ⟨0xC20F⟩, ⟨0x8114⟩] := by decide +kernel
  have stops : plain.fault = some fault := by decide +kernel
  have blind : ∀ w ∈ plain.words, w.among TableRow.timersAndKeys = false := by
    rw [words]
    decide
  obtain ⟨sameWords, sameFault, machine, -, frames⟩ := timers_and_keys_do_not_interfere m ops blind
  have twos := (c 2).filter_isStep_agenda rfl 2 (by decide +kernel)
  have fours := (c 4).filter_isStep_agenda rfl 1 (by decide +kernel)
  obtain ⟨faultTwo, countTwo, -⟩ := frames (c 2) 2 rfl twos
  obtain ⟨faultFour, countFour, -⟩ := frames (c 4) 1 rfl fours
  rw [machine, words]
  refine ⟨sameWords.trans words, sameFault.trans stops, by decide, by decide, by decide,
    faultTwo.trans stops, faultFour.trans stops, ?_, ?_⟩
  · rw [countTwo, words]
    rfl
  · rw [countFour, words]
    rfl

end Machine

end Chip8
