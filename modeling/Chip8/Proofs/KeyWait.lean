import Chip8.Proofs.NextAddress
import Chip8.Proofs.Surroundings

/-!
The wait for a key. While all keys are up the step of FX0A leaves the whole machine as it is, since
it takes back what the fetch added to the program counter; so a run whose instructions never see a
key only lets the timers run down, one tick for each cycle that is not paused. With a key down the
step passes the wait, and then a cycle does so with its first instruction.
-/

namespace Chip8

namespace Keypad

structure IsLowest (keypad : Keypad) (key : Fin 16) : Prop where
  down : keypad.get key = true
  least : ∀ k < key, keypad.get k = false

theorem first?_idle : idle.first? = none := by
  rw [first?_eq_none_iff]
  intro k
  exact Vector.getElem_replicate k.isLt

theorem exists_first?_of_ne_idle {keypad : Keypad} (some_down : keypad ≠ idle) :
    ∃ key, keypad.first? = some key := by
  rw [← Option.ne_none_iff_exists']
  intro none_down
  apply some_down
  rw [first?_eq_none_iff] at none_down
  apply Vector.ext
  intro k inside
  rw [idle, Vector.getElem_replicate]
  exact none_down ⟨k, inside⟩

theorem isLowest_of_first? {keypad : Keypad} {key : Fin 16} (found : keypad.first? = some key) :
    keypad.IsLowest key := by
  obtain ⟨down, i, inside, rfl, before⟩ := List.find?_eq_some_iff_getElem.mp found
  refine ⟨down, ?_⟩
  intro k lower
  have earlier : k.val < i := by
    rw [List.getElem_finRange] at lower
    exact lower
  have up := before k.val earlier
  rw [List.getElem_finRange] at up
  simpa using up

end Keypad

theorem Snapshot.foldl_keypad_idle {snapshots : List Snapshot}
    (up : ∀ s ∈ snapshots, s.keypad = Keypad.idle) :
    snapshots.foldl (fun _ s => s.keypad) Keypad.idle = Keypad.idle := by
  induction snapshots with
  | nil => rfl
  | cons s rest ih =>
    obtain ⟨now, later⟩ := List.forall_mem_cons.mp up
    rw [List.foldl_cons, now, ih later]

namespace RunState

/-- No instruction sees a key: each snapshot leaves the run paused, or running with all keys up. -/
def Keyless (state : RunState) : List Snapshot → Prop
  | [] => True
  | s :: rest =>
    (state.next s = .paused ∨ state.next s = .running ∧ s.keypad = Keypad.idle) ∧
      (state.next s).Keyless rest

def runningCycles (state : RunState) : List Snapshot → Nat
  | [] => 0
  | s :: rest => (if state.next s = .running then 1 else 0) + (state.next s).runningCycles rest

theorem keyless_of_quiet {snapshots : List Snapshot}
    (quiet : ∀ s ∈ snapshots, s.keypad = Keypad.idle ∧ s.pauseToggled = false ∧ s.quit = false) :
    running.Keyless snapshots ∧ running.runningCycles snapshots = snapshots.length := by
  induction snapshots with
  | nil => exact ⟨trivial, rfl⟩
  | cons s rest ih =>
    obtain ⟨now, later⟩ := List.forall_mem_cons.mp quiet
    obtain ⟨keyless, count⟩ := ih later
    have stays : running.next s = running := by simp [next, now]
    rw [Keyless, runningCycles, stays]
    refine ⟨⟨.inr ⟨rfl, now.1⟩, keyless⟩, ?_⟩
    rw [if_pos rfl, count, List.length_cons, Nat.add_comm]

end RunState

namespace Machine

/-- The word that is fetched next is FX0A. -/
structure AtWait (m : Machine) : Prop where
  inside : m.pc.toNat ≤ 0xFFE
  class15 : m.wordAtPc.opcode = 0xF
  low : m.wordAtPc.nn = 0x0A

/-- The machine past its wait, with the number of the key in the register. -/
def passed (m : Machine) (key : Fin 16) : Machine :=
  { m.setV m.wordAtPc.x (UInt8.ofNat key.val) with pc := m.pc + 2 }

/-- The machine after so many ticks, with these keys. -/
def waited (m : Machine) (ticks : Nat) (keypad : Keypad) : Machine :=
  m.within ⟨UInt8.ofNat (m.delay.toNat - ticks), UInt8.ofNat (m.sound.toNat - ticks), keypad⟩

variable {m : Machine} {strict : Bool} {key : Fin 16}

theorem withKeys_eq_waited (m : Machine) (keypad : Keypad) :
    m.withKeys keypad = m.waited 0 keypad := by
  simp [waited, within, withKeys]

theorem tick_eq_waited (m : Machine) : m.tick = m.waited 1 m.keypad := by
  have delay := Surroundings.toNat_countdown m.delay
  have sound := Surroundings.toNat_countdown m.sound
  rw [waited, ← delay, ← sound, UInt8.ofNat_toNat, UInt8.ofNat_toNat]
  rfl

theorem waited_waited (m : Machine) (a b : Nat) (first second : Keypad) :
    (m.waited a first).waited b second = m.waited (a + b) second := by
  have left (timer : UInt8) :
      UInt8.ofNat ((UInt8.ofNat (timer.toNat - a)).toNat - b) =
        UInt8.ofNat (timer.toNat - (a + b)) := by
    have small := timer.toNat_lt
    rw [UInt8.toNat_ofNat', Nat.mod_eq_of_lt (by omega), Nat.sub_sub]
  simp only [waited, within, left]

theorem AtWait.waited (wait : m.AtWait) (ticks : Nat) (keypad : Keypad) :
    (m.waited ticks keypad).AtWait :=
  ⟨wait.inside, wait.class15, wait.low⟩

theorem AtWait.ofWord? (wait : m.AtWait) :
    Instruction.ofWord? m.wordAtPc = some (.waitKey m.wordAtPc.x) :=
  (Instruction.Reads.waitKey wait.class15 wait.low).ofWord?

theorem AtWait.obstacle? (wait : m.AtWait) (strict : Bool) : m.obstacle? strict = none := by
  have inside := wait.inside
  have call : m.wordAtPc.isCall = false := by rw [Word.isCall_eq, wait.ofWord?]
  have ret : m.wordAtPc.isReturn = false := by rw [Word.isReturn_eq, wait.ofWord?]
  have known : m.wordAtPc.supported = true := by
    rw [Word.supported, wait.ofWord?]
    rfl
  rw [obstacle?_eq_none_iff, canFetch_iff]
  exact ⟨by omega, by simp [call], by simp [ret], fun _ => known⟩

/-- What the fetch adds to the program counter the wait takes back. -/
theorem AtWait.successor_of_up (wait : m.AtWait) (up : m.keypad = Keypad.idle) :
    m.successor = m := by
  have none_down : m.advance.keypad.first? = none := by
    change m.keypad.first? = none
    rw [up, Keypad.first?_idle]
  have back : m.advance.pc - 2 = m.pc := UInt16.add_sub_cancel ..
  rw [successor, wait.ofWord?, perform, apply_waitKey, target, if_pos none_down, none_down, back]
  rfl

theorem AtWait.successor_of_first? (wait : m.AtWait) (down : m.keypad.first? = some key) :
    m.successor = m.passed key := by
  have found : m.advance.keypad.first? = some key := down
  rw [successor, wait.ofWord?, perform, apply_waitKey, target, found]
  rfl

theorem AtWait.trace_steps (wait : m.AtWait) (up : m.keypad = Keypad.idle) (k : Nat) :
    m.trace (List.replicate k (.step strict)) = ⟨List.replicate k m.wordAtPc, m, none⟩ := by
  induction k with
  | zero => rfl
  | succ k ih =>
    rw [List.replicate_succ, trace_step, wait.obstacle?, wait.successor_of_up up, ih]
    rfl

end Machine

namespace Controller

variable {c : Controller} {key : Fin 16}

/-- What a frame does when its instructions are done: the timers move and the screen is shown. -/
def finishFrame : Controller × Option Fault → Controller × Option Fault
  | (done, none) =>
    ({ done with machine := done.machine.tick, cycles := done.cycles + 1 }.present, none)
  | failed => failed

theorem frame_eq_finishFrame (c : Controller) :
    c.frame = finishFrame (c.steps c.settings.instructions.toNat) := by
  rw [frame]
  rcases c.steps c.settings.instructions.toNat with ⟨done, _ | fault⟩ <;> rfl

theorem cycleTrace_of_wait (wait : c.machine.AtWait)
    (keyless : c.upcoming = .paused ∨
      c.upcoming = .running ∧ c.input.poll.1.keypad = Keypad.idle) :
    c.cycleTrace.fault = none ∧
      c.cycleTrace.machine =
        c.machine.waited (if c.upcoming = .running then 1 else 0) c.input.poll.1.keypad := by
  have held := wait.waited 0 c.input.poll.1.keypad
  rcases keyless with pauses | ⟨runs, up⟩
  · have still : c.cycleTrace = ⟨[], c.machine.withKeys c.input.poll.1.keypad, none⟩ := by
      rw [cycleTrace, pauses]
      rfl
    rw [still, pauses]
    exact ⟨rfl, c.machine.withKeys_eq_waited _⟩
  · rw [cycleTrace, runs, FrameSettings.operations, Machine.trace_keys, Machine.withKeys_eq_waited,
      Machine.trace_append, held.trace_steps up]
    refine ⟨rfl, ?_⟩
    change (c.machine.waited 0 c.input.poll.1.keypad).tick = _
    rw [Machine.tick_eq_waited, Machine.waited_waited, if_pos rfl]
    rfl

theorem cycle_of_wait (wait : c.machine.AtWait) (going : c.runState ≠ .quit)
    (keyless : c.upcoming = .paused ∨
      c.upcoming = .running ∧ c.input.poll.1.keypad = Keypad.idle) :
    ∃ next, c.cycle = (next, none) ∧ next.settings = c.settings ∧ next.runState = c.upcoming ∧
      next.input = c.input.poll.2 ∧
      next.cycles = c.cycles + (if c.upcoming = .running then 1 else 0) ∧
      next.machine =
        c.machine.waited (if c.upcoming = .running then 1 else 0) c.input.poll.1.keypad := by
  obtain ⟨d, cycled⟩ := cycle_eq going
  obtain ⟨ok, machine⟩ := cycleTrace_of_wait wait keyless
  rw [ok] at cycled
  exact ⟨_, cycled, c.cycled_settings, c.cycled_runState, c.cycled_input, cycled_cycles ok,
    c.cycled_machine.trans machine⟩

structure Waited (c : Controller) (snapshots : List Snapshot) (last : Controller) : Prop where
  settings : last.settings = c.settings
  runState : last.runState = snapshots.foldl RunState.next c.runState
  going : last.runState ≠ .quit
  cycles : last.cycles = c.cycles + c.runState.runningCycles snapshots
  machine : last.machine =
    c.machine.waited (c.runState.runningCycles snapshots)
      (snapshots.foldl (fun _ s => s.keypad) c.machine.keypad)

theorem run_of_wait {n : Nat} (wait : c.machine.AtWait) (going : c.runState ≠ .quit)
    (keyless : c.runState.Keyless (c.input.polls n).1) :
    ∃ last, c.run n = (last, none) ∧ last.input = (c.input.polls n).2 ∧
      Waited c (c.input.polls n).1 last := by
  -- from the first cycle on; ticks and keys leave the machine at its wait
  induction n generalizing c with
  | zero =>
    exact ⟨c, rfl, rfl, rfl, rfl, going, rfl, c.machine.withKeys_eq_waited c.machine.keypad⟩
  | succ n ih =>
    obtain ⟨now, later⟩ := keyless
    obtain ⟨next, cycled, settings, state, input, cycles, machine⟩ := cycle_of_wait wait going now
    have still : next.runState ≠ .quit := by
      rw [state, upcoming]
      rcases now with pauses | ⟨runs, -⟩
      · simp [pauses]
      · simp [runs]
    have waits : next.machine.AtWait := by
      rw [machine]
      exact wait.waited _ _
    obtain ⟨last, ran, left, done⟩ := ih waits still (by rw [state, input]; exact later)
    rw [run_succ_of_cycle_ok n cycled]
    rw [input] at left done
    refine ⟨last, ran, left, done.settings.trans settings, ?_, done.going, ?_, ?_⟩
    · rw [done.runState, state]
      rfl
    · rw [done.cycles, cycles, state, Nat.add_assoc]
      rfl
    · rw [done.machine, machine, state, Machine.waited_waited]
      rfl

/-- The first instruction of the next cycle passes the wait and leads to `next`, and the rest of
the cycle goes on from there. -/
structure Passes (c : Controller) (key : Fin 16) (next : Controller) : Prop where
  machine :
    next.machine = ({ c.machine with keypad := c.input.poll.1.keypad } : Machine).passed key
  instructions : next.instructions = c.instructions + 1
  cycle : c.cycle = finishFrame (next.steps (c.settings.instructions.toNat - 1))

theorem exists_passes (wait : c.machine.AtWait) (going : c.runState ≠ .quit)
    (running : c.upcoming = .running) (down : c.input.poll.1.keypad.first? = some key)
    (busy : 0 < c.settings.instructions) : ∃ next, Passes c key next := by
  have held : c.poll.machine.AtWait := by
    change (c.machine.withKeys c.input.poll.1.keypad).AtWait
    rw [Machine.withKeys_eq_waited]
    exact wait.waited 0 _
  obtain ⟨d, stepped⟩ := c.poll.step_eq
  rw [held.obstacle?, held.successor_of_first? down] at stepped
  have count : c.settings.instructions.toNat = c.settings.instructions.toNat - 1 + 1 := by omega
  refine ⟨(c.poll.absorb ⟨[c.poll.machine.wordAtPc], c.poll.machine.passed key, none⟩).reporting d,
    rfl, rfl, ?_⟩
  rw [cycle_of_ne_quit going, running]
  change c.poll.frame = _
  rw [frame_eq_finishFrame]
  change finishFrame (c.poll.steps c.settings.instructions.toNat) = _
  rw [count, steps, stepped]
  rfl

end Controller

namespace Machine

variable {m : Machine}

/-- At FX0A a step without a key changes nothing at all, and cycles without a key only let the
timers run down. With keys down the step puts the lowest into the register and goes on, and so does
the first instruction of the first running cycle that a key is down in. -/
theorem wait_for_key (wait : m.AtWait) :
    (m.keypad = Keypad.idle → ∀ strict, m.step strict = .ok (m, m.wordAtPc)) ∧
    (m.keypad ≠ Keypad.idle → ∃ key, m.keypad.IsLowest key ∧
      (m.pc + 2).toNat = m.pc.toNat + 2 ∧
      ∀ strict, m.step strict = .ok (m.passed key, m.wordAtPc)) ∧
    ∀ (c : Controller) (n : Nat), c.machine = m →
      (c.runState = .running → m.keypad = Keypad.idle →
        (∀ s ∈ (c.input.polls n).1,
          s.keypad = Keypad.idle ∧ s.pauseToggled = false ∧ s.quit = false) →
        ∃ last, c.run n = (last, none) ∧ last.cycles = c.cycles + n ∧
          last.machine =
            { m with
              delay := UInt8.ofNat (m.delay.toNat - n)
              sound := UInt8.ofNat (m.sound.toNat - n) }) ∧
      (c.runState ≠ .quit → c.runState.Keyless (c.input.polls n).1 →
        ∃ last, c.run n = (last, none) ∧ last.input = (c.input.polls n).2 ∧
          c.Waited (c.input.polls n).1 last ∧
          (last.upcoming = .running → last.input.poll.1.keypad ≠ Keypad.idle →
            0 < last.settings.instructions →
            ∃ key next, last.input.poll.1.keypad.IsLowest key ∧ last.Passes key next)) := by
  refine ⟨?_, ?_, ?_⟩
  · intro up strict
    exact step_eq_ok_iff.mpr ⟨wait.obstacle? strict, (wait.successor_of_up up).symm, rfl⟩
  · intro down
    obtain ⟨key, found⟩ := Keypad.exists_first?_of_ne_idle down
    have low := wait.inside
    refine ⟨key, Keypad.isLowest_of_first? found, ?_, ?_⟩
    · rw [toNat_add_two]
      omega
    · intro strict
      exact step_eq_ok_iff.mpr ⟨wait.obstacle? strict, (wait.successor_of_first? found).symm, rfl⟩
  · rintro c n rfl
    constructor
    · intro running up quiet
      have length := c.input.length_polls n
      obtain ⟨keyless, count⟩ := RunState.keyless_of_quiet quiet
      rw [← running] at keyless count
      obtain ⟨last, ran, -, waited⟩ := Controller.run_of_wait wait (by simp [running]) keyless
      have cycles := waited.cycles
      have machine := waited.machine
      rw [count, length] at cycles machine
      rw [up, Snapshot.foldl_keypad_idle fun s mem => (quiet s mem).1] at machine
      refine ⟨last, ran, cycles, machine.trans ?_⟩
      rw [← up]
      rfl
    · intro going keyless
      obtain ⟨last, ran, left, waited⟩ := Controller.run_of_wait wait going keyless
      refine ⟨last, ran, left, waited, ?_⟩
      intro running down busy
      obtain ⟨key, found⟩ := Keypad.exists_first?_of_ne_idle down
      have still : last.machine.AtWait := by
        rw [waited.machine]
        exact wait.waited _ _
      obtain ⟨next, passes⟩ := Controller.exists_passes still waited.going running found busy
      exact ⟨key, next, Keypad.isLowest_of_first? found, passes⟩

/-- The wait stands in the last word of memory. The script is idle for two cycles, then pauses with
a key down, and resumes with two keys down. -/
theorem wait_for_key_across_a_pause :
    let memory := Memory.writeBlock (Vector.replicate 4096 0) 0xFFE [0xF3, 0x0A]
    let m := { create ⟨0, 0⟩ 1 1 .modern with
      memory := memory, pc := 0xFFE, delay := 3, sound := 1 }
    let keys := Keypad.ofList [9, 4]
    let c : Controller := .create ⟨2, true, ⟨⟨0, 0, 0⟩, ⟨0, 0, 0⟩⟩, false⟩ m
      (Script.ofList [.idle, .idle, ⟨Keypad.ofList [9], true, false⟩, ⟨keys, true, false⟩])
      ⟨Console.create "" .error false false [], none⟩
    m.AtWait ∧ m.step true = .ok (m, m.wordAtPc) ∧
      (m.withKeys keys).step false = .ok ((m.withKeys keys).passed 4, m.wordAtPc) ∧
      (∃ last, c.run 2 = (last, none) ∧ last.machine.delay = 1 ∧ last.machine.sound = 0) ∧
      ∃ last next, c.run 3 = (last, none) ∧ last.machine.delay = 1 ∧ last.Passes 4 next ∧
        next.machine.v.get 3 = 4 ∧ next.machine.pc = 0x1000 := by
  intro memory m keys c
  have word : m.wordAtPc = ⟨0xF30A⟩ := by decide +kernel
  have wait : m.AtWait := ⟨by decide, by rw [word]; decide, by rw [word]; decide⟩
  have lowest (key : Fin 16) (least : keys.IsLowest key) : key = 4 := by
    obtain ⟨down, up⟩ := least
    revert key
    decide
  obtain ⟨stays, -, runs⟩ := wait_for_key wait
  obtain ⟨-, goes, -⟩ := wait_for_key (m := m.withKeys keys) ⟨wait.inside, wait.class15, wait.low⟩
  refine ⟨wait, stays rfl true, ?_, ?_, ?_⟩
  · obtain ⟨key, least, -, passes⟩ := goes (by decide)
    rw [lowest key least] at passes
    exact passes false
  · obtain ⟨last, ran, -, machine⟩ := (runs c 2 rfl).1 rfl rfl (by decide)
    refine ⟨last, ran, ?_, ?_⟩
    · rw [machine]
      rfl
    · rw [machine]
      rfl
  · obtain ⟨last, ran, left, waited, passes⟩ := (runs c 3 rfl).2 (by decide)
      ⟨.inr ⟨rfl, rfl⟩, .inr ⟨rfl, rfl⟩, .inl rfl, trivial⟩
    have resumes : last.input.poll.1 = ⟨keys, true, false⟩ := by
      rw [left]
      rfl
    have running : last.upcoming = .running := by
      rw [Controller.upcoming, waited.runState, resumes]
      rfl
    rw [resumes] at passes
    obtain ⟨key, next, least, past⟩ := passes running (by decide) (by rw [waited.settings]; decide)
    obtain rfl := lowest key least
    have machine := past.machine
    rw [resumes, waited.machine] at machine
    refine ⟨last, next, ran, ?_, past, ?_, ?_⟩
    · rw [waited.machine]
      rfl
    · rw [machine]
      change (m.setV m.wordAtPc.x 4).v.get 3 = 4
      rw [setV, get_set, word]
      rfl
    · rw [machine]
      rfl

end Machine

end Chip8
