import Chip8.Proofs.RunTrace

/-!
Runs in parts and runs side by side. What a cycle does is settled when the snapshot is taken in:
controllers that are alike by then carry out the same instructions, end at the same fault or at
none and show the same frame, whatever their recorders, logs and waits. The keys and the run state
from before the poll have no say in it, since the poll replaces the one and has used the other.
-/

namespace Chip8.Controller

/-- The frame that the next cycle presents, if it does. -/
def shown (c : Controller) : List Framebuffer :=
  if c.cycle.1.recorder.frames = c.recorder.frames then [] else c.cycle.1.recorder.last.toList

/-- The frames that a run presents, in their order. -/
def presented (c : Controller) : Nat → List Framebuffer
  | 0 => []
  | n + 1 => c.shown ++ match c.cycle with
    | (next, none) => next.presented n
    | (_, some _) => []

/-- Alike in what the program has come to, and in what decides how it goes on but the script. -/
structure Alike (a b : Controller) : Prop where
  perFrame : a.settings.instructions = b.settings.instructions
  strict : a.settings.strict = b.settings.strict
  machine : a.machine = b.machine
  runState : a.runState = b.runState
  current : a.current = b.current
  cycles : a.cycles = b.cycles
  instructions : a.instructions = b.instructions

/-- Two runs of so many cycles that go alike. -/
structure SameRun (a b : Controller) (n : Nat) : Prop where
  alike : Alike (a.run n).1 (b.run n).1
  fault : (a.run n).2 = (b.run n).2
  polled : (a.heard n).length = (b.heard n).length
  presented : a.presented n = b.presented n

variable {a b c mid next : Controller} {n k : Nat}

theorem upcoming_of_fault {fault : Fault} (faults : c.cycleTrace.fault = some fault) :
    c.upcoming = .running := by
  rw [cycleTrace] at faults
  cases state : c.upcoming with
  | running => rfl
  | paused => simp [state, FrameSettings.operations] at faults
  | quit => simp [state, FrameSettings.operations] at faults

theorem shown_of_quit (ended : c.runState = .quit) : c.shown = [] := by
  rw [shown, cycle_of_quit ended, if_pos rfl]

theorem recorder_cycle_cases (going : c.runState ≠ .quit) :
    (c.cycleTrace.fault = none ∧ c.upcoming ≠ .quit) ∧
        c.cycle.1.recorder.frames = c.recorder.frames + 1 ∧
        c.cycle.1.recorder.last = some c.cycleTrace.machine.screen ∨
      ¬(c.cycleTrace.fault = none ∧ c.upcoming ≠ .quit) ∧ c.cycle.1.recorder = c.recorder := by
  obtain ⟨d, cycled⟩ := cycle_eq going
  have recorder : c.cycle.1.recorder = c.cycled.recorder := by
    rw [cycled]
    rfl
  rw [recorder]
  cases faults : c.cycleTrace.fault with
  | none =>
    by_cases quits : c.upcoming = .quit
    · right
      rw [Controller.cycled, quits]
      exact ⟨fun presents => presents.2 rfl, rfl⟩
    · left
      rw [cycled_frames faults, cycled_last faults, if_neg quits, if_neg quits]
      exact ⟨⟨rfl, quits⟩, rfl, rfl⟩
  | some fault =>
    right
    rw [Controller.cycled, upcoming_of_fault faults, faults]
    exact ⟨by simp, rfl⟩

theorem shown_of_going (going : c.runState ≠ .quit) :
    c.shown = if c.cycleTrace.fault = none ∧ c.upcoming ≠ .quit
      then [c.cycleTrace.machine.screen] else [] := by
  rcases recorder_cycle_cases going with ⟨presents, frames, last⟩ | ⟨silent, kept⟩
  · rw [shown, frames, last, if_neg (Nat.succ_ne_self _), if_pos presents]
    rfl
  · rw [shown, kept, if_pos rfl, if_neg silent]

theorem shown_of_paused (going : c.runState ≠ .quit) (pauses : c.upcoming = .paused) :
    c.shown = [c.machine.screen] := by
  have still : c.cycleTrace = ⟨[], c.machine.withKeys c.input.poll.1.keypad, none⟩ := by
    rw [cycleTrace, pauses]
    rfl
  rw [shown_of_going going, still, pauses]
  simp [Machine.withKeys]

theorem presented_succ_of_cycle_ok (n : Nat) (cycled : c.cycle = (next, none)) :
    c.presented (n + 1) = c.shown ++ next.presented n := by
  rw [presented, cycled]

theorem presented_succ_of_cycle_fault {fault : Fault} (n : Nat)
    (cycled : c.cycle = (next, some fault)) : c.presented (n + 1) = c.shown := by
  rw [presented, cycled, List.append_nil]

theorem presented_of_quit (ended : c.runState = .quit) (n : Nat) : c.presented n = [] := by
  induction n with
  | zero => rfl
  | succ n ih =>
    rw [presented_succ_of_cycle_ok n (cycle_of_quit ended), shown_of_quit ended, ih]
    rfl

theorem heard_succ_of_cycle_ok (n : Nat) (going : c.runState ≠ .quit)
    (cycled : c.cycle = (next, none)) : c.heard (n + 1) = c.input.poll.1 :: next.heard n := by
  rw [heard, if_neg going, cycled]

theorem heard_succ_of_cycle_fault {fault : Fault} (n : Nat) (going : c.runState ≠ .quit)
    (cycled : c.cycle = (next, some fault)) : c.heard (n + 1) = [c.input.poll.1] := by
  rw [heard, if_neg going, cycled]

theorem run_add (first : c.run k = (mid, none)) (n : Nat) :
    c.run (k + n) = mid.run n ∧ c.presented (k + n) = c.presented k ++ mid.presented n ∧
      c.heard (k + n) = c.heard k ++ mid.heard n := by
  induction k generalizing c with
  | zero =>
    cases first
    rw [Nat.zero_add]
    exact ⟨rfl, rfl, rfl⟩
  | succ k ih =>
    rw [Nat.succ_add]
    by_cases ended : c.runState = .quit
    · rw [run_of_quit ended, Prod.mk.injEq] at first
      obtain ⟨rfl, -⟩ := first
      simp only [run_of_quit ended, presented_of_quit ended, heard_of_quit ended]
      exact ⟨trivial, rfl, rfl⟩
    rcases cycled : c.cycle with ⟨next, _ | fault⟩
    · rw [run_succ_of_cycle_ok k cycled] at first
      obtain ⟨run, presented, heard⟩ := ih first
      rw [run_succ_of_cycle_ok _ cycled, presented_succ_of_cycle_ok _ cycled,
        presented_succ_of_cycle_ok _ cycled, heard_succ_of_cycle_ok _ ended cycled,
        heard_succ_of_cycle_ok _ ended cycled, run, presented, heard]
      exact ⟨rfl, (List.append_assoc ..).symm, rfl⟩
    · simp [run_of_cycle_fault k cycled] at first

theorem length_heard_of_going (ran : c.run n = (mid, none)) (going : mid.runState ≠ .quit) :
    (c.heard n).length = n := by
  induction n generalizing c with
  | zero => rfl
  | succ n ih =>
    by_cases ended : c.runState = .quit
    · rw [run_of_quit ended, Prod.mk.injEq] at ran
      rw [← ran.1] at going
      exact absurd ended going
    rcases cycled : c.cycle with ⟨next, _ | fault⟩
    · rw [run_succ_of_cycle_ok n cycled] at ran
      rw [heard_succ_of_cycle_ok n ended cycled, List.length_cons, ih ran]
    · simp [run_of_cycle_fault n cycled] at ran

theorem polls_of_going (ran : c.run n = (mid, none)) (going : mid.runState ≠ .quit) :
    c.input.polls n = (c.heard n, mid.input) := by
  have polls := c.polls_heard n
  rwa [length_heard_of_going ran going, ran] at polls

theorem Alike.present (h : Alike a b) : Alike a.present b.present :=
  ⟨h.perFrame, h.strict, h.machine, h.runState, h.current, h.cycles, h.instructions⟩

theorem Alike.reporting (h : Alike a b) (d e : Diagnostics) :
    Alike (a.reporting d) (b.reporting e) :=
  ⟨h.perFrame, h.strict, h.machine, h.runState, h.current, h.cycles, h.instructions⟩

theorem Alike.counted (h : Alike a b) :
    Alike { a with cycles := a.cycles + 1 } { b with cycles := b.cycles + 1 } :=
  ⟨h.perFrame, h.strict, h.machine, h.runState, h.current, congrArg (· + 1) h.cycles,
    h.instructions⟩

theorem Alike.poll (h : Alike a b) (same : a.input.poll.1 = b.input.poll.1) :
    Alike a.poll b.poll where
  perFrame := h.perFrame
  strict := h.strict
  machine := by
    change a.machine.withKeys a.input.poll.1.keypad = b.machine.withKeys b.input.poll.1.keypad
    rw [h.machine, same]
  runState := by
    change a.runState.next a.input.poll.1 = b.runState.next b.input.poll.1
    rw [h.runState, same]
  current := h.current
  cycles := h.cycles
  instructions := h.instructions

theorem Alike.cycleTrace (polled : Alike a.poll b.poll) : a.cycleTrace = b.cycleTrace := by
  have perFrame : a.settings.instructions = b.settings.instructions := polled.perFrame
  have strict : a.settings.strict = b.settings.strict := polled.strict
  have machine : a.machine.withKeys a.input.poll.1.keypad =
      b.machine.withKeys b.input.poll.1.keypad := polled.machine
  have state : a.upcoming = b.upcoming := polled.runState
  rw [Controller.cycleTrace, Controller.cycleTrace, state]
  cases b.upcoming with
  | running =>
    simp only [FrameSettings.operations, Machine.trace_keys, machine, perFrame, strict]
  | paused => simp only [FrameSettings.operations, Machine.trace_keys, machine]
  | quit => simp only [FrameSettings.operations, Machine.trace_keys, machine]

theorem Alike.cycled (polled : Alike a.poll b.poll) : Alike a.cycled b.cycled := by
  have state : a.upcoming = b.upcoming := polled.runState
  have trace := polled.cycleTrace
  have worked : Alike a.worked b.worked := by
    refine ⟨polled.perFrame, polled.strict, congrArg Trace.machine trace, state, ?_,
      polled.cycles, ?_⟩
    · change a.cycleTrace.words.getLast?.or a.poll.current =
        b.cycleTrace.words.getLast?.or b.poll.current
      rw [trace, polled.current]
    · change a.poll.instructions + a.cycleTrace.words.length =
        b.poll.instructions + b.cycleTrace.words.length
      rw [trace, polled.instructions]
  rw [Controller.cycled, Controller.cycled, state, trace]
  cases b.upcoming with
  | running =>
    cases b.cycleTrace.fault with
    | none => exact worked.counted.present
    | some fault => exact worked
  | paused => exact worked.present
  | quit => exact worked

theorem Alike.cycle_of_poll (goingA : a.runState ≠ .quit) (goingB : b.runState ≠ .quit)
    (polled : Alike a.poll b.poll) :
    Alike a.cycle.1 b.cycle.1 ∧ a.cycle.2 = b.cycle.2 ∧ a.shown = b.shown := by
  have state : a.upcoming = b.upcoming := polled.runState
  have trace := polled.cycleTrace
  obtain ⟨d, cycledA⟩ := cycle_eq goingA
  obtain ⟨e, cycledB⟩ := cycle_eq goingB
  refine ⟨?_, ?_, ?_⟩
  · rw [cycledA, cycledB]
    exact polled.cycled.reporting d e
  · rw [cycledA, cycledB, trace]
  · rw [shown_of_going goingA, shown_of_going goingB, state, trace]

theorem SameRun.of_quit (alike : Alike a b) (ended : a.runState = .quit) (n : Nat) :
    SameRun a b n := by
  have endedB : b.runState = .quit := alike.runState.symm.trans ended
  constructor
  · rwa [run_of_quit ended, run_of_quit endedB]
  · rw [run_of_quit ended, run_of_quit endedB]
  · rw [heard_of_quit ended, heard_of_quit endedB]
  · rw [presented_of_quit ended, presented_of_quit endedB]

theorem SameRun.succ (goingA : a.runState ≠ .quit) (goingB : b.runState ≠ .quit)
    (polled : Alike a.poll b.poll)
    (later : Alike a.cycle.1 b.cycle.1 → SameRun a.cycle.1 b.cycle.1 n) : SameRun a b (n + 1) := by
  obtain ⟨alike, fault, shown⟩ := polled.cycle_of_poll goingA goingB
  have later := later alike
  rcases cycledA : a.cycle with ⟨nextA, faultA⟩
  rcases cycledB : b.cycle with ⟨nextB, faultB⟩
  rw [cycledA, cycledB] at alike fault later
  obtain rfl : faultA = faultB := fault
  cases faultA with
  | none =>
    constructor
    · rw [run_succ_of_cycle_ok n cycledA, run_succ_of_cycle_ok n cycledB]
      exact later.alike
    · rw [run_succ_of_cycle_ok n cycledA, run_succ_of_cycle_ok n cycledB]
      exact later.fault
    · rw [heard_succ_of_cycle_ok n goingA cycledA, heard_succ_of_cycle_ok n goingB cycledB,
        List.length_cons, List.length_cons, later.polled]
    · rw [presented_succ_of_cycle_ok n cycledA, presented_succ_of_cycle_ok n cycledB, shown,
        later.presented]
  | some fault =>
    constructor
    · rw [run_of_cycle_fault n cycledA, run_of_cycle_fault n cycledB]
      exact alike
    · rw [run_of_cycle_fault n cycledA, run_of_cycle_fault n cycledB]
    · rw [heard_succ_of_cycle_fault n goingA cycledA, heard_succ_of_cycle_fault n goingB cycledB]
      rfl
    · rw [presented_succ_of_cycle_fault n cycledA, presented_succ_of_cycle_fault n cycledB, shown]

theorem SameRun.reaches (same : SameRun a b n) (ran : b.run n = (mid, none)) :
    ∃ reached, a.run n = (reached, none) ∧ Alike reached mid := by
  have fault := same.fault
  have alike := same.alike
  rw [ran] at fault alike
  exact ⟨_, Prod.ext rfl fault, alike⟩

theorem Alike.run (alike : Alike a b) (same : (a.input.polls n).1 = (b.input.polls n).1) :
    SameRun a b n := by
  induction n generalizing a b with
  | zero => exact ⟨alike, rfl, rfl, rfl⟩
  | succ n ih =>
    by_cases ended : a.runState = .quit
    · exact .of_quit alike ended (n + 1)
    have endedB : b.runState ≠ .quit := fun quits => ended (alike.runState.trans quits)
    obtain ⟨now, rest⟩ := List.cons.inj same
    apply SameRun.succ ended endedB (alike.poll now)
    intro next
    apply ih next
    rwa [input_cycle ended, input_cycle endedB]

end Chip8.Controller
