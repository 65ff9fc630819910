import Chip8.Proofs.ControllerCycle

/-!
A run of the controller as one trace of operations on its machine. Which operations a run sets out
to do is decided by the settings, the run state and the script, never by the machine; a fault only
cuts them off. So what a run does to the machine, the words it counts and the fault it ends with
are read off the trace of this agenda, with or without a fault.
-/

namespace Chip8

/-- The operations of so many cycles, as long as nothing goes wrong. -/
def FrameSettings.agenda (settings : FrameSettings) (state : RunState) (input : Script) :
    Nat → List Operation
  | 0 => []
  | n + 1 =>
    if state = .quit then []
    else
      settings.operations input.poll.1 (state.next input.poll.1) ++
        settings.agenda (state.next input.poll.1) input.poll.2 n

namespace Controller

def agenda (c : Controller) (n : Nat) : List Operation :=
  c.settings.agenda c.runState c.input n

def runTrace (c : Controller) (n : Nat) : Trace := c.machine.trace (c.agenda n)

structure Reports (c : Controller) (t : Trace) (result : Controller × Option Fault) : Prop where
  fault : result.2 = t.fault
  machine : result.1.machine = t.machine
  current : result.1.current = t.words.getLast?.or c.current
  instructions : result.1.instructions = c.instructions + t.words.length

theorem cycled_current (c : Controller) :
    c.cycled.current = c.cycleTrace.words.getLast?.or c.current :=
  cycled_apply current (fun _ _ => rfl) (fun _ => rfl) c

theorem reports_cycle {c : Controller} (going : c.runState ≠ .quit) :
    Reports c c.cycleTrace c.cycle := by
  obtain ⟨d, cycled⟩ := cycle_eq going
  rw [cycled]
  exact ⟨rfl, c.cycled_machine, c.cycled_current, c.cycled_instructions⟩

theorem Reports.after {c next : Controller} {first second : Trace}
    {result : Controller × Option Fault} (start : Reports c first (next, none))
    (rest : Reports next second result) : Reports c (second.after first.words) result where
  fault := rest.fault
  machine := rest.machine
  current := by
    rw [rest.current, start.current, Trace.after_words, List.getLast?_append, Option.or_assoc]
  instructions := by
    rw [rest.instructions, start.instructions, Trace.after_words, List.length_append]
    omega

theorem agenda_of_quit {c : Controller} (ended : c.runState = .quit) (n : Nat) :
    c.agenda n = [] := by
  cases n with
  | zero => rfl
  | succ n => rw [agenda, FrameSettings.agenda, if_pos ended]

theorem agenda_succ {c next : Controller} {fault : Option Fault} (going : c.runState ≠ .quit)
    (cycled : c.cycle = (next, fault)) (n : Nat) :
    c.agenda (n + 1) = c.settings.operations c.input.poll.1 c.upcoming ++ next.agenda n := by
  obtain ⟨d, described⟩ := cycle_eq going
  rw [described, Prod.mk.injEq] at cycled
  obtain ⟨rfl, -⟩ := cycled
  have settings : (c.cycled.reporting d).settings = c.settings := c.cycled_settings
  have state : (c.cycled.reporting d).runState = c.upcoming := c.cycled_runState
  have input : (c.cycled.reporting d).input = c.input.poll.2 := c.cycled_input
  rw [agenda, FrameSettings.agenda, if_neg going, agenda, settings, state, input]
  rfl

theorem run_succ_of_cycle_ok {c next : Controller} (n : Nat) (h : c.cycle = (next, none)) :
    c.run (n + 1) = next.run n := by
  rw [run_of_cycle_ok n h]
  by_cases ended : next.runState = .quit
  · rw [if_pos ended, run_of_quit ended]
  · rw [if_neg ended]

theorem reports_run (c : Controller) (n : Nat) : Reports c (c.runTrace n) (c.run n) := by
  induction n generalizing c with
  | zero => exact ⟨rfl, rfl, rfl, rfl⟩
  | succ n ih =>
    by_cases ended : c.runState = .quit
    · rw [runTrace, agenda_of_quit ended, run_of_quit ended]
      exact ⟨rfl, rfl, rfl, rfl⟩
    have first := reports_cycle ended
    rcases cycled : c.cycle with ⟨next, _ | fault⟩
    · rw [cycled] at first
      have ok : c.cycleTrace.fault = none := first.fault.symm
      have split : c.runTrace (n + 1) = (next.runTrace n).after c.cycleTrace.words := by
        rw [runTrace, agenda_succ ended cycled, runTrace, first.machine]
        exact Machine.trace_append_of_ok ok _
      rw [split, run_succ_of_cycle_ok n cycled]
      exact first.after (ih next)
    · rw [cycled] at first
      have stops : c.cycleTrace.fault = some fault := first.fault.symm
      have cut : c.runTrace (n + 1) = c.cycleTrace := by
        rw [runTrace, agenda_succ ended cycled]
        exact Machine.trace_append_of_fault stops _
      rw [cut, run_of_cycle_fault n cycled]
      exact first

end Controller

end Chip8
