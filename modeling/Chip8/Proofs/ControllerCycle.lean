import Chip8.Controller
import Chip8.Proofs.OperationTrace

/-!
One cycle of the controller as operations on its machine. The keys of the snapshot come first; a
running controller then does the steps of a frame and one move of the timers. What else a cycle
changes is told by the trace of these operations: the words carried out are counted and the last
of them kept, and only a trace without a fault ends in a wait and a presented screen. The log and
the tally are not described here.
-/

namespace Chip8

def FrameSettings.operations (settings : FrameSettings) (snapshot : Snapshot) :
    RunState → List Operation
  | .running =>
    .keys snapshot.keypad ::
      (List.replicate settings.instructions.toNat (.step settings.strict) ++ [.tick])
  | _ => [.keys snapshot.keypad]

/-- So many polls: the snapshots they give, and the script that is left. -/
def Script.polls (script : Script) : Nat → List Snapshot × Script
  | 0 => ([], script)
  | k + 1 =>
    let rest := script.poll.2.polls k
    (script.poll.1 :: rest.1, rest.2)

theorem Script.length_polls (script : Script) (n : Nat) : (script.polls n).1.length = n := by
  induction n generalizing script with
  | zero => rfl
  | succ n ih => rw [polls, List.length_cons, ih]

namespace Controller

/-- The controller after its machine went through a trace. -/
def absorb (c : Controller) (t : Trace) : Controller :=
  { c with
    machine := t.machine
    current := t.words.getLast?.or c.current
    instructions := c.instructions + t.words.length }

/-- The run state that the next snapshot leads to. -/
def upcoming (c : Controller) : RunState := c.runState.next c.input.poll.1

/-- What the next cycle does to the machine. -/
def cycleTrace (c : Controller) : Trace :=
  c.machine.trace (c.settings.operations c.input.poll.1 c.upcoming)

/-- The controller when that is done and nothing is shown yet. -/
def worked (c : Controller) : Controller :=
  { c.absorb c.cycleTrace with runState := c.upcoming, input := c.input.poll.2 }

/-- The controller after its next cycle, the log and the tally aside. -/
def cycled (c : Controller) : Controller :=
  match c.upcoming, c.cycleTrace.fault with
  | .running, none => { c.worked with cycles := c.cycles + 1 }.present
  | .paused, _ => c.worked.present
  | _, _ => c.worked

def reporting (c : Controller) (d : Diagnostics) : Controller := { c with diagnostics := d }

/-- What neither the cycle count nor the presentation touches is as it was left by the work. -/
theorem cycled_apply {α : Type} (field : Controller → α)
    (counted : ∀ c n, field { c with cycles := n } = field c)
    (presented : ∀ c, field c.present = field c) (c : Controller) :
    field c.cycled = field c.worked := by
  rw [cycled]
  cases c.upcoming with
  | running =>
    cases c.cycleTrace.fault with
    | none => exact (presented _).trans (counted _ _)
    | some fault => rfl
  | paused => exact presented _
  | quit => rfl

theorem cycled_settings (c : Controller) : c.cycled.settings = c.settings :=
  cycled_apply settings (fun _ _ => rfl) (fun _ => rfl) c

theorem cycled_machine (c : Controller) : c.cycled.machine = c.cycleTrace.machine :=
  cycled_apply machine (fun _ _ => rfl) (fun _ => rfl) c

theorem cycled_input (c : Controller) : c.cycled.input = c.input.poll.2 :=
  cycled_apply input (fun _ _ => rfl) (fun _ => rfl) c

theorem cycled_runState (c : Controller) : c.cycled.runState = c.upcoming :=
  cycled_apply runState (fun _ _ => rfl) (fun _ => rfl) c

theorem cycled_instructions (c : Controller) :
    c.cycled.instructions = c.instructions + c.cycleTrace.words.length :=
  cycled_apply instructions (fun _ _ => rfl) (fun _ => rfl) c

theorem cycled_cycles {c : Controller} (ok : c.cycleTrace.fault = none) :
    c.cycled.cycles = c.cycles + if c.upcoming = .running then 1 else 0 := by
  rw [cycled, ok]
  cases c.upcoming <;> rfl

theorem cycled_waits {c : Controller} (ok : c.cycleTrace.fault = none) :
    c.cycled.waits = c.waits + if c.upcoming = .quit then 0 else 1 := by
  rw [cycled, ok]
  cases c.upcoming <;> rfl

theorem cycled_frames {c : Controller} (ok : c.cycleTrace.fault = none) :
    c.cycled.recorder.frames = c.recorder.frames + if c.upcoming = .quit then 0 else 1 := by
  rw [cycled, ok]
  cases c.upcoming <;> rfl

theorem cycled_last {c : Controller} (ok : c.cycleTrace.fault = none) :
    c.cycled.recorder.last =
      if c.upcoming = .quit then c.recorder.last else some c.cycleTrace.machine.screen := by
  rw [cycled, ok]
  cases c.upcoming <;> rfl

theorem length_words_cycleTrace {c : Controller} (ok : c.cycleTrace.fault = none) :
    c.cycleTrace.words.length =
      if c.upcoming = .running then c.settings.instructions.toNat else 0 := by
  rw [cycleTrace] at ok ⊢
  rw [Machine.length_words_trace _ ok]
  cases c.upcoming with
  | running =>
    simp [FrameSettings.operations, Operation.isStep, List.countP_replicate]
  | _ => rfl

theorem absorb_after (c : Controller) (w : Word) (t : Trace) :
    c.absorb (t.after [w]) =
      { c with current := some w, instructions := c.instructions + 1 }.absorb t := by
  have last : (w :: t.words).getLast?.or c.current = t.words.getLast?.or (some w) := by
    rw [List.getLast?_cons]
    cases t.words.getLast? <;> rfl
  have count : c.instructions + (w :: t.words).length = c.instructions + 1 + t.words.length := by
    rw [List.length_cons]
    omega
  simp only [absorb, Trace.after_words, List.singleton_append, last, count, Trace.after_machine]

theorem step_eq (c : Controller) :
    ∃ d, c.step = match c.machine.obstacle? c.settings.strict with
      | some fault => (c.reporting d, some fault)
      | none =>
        ((c.absorb ⟨[c.machine.wordAtPc], c.machine.successor, none⟩).reporting d, none) := by
  refine ⟨c.diagnostics.observeStep c.machine, ?_⟩
  rw [step, Machine.stepTraced_under, Machine.step_eq]
  cases c.machine.obstacle? c.settings.strict <;> rfl

theorem steps_eq (c : Controller) (k : Nat) :
    ∃ d, c.steps k =
      ((c.absorb (c.machine.trace (List.replicate k (.step c.settings.strict)))).reporting d,
        (c.machine.trace (List.replicate k (.step c.settings.strict))).fault) := by
  induction k generalizing c with
  | zero => exact ⟨c.diagnostics, rfl⟩
  | succ k ih =>
    obtain ⟨d, stepped⟩ := c.step_eq
    rw [steps, stepped, List.replicate_succ, Machine.trace_step]
    cases c.machine.obstacle? c.settings.strict with
    | some fault => exact ⟨d, rfl⟩
    | none =>
      simp only [absorb_after]
      obtain ⟨d', rest⟩ :=
        ih ((c.absorb ⟨[c.machine.wordAtPc], c.machine.successor, none⟩).reporting d)
      exact ⟨d', rest⟩

theorem frame_eq (c : Controller) (t : Trace)
    (h : c.machine.trace (List.replicate c.settings.instructions.toNat (.step c.settings.strict) ++
      [.tick]) = t) :
    ∃ d, c.frame = match t.fault with
      | none => ({ c.absorb t with cycles := c.cycles + 1 }.present.reporting d, none)
      | some fault => ((c.absorb t).reporting d, some fault) := by
  obtain ⟨d, done⟩ := c.steps_eq c.settings.instructions.toNat
  refine ⟨d, ?_⟩
  rw [Machine.trace_append] at h
  rw [frame, done]
  cases fault : (c.machine.trace
      (List.replicate c.settings.instructions.toNat (.step c.settings.strict))).fault with
  | none =>
    rw [fault] at h
    rw [← h]
    simp [absorb, present, reporting]
  | some f =>
    rw [fault] at h
    rw [← h, fault]

theorem poll_eq (c : Controller) :
    ∃ d, c.poll = reporting { c with
      machine := c.machine.withKeys c.input.poll.1.keypad
      runState := c.upcoming
      input := c.input.poll.2 } d :=
  ⟨c.poll.diagnostics, rfl⟩

theorem cycle_of_ne_quit {c : Controller} (going : c.runState ≠ .quit) :
    c.cycle = match c.upcoming with
      | .quit => (c.poll, none)
      | .paused => (c.poll.present, none)
      | .running => c.poll.frame := by
  rw [cycle]
  cases state : c.runState with
  | quit => exact absurd state going
  | _ => rfl

theorem cycle_eq {c : Controller} (going : c.runState ≠ .quit) :
    ∃ d, c.cycle = (c.cycled.reporting d, c.cycleTrace.fault) := by
  obtain ⟨d, seen⟩ := c.poll_eq
  rw [cycle_of_ne_quit going, cycled, worked]
  cases next : c.upcoming with
  | quit =>
    have still : c.cycleTrace = ⟨[], c.machine.withKeys c.input.poll.1.keypad, none⟩ := by
      rw [cycleTrace, next]
      rfl
    rw [still, seen, next]
    exact ⟨d, rfl⟩
  | paused =>
    have still : c.cycleTrace = ⟨[], c.machine.withKeys c.input.poll.1.keypad, none⟩ := by
      rw [cycleTrace, next]
      rfl
    rw [still, seen, next]
    exact ⟨d, rfl⟩
  | running =>
    have work : c.poll.machine.trace (List.replicate c.poll.settings.instructions.toNat
        (.step c.poll.settings.strict) ++ [.tick]) = c.cycleTrace := by
      rw [cycleTrace, next]
      rfl
    obtain ⟨d', ran⟩ := c.poll.frame_eq c.cycleTrace work
    refine ⟨d', ?_⟩
    rw [ran, seen, next]
    cases c.cycleTrace.fault <;> rfl

theorem cycle_of_quit {c : Controller} (ended : c.runState = .quit) : c.cycle = (c, none) := by
  rw [cycle, ended]

theorem run_of_cycle_ok {c next : Controller} (n : Nat) (h : c.cycle = (next, none)) :
    c.run (n + 1) = if next.runState = .quit then (next, none) else next.run n := by
  rw [run, h]

theorem run_of_cycle_fault {c next : Controller} {fault : Fault} (n : Nat)
    (h : c.cycle = (next, some fault)) : c.run (n + 1) = (next, some fault) := by
  rw [run, h]

theorem run_of_quit {c : Controller} (ended : c.runState = .quit) (n : Nat) :
    c.run n = (c, none) := by
  cases n with
  | zero => rfl
  | succ n => rw [run_of_cycle_ok n (cycle_of_quit ended), if_pos ended]

theorem run_succ (c : Controller) (n : Nat) :
    c.run (n + 1) = match c.run n with
      | (last, none) => last.cycle
      | failed => failed := by
  induction n generalizing c with
  | zero =>
    change c.run 1 = c.cycle
    rcases h : c.cycle with ⟨next, _ | fault⟩
    · rw [run_of_cycle_ok 0 h]
      exact ite_self _
    · exact run_of_cycle_fault 0 h
  | succ n ih =>
    rcases h : c.cycle with ⟨next, _ | fault⟩
    · rw [run_of_cycle_ok (n + 1) h, run_of_cycle_ok n h]
      by_cases ended : next.runState = .quit
      · simp only [ended, if_true, cycle_of_quit ended]
      · simp only [ended, if_false, ih next]
    · rw [run_of_cycle_fault (n + 1) h, run_of_cycle_fault n h]

/-- The snapshots that a run polls. -/
def heard (c : Controller) : Nat → List Snapshot
  | 0 => []
  | n + 1 =>
    if c.runState = .quit then []
    else c.input.poll.1 :: match c.cycle with
      | (next, none) => next.heard n
      | (_, some _) => []

theorem heard_of_quit {c : Controller} (ended : c.runState = .quit) (n : Nat) : c.heard n = [] := by
  cases n with
  | zero => rfl
  | succ n => rw [heard, if_pos ended]

theorem heard_succ {c last : Controller} {n : Nat} (h : c.run n = (last, none)) :
    c.heard (n + 1) =
      c.heard n ++ if last.runState = .quit then [] else [last.input.poll.1] := by
  by_cases ended : c.runState = .quit
  · rw [run_of_quit ended, Prod.mk.injEq] at h
    simp [heard_of_quit ended, ← h.1, ended]
  induction n generalizing c with
  | zero =>
    cases h
    rw [heard, heard, if_neg ended, if_neg ended]
    rcases last.cycle with ⟨next, _ | fault⟩ <;> rfl
  | succ n ih =>
    rw [heard, heard, if_neg ended, if_neg ended]
    rcases cycled : c.cycle with ⟨next, _ | fault⟩
    · rw [run_of_cycle_ok n cycled] at h
      by_cases nextEnded : next.runState = .quit
      · rw [if_pos nextEnded, Prod.mk.injEq] at h
        simp [heard_of_quit nextEnded, ← h.1, nextEnded]
      · rw [if_neg nextEnded] at h
        simp only [ih h nextEnded, List.cons_append]
    · simp [run_of_cycle_fault n cycled] at h

theorem input_cycle {c : Controller} (going : c.runState ≠ .quit) :
    c.cycle.1.input = c.input.poll.2 := by
  obtain ⟨d, cycled⟩ := cycle_eq going
  rw [cycled]
  exact c.cycled_input

theorem polls_heard (c : Controller) (n : Nat) :
    c.input.polls (c.heard n).length = (c.heard n, (c.run n).1.input) := by
  induction n generalizing c with
  | zero => rfl
  | succ n ih =>
    by_cases ended : c.runState = .quit
    · rw [heard_of_quit ended, run_of_quit ended]
      rfl
    have moved := input_cycle ended
    rw [heard, if_neg ended]
    rcases cycled : c.cycle with ⟨next, _ | fault⟩
    · rw [cycled] at moved
      rw [run_of_cycle_ok n cycled, List.length_cons, Script.polls, ← moved, ih next]
      by_cases nextEnded : next.runState = .quit
      · rw [if_pos nextEnded, run_of_quit nextEnded]
      · rw [if_neg nextEnded]
    · rw [cycled] at moved
      rw [run_of_cycle_fault n cycled, moved]
      rfl

end Controller

end Chip8
