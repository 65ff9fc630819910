import Chip8.Input
import Chip8.Recorder
import Chip8.Tracer

/-!
The controller: it owns one machine and drives it cycle by cycle. A cycle polls the input, and
unless the run is paused or over it carries out the instructions of a frame, moves the timers on,
waits for the cadence and presents the screen. Each instruction is committed singly, so a fault
leaves the machine as it was before the failing one.

Waits are only counted. Whatever the pacer does with the time, it is taken to return each time and
to raise nothing, which is why the cadence is not among the settings.
-/

namespace Chip8

structure FrameSettings where
  /-- Instructions per frame; a negative number counts as none. -/
  instructions : Int
  strict : Bool
  palette : Palette
  outlines : Bool
  deriving DecidableEq, Repr

structure Controller where
  settings : FrameSettings
  machine : Machine
  input : Script
  recorder : Recorder
  diagnostics : Diagnostics
  runState : RunState
  /-- The word of the last step that succeeded. -/
  current : Option Word
  cycles : Nat
  instructions : Nat
  waits : Nat
  deriving Repr

namespace Controller

def create (settings : FrameSettings) (machine : Machine) (input : Script)
    (diagnostics : Diagnostics) : Controller where
  settings := settings
  machine := machine
  input := input
  recorder := Recorder.empty
  diagnostics := diagnostics
  runState := .running
  current := none
  cycles := 0
  instructions := 0
  waits := 0

def announcement : RunState → String
  | .running => "------- RESUMED -------"
  | .paused => "------- PAUSED -------"
  | .quit => "Quit requested"

def receive (c : Controller) (snapshot : Snapshot) : Controller :=
  let next := c.runState.next snapshot
  { c with
    machine := c.machine.withKeys snapshot.keypad
    runState := next
    diagnostics :=
      if next = c.runState then c.diagnostics else c.diagnostics.log .info (announcement next) }

def poll (c : Controller) : Controller :=
  let (snapshot, later) := c.input.poll
  { c.receive snapshot with input := later }

def present (c : Controller) : Controller :=
  { c with
    waits := c.waits + 1
    recorder := c.recorder.present c.machine.screen c.settings.palette c.settings.outlines }

/-- One instruction. On a fault only the tracer has seen it. -/
def step (c : Controller) : Controller × Option Fault :=
  match (c.machine.stepTraced c.settings.strict).under c.diagnostics with
  | (.ok (machine, w), seen) =>
    ({ c with
        machine := machine
        current := some w
        instructions := c.instructions + 1
        diagnostics := seen }, none)
  | (.error fault, seen) => ({ c with diagnostics := seen }, some fault)

def steps (c : Controller) : Nat → Controller × Option Fault
  | 0 => (c, none)
  | k + 1 =>
    match c.step with
    | (next, none) => next.steps k
    | failed => failed

def frame (c : Controller) : Controller × Option Fault :=
  match c.steps c.settings.instructions.toNat with
  | (done, none) =>
    ({ done with machine := done.machine.tick, cycles := done.cycles + 1 }.present, none)
  | failed => failed

def cycle (c : Controller) : Controller × Option Fault :=
  match c.runState with
  | .quit => (c, none)
  | _ =>
    let polled := c.poll
    match polled.runState with
    | .quit => (polled, none)
    | .paused => (polled.present, none)
    | .running => polled.frame

/-- Cycles until the run is over, a fault happens, or the given number of cycles is used up. -/
def run (c : Controller) : Nat → Controller × Option Fault
  | 0 => (c, none)
  | n + 1 =>
    match c.cycle with
    | (next, none) => if next.runState = .quit then (next, none) else next.run n
    | failed => failed

/-- A bound on the cycles of a run without a limit, beyond what any run lasts. -/
def unlimited : Nat := Nat.pow 2 62

end Controller

end Chip8
