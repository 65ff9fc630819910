import Chip8.Machine

/-!
What the input side reports once per cycle, and how it moves the run state. Quitting is final, and
a pause key pressed again resumes.
-/

namespace Chip8

inductive RunState where
  | running | paused | quit
  deriving DecidableEq, Repr

structure Snapshot where
  keypad : Keypad
  /-- The pause key went down an odd number of times since the last snapshot. -/
  pauseToggled : Bool
  quit : Bool
  deriving DecidableEq, Repr

namespace Snapshot

def idle : Snapshot := ⟨Keypad.idle, false, false⟩

end Snapshot

namespace RunState

def name : RunState → String
  | running => "running"
  | paused => "paused"
  | quit => "quit"

def ofName? (name : String) : Option RunState :=
  [running, paused, quit].find? fun state => state.name = name

def next (current : RunState) (snapshot : Snapshot) : RunState :=
  if current = quit ∨ snapshot.quit then quit
  else if snapshot.pauseToggled then
    if current = running then paused else running
  else current

end RunState

/-- The snapshots still to come, and the one that is repeated after them. -/
structure Script where
  upcoming : List Snapshot
  rest : Snapshot
  deriving DecidableEq, Repr

namespace Script

def ofList (snapshots : List Snapshot) : Script := ⟨snapshots, Snapshot.idle⟩

def poll (script : Script) : Snapshot × Script :=
  match script.upcoming with
  | [] => (script.rest, script)
  | snapshot :: later => (snapshot, { script with upcoming := later })

end Script

end Chip8
