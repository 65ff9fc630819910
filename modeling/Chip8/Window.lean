import Chip8.Input

/-!
The keyboard of a window. The hexadecimal keypad lies over the left part of the keyboard, the space
bar pauses, and escape or closing the window quits.
-/

namespace Chip8

inductive WindowEvent where
  | keyDown (key : String)
  | keyUp (key : String)
  | close
  deriving DecidableEq, Repr

namespace Window

def layout : List (String × Fin 16) :=
  [("1", 0x1), ("2", 0x2), ("3", 0x3), ("4", 0xC),
   ("q", 0x4), ("w", 0x5), ("e", 0x6), ("r", 0xD),
   ("a", 0x7), ("s", 0x8), ("d", 0x9), ("f", 0xE),
   ("z", 0xA), ("x", 0x0), ("c", 0xB), ("v", 0xF)]

def keyOf? (key : String) : Option (Fin 16) := layout.lookup key

def pauseKey : String := "SPACE"

def quitKey : String := "ESCAPE"

def apply (snapshot : Snapshot) : WindowEvent → Snapshot
  | .close => { snapshot with quit := true }
  | .keyDown key =>
    if key = quitKey then { snapshot with quit := true }
    else if key = pauseKey then { snapshot with pauseToggled := !snapshot.pauseToggled }
    else match keyOf? key with
      | some k => { snapshot with keypad := snapshot.keypad.set k true }
      | none => snapshot
  | .keyUp key =>
    match keyOf? key with
    | some k => { snapshot with keypad := snapshot.keypad.set k false }
    | none => snapshot

/-- The snapshot after a key moved that neither pauses nor quits. -/
def moved (s : Snapshot) (key : String) (down : Bool) : Snapshot :=
  (keyOf? key).elim s fun k => { s with keypad := s.keypad.set k down }

theorem apply_keyDown (s : Snapshot) (key : String) :
    apply s (.keyDown key) =
      if key = quitKey then { s with quit := true }
      else if key = pauseKey then { s with pauseToggled := !s.pauseToggled }
      else moved s key true := by
  simp only [apply, moved]
  cases keyOf? key <;> rfl

theorem apply_keyUp (s : Snapshot) (key : String) :
    apply s (.keyUp key) = moved s key false := by
  simp only [apply, moved]
  cases keyOf? key <;> rfl

@[simp] theorem moved_pauseToggled (s : Snapshot) (key : String) (down : Bool) :
    (moved s key down).pauseToggled = s.pauseToggled := by
  cases place : keyOf? key <;> simp [moved, place]

@[simp] theorem moved_quit (s : Snapshot) (key : String) (down : Bool) :
    (moved s key down).quit = s.quit := by
  cases place : keyOf? key <;> simp [moved, place]

/-- The snapshot after a batch of events, from the keys that were down before it. -/
def poll (keypad : Keypad) (events : List WindowEvent) : Snapshot :=
  events.foldl apply ⟨keypad, false, false⟩

/-- What a window reports when all its events lie in the queue from the start: they come with the
first snapshot, and the keys then stay as they are. -/
def script (events : List WindowEvent) : Script :=
  let first := poll Keypad.idle events
  ⟨[first], ⟨first.keypad, false, false⟩⟩

end Window

end Chip8
