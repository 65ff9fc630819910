import Chip8.CallStack
import Chip8.Framebuffer
import Chip8.Memory
import Chip8.Random

/-!
The whole state of the virtual machine as one value, the state a program starts from, and the
operations that come from outside a program: loading it, moving the timers on, setting the keys.
-/

namespace Chip8

/-- The two readings of the instructions on which interpreters disagree: the shifts, the jump with
an offset, and the block transfers. -/
inductive Mode where
  | modern
  | legacy
  deriving DecidableEq, Repr

theorem get_set {α : Type} (v : Vector α 16) (x k : Fin 16) (a : α) :
    (v.set x a).get k = if x = k then a else v.get k := by
  change (v.set x a)[k.val] = if x = k then a else v[k.val]
  rw [Vector.getElem_set]
  simp only [Fin.ext_iff]

abbrev Keypad := Vector Bool 16

namespace Keypad

def idle : Keypad := Vector.replicate 16 false

def ofList (keys : List (Fin 16)) : Keypad := Vector.ofFn fun k => decide (k ∈ keys)

def pressed (keypad : Keypad) : List (Fin 16) :=
  (List.finRange 16).filter keypad.get

def first? (keypad : Keypad) : Option (Fin 16) :=
  (List.finRange 16).find? keypad.get

end Keypad

structure Machine where
  memory : Memory
  v : Vector UInt8 16
  pc : UInt16
  index : UInt16
  stack : CallStack
  delay : UInt8
  sound : UInt8
  keypad : Keypad
  screen : Framebuffer
  random : Generator
  mode : Mode
  deriving DecidableEq, Repr

/-- A program image that does not fit above the reserved region: its size, and the room there. -/
structure TooBig where
  size : Nat
  room : Nat
  deriving DecidableEq, Repr

def TooBig.message (e : TooBig) : String :=
  "Program is too big: " ++ toString e.size ++ " bytes, max allowed is " ++
    toString e.room ++ " bytes"

namespace Machine

/-- The machine before any program is loaded: the font is in memory and all else is at rest. The
screen may have any size; how large an array a host can make is left out. -/
def create (random : Generator) (width height : Nat) (mode : Mode) : Machine where
  memory := Memory.initial
  v := Vector.replicate 16 0
  pc := 0x200
  index := 0
  stack := CallStack.empty
  delay := 0
  sound := 0
  keypad := Keypad.idle
  screen := Framebuffer.blank width height
  random := random
  mode := mode

def loadProgram (m : Machine) (image : List UInt8) : Except TooBig Machine :=
  if image.length > Memory.programRoom then .error ⟨image.length, Memory.programRoom⟩
  else .ok { m with memory := m.memory.writeBlock Memory.programStart image }

/-- Both timers move one step towards zero. -/
def tick (m : Machine) : Machine :=
  { m with
    delay := if m.delay = 0 then 0 else m.delay - 1
    sound := if m.sound = 0 then 0 else m.sound - 1 }

def ticks (m : Machine) : Nat → Machine
  | 0 => m
  | k + 1 => (m.ticks k).tick

def withKeys (m : Machine) (keypad : Keypad) : Machine := { m with keypad := keypad }

end Machine

end Chip8
