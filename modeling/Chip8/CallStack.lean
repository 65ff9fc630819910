import Chip8.Fault

/-!
The stack of return addresses. Twelve slots hold addresses of twelve bits and the depth counts the
calls not yet returned from. `push` and `pop` are total: outside the depths that the checks admit,
a negative slot number counts from the end, a read keeps to the nearest slot and a write to no slot
is lost.
-/

namespace Chip8

structure CallStack where
  slots : Vector UInt16 12
  depth : Int
  deriving DecidableEq, Repr

namespace CallStack

def empty : CallStack := ⟨Vector.replicate 12 0, 0⟩

def ofList (addresses : List UInt16) : CallStack :=
  ⟨Vector.ofFn fun i => addresses.getD i 0, addresses.length⟩

/-- The slot that a depth names; a negative one counts from the end. -/
def slot (depth : Int) : Int := if depth < 0 then depth + 12 else depth

/-- The content of the slot nearest to the one named. -/
def read (stack : CallStack) (depth : Int) : UInt16 :=
  stack.slots[Fin.ofNat 12 (min (slot depth).toNat 11)]

def write (stack : CallStack) (depth : Int) (value : UInt16) : Vector UInt16 12 :=
  if h : 0 ≤ slot depth ∧ slot depth < 12 then
    stack.slots.set (slot depth).toNat value (by omega)
  else
    stack.slots

/-- Puts the low twelve bits of an address on top. -/
def push (stack : CallStack) (address : UInt16) : CallStack :=
  ⟨stack.write stack.depth (address &&& 0xFFF), stack.depth + 1⟩

def top (stack : CallStack) : UInt16 := stack.read (stack.depth - 1)

def pop (stack : CallStack) : CallStack :=
  ⟨stack.write (stack.depth - 1) 0, stack.depth - 1⟩

def checkPush (stack : CallStack) (pc : UInt16) (word : Option Word) : Except Fault Unit :=
  if stack.depth ≥ 12 then .error (.stackOverflow pc word) else .ok ()

def checkPop (stack : CallStack) (pc : UInt16) (word : Option Word) : Except Fault Unit :=
  if stack.depth ≤ 0 then .error (.stackUnderflow pc word) else .ok ()

end CallStack

end Chip8
