import Chip8.Instruction
import Chip8.Machine

/-!
What instructions do. `Machine.apply` is the effect of an instruction on any state whatever;
`Machine.execute` puts the checks of the call stack and of the instruction table in front of it,
and `Machine.step` fetches the word first. All operands are read before anything is written.
-/

namespace Chip8

/-- The new VX and the new VF of a two-register operation. The legacy shifts shift VY into VX. -/
def Alu.eval (op : Alu) (mode : Mode) (vx vy vf : UInt8) : UInt8 × UInt8 :=
  let shifted := if mode = .modern then vx else vy
  match op with
  | .copy => (vy, vf)
  | .or => (vx ||| vy, 0)
  | .and => (vx &&& vy, 0)
  | .xor => (vx ^^^ vy, 0)
  | .add => (vx + vy, if vx.toNat + vy.toNat > 255 then 1 else 0)
  | .sub => (vx - vy, if vx ≥ vy then 1 else 0)
  | .shiftRight => (shifted >>> 1, shifted &&& 1)
  | .subFrom => (vy - vx, if vy ≥ vx then 1 else 0)
  | .shiftLeft => (shifted <<< 1, shifted >>> 7)

/-- Whether a skip is taken. Keys are named by the low nibble of a register. -/
def Condition.holds (m : Machine) : Condition → Bool
  | .is x value => m.v.get x == value
  | .isNot x value => m.v.get x != value
  | .same x y => m.v.get x == m.v.get y
  | .differ x y => m.v.get x != m.v.get y
  | .keyDown x => m.keypad.get (Fin.ofNat 16 (m.v.get x).toNat)
  | .keyUp x => !m.keypad.get (Fin.ofNat 16 (m.v.get x).toNat)

def decimalDigits (value : UInt8) : List UInt8 :=
  [value / 100, value / 10 % 10, value % 10]

namespace Machine

def setV (m : Machine) (x : Register) (value : UInt8) : Machine :=
  { m with v := m.v.set x value }

def sprite (m : Machine) (height : Nat) : Sprite :=
  m.memory.readBlock m.index.toNat height

/-- The index after a block transfer up to a register: the legacy machine moves past the block. -/
def indexAfterBlock (m : Machine) (last : Register) : UInt16 :=
  match m.mode with
  | .modern => m.index
  | .legacy => m.index + UInt16.ofNat (last.val + 1)

/-- The effect of an instruction. The program counter already points past its word. -/
def apply (m : Machine) : Instruction → Machine
  | .clearScreen => { m with screen := m.screen.clear }
  | .ret => { m with stack := m.stack.pop, pc := m.stack.top }
  | .jump target => { m with pc := UInt16.ofNat target.val }
  | .call target => { m with stack := m.stack.push m.pc, pc := UInt16.ofNat target.val }
  | .skip condition => if condition.holds m then { m with pc := m.pc + 2 } else m
  | .set x value => m.setV x value
  | .addConstant x value => m.setV x (m.v.get x + value)
  | .alu op x y =>
    let r := op.eval m.mode (m.v.get x) (m.v.get y) (m.v.get 15)
    -- the flag is written last, so that VF as a destination ends up with it
    (m.setV x r.1).setV 15 r.2
  | .setIndex target => { m with index := UInt16.ofNat target.val }
  | .jumpOffset base =>
    let offset := match m.mode with
      | .modern => m.v.get (Fin.ofNat 16 (base.val / 256))
      | .legacy => m.v.get 0
    { m with pc := UInt16.ofNat ((base.val + offset.toNat) % 4096) }
  | .random x mask =>
    let r := m.random.draw
    { m.setV x (r.2 &&& mask) with random := r.1 }
  | .draw x y height =>
    let ox := (m.v.get x).toNat % m.screen.width
    let oy := (m.v.get y).toNat % m.screen.height
    let sprite := m.sprite height.val
    let collision := m.screen.collides sprite ox oy
    { m.setV 15 (if collision then 1 else 0) with screen := m.screen.draw sprite ox oy }
  | .readDelay x => m.setV x m.delay
  | .waitKey x =>
    match m.keypad.first? with
    | some key => m.setV x (UInt8.ofNat key.val)
    | none => { m with pc := m.pc - 2 }
  | .setDelay x => { m with delay := m.v.get x }
  | .setSound x => { m with sound := m.v.get x }
  | .addIndex x =>
    let sum := m.index.toNat + (m.v.get x).toNat
    { m.setV 15 (if sum > 0xFFF then 1 else 0) with index := UInt16.ofNat (sum % 4096) }
  | .glyph x => { m with index := UInt16.ofNat ((m.v.get x).toNat % 16 * 5) }
  | .decimal x => { m with memory := m.memory.writeBlock m.index.toNat (decimalDigits (m.v.get x)) }
  | .store last =>
    { m with
      memory := m.memory.writeBlock m.index.toNat (m.v.toList.take (last.val + 1))
      index := m.indexAfterBlock last }
  | .load last =>
    { m with
      v := Vector.ofFn fun k =>
        if k ≤ last then m.memory.read (m.index.toNat + k.val) else m.v.get k
      index := m.indexAfterBlock last }

def perform (m : Machine) : Option Instruction → Machine
  | some i => m.apply i
  | none => m

def check (m : Machine) (w : Word) : Instruction → Except Fault Unit
  | .call _ => m.stack.checkPush m.pc (some w)
  | .ret => m.stack.checkPop m.pc (some w)
  | _ => .ok ()

/-- Carries out one word. A word outside the table is a fault when `strict` and otherwise does
nothing. -/
def execute (m : Machine) (w : Word) (strict : Bool) : Except Fault Machine :=
  match Instruction.ofWord? w with
  | none => if strict then .error (.unsupported m.pc w) else .ok m
  | some i => (m.check w i).map fun _ => m.apply i

def canFetch (m : Machine) : Bool := decide (m.pc.toNat + 1 < Memory.size)

def wordAtPc (m : Machine) : Word :=
  .ofBytes (m.memory.read m.pc.toNat) (m.memory.read (m.pc.toNat + 1))

def advance (m : Machine) : Machine := { m with pc := m.pc + 2 }

def fetch (m : Machine) : Except Fault (Machine × Word) :=
  if m.canFetch then .ok (m.advance, m.wordAtPc) else .error (.outsideMemory m.pc)

def step (m : Machine) (strict : Bool) : Except Fault (Machine × Word) := do
  let (next, w) ← m.fetch
  let done ← next.execute w strict
  return (done, w)

end Machine

end Chip8
