import Chip8.Decimal.Places
import Chip8.Machine

/-!
The console log. Every message has a level; those below the console's threshold are dropped and
the others become one line each. The console is a value that keeps the lines it has written and
the clock readings still to come, so that what a run writes is part of its result.
-/

namespace Chip8

inductive Level where
  | debug | info | warning | error | critical
  deriving DecidableEq, Repr

namespace Level

def rank : Level → Nat
  | debug => 0
  | info => 1
  | warning => 2
  | error => 3
  | critical => 4

def name : Level → String
  | debug => "DEBUG"
  | info => "INFO"
  | warning => "WARNING"
  | error => "ERROR"
  | critical => "CRITICAL"

def all : List Level := [debug, info, warning, error, critical]

/-- Upper case as far as the names of levels need it: the letters of ASCII, and the two others
whose upper case is one of these. -/
def upperChar (c : Char) : Char :=
  if c = 'ı' then 'I' else if c = 'ſ' then 'S' else c.toUpper

def upper (text : String) : String := String.ofList (text.toList.map upperChar)

def ofName? (text : String) : Option Level := all.find? fun level => level.name = upper text

/-- The level of a name; a name that is not one counts as `info`. -/
def ofName (text : String) : Level := (ofName? text).getD info

def passes (level threshold : Level) : Bool := decide (threshold.rank ≤ level.rank)

end Level

structure Console where
  name : String
  threshold : Level
  colored : Bool
  timestamps : Bool
  /-- The clock reading that elapsed time counts from. -/
  start : Float
  /-- Later readings, one for each line with a timestamp; zero once they are used up. -/
  clock : List Float
  lines : Array String
  deriving Repr

namespace Console

def create (name : String) (threshold : Level) (colored timestamps : Bool) (clock : List Float) :
    Console where
  name := name
  threshold := threshold
  colored := colored
  timestamps := timestamps
  start := clock.headD 0
  clock := clock.tail
  lines := #[]

def defaultName : String := "chipvm"

def plain (threshold : Level) : Console := create defaultName threshold false false []

private def escape (code : String) : String := "\x1b[" ++ code ++ "m"

private def resetCode : String := escape "0"

def colorCode (level : String) : String :=
  match Level.upper level with
  | "DEBUG" => escape "36"
  | "INFO" => escape "32"
  | "WARNING" => escape "33"
  | "ERROR" => escape "31"
  | "CRITICAL" => escape "35"
  | "RESET" => resetCode
  | _ => ""

private def leftPadded (width : Nat) (text : String) : String :=
  String.ofList (List.replicate (width - text.length) ' ') ++ text

def timestamp (elapsed : Float) : String :=
  "[" ++ leftPadded 8 (Decimal.hundredths elapsed) ++ "s]"

/-- A line of the log. The level is shown as it was given. -/
def format (console : Console) (elapsed : Float) (level message : String) : String :=
  let shown := "[" ++ leftPadded 8 level ++ "]"
  (if console.timestamps then timestamp elapsed else "") ++
    (if console.colored then colorCode level ++ shown ++ resetCode else shown) ++
    "[" ++ console.name ++ "] " ++ message

def admits (console : Console) (level : Level) : Bool := level.passes console.threshold

def logNamed (console : Console) (level message : String) : Console :=
  if console.admits (Level.ofName level) then
    let now := console.clock.headD 0
    { console with
      clock := if console.timestamps then console.clock.tail else console.clock
      lines := console.lines.push (console.format (now - console.start) level message) }
  else console

def log (console : Console) (level : Level) (message : String) : Console :=
  console.logNamed level.name message

private def registerText (m : Machine) (r : Fin 16) : String :=
  "V" ++ Hex.padded 1 r.val ++ ": 0x" ++ Hex.padded 2 (m.v.get r).toNat

/-- The lines that show a machine: its counters and timers, and four rows of registers. -/
def summary (m : Machine) : List String :=
  ("PC: 0x" ++ Hex.padded 4 m.pc.toNat ++ "  I: 0x" ++ Hex.padded 4 m.index.toNat ++
    "  SP: " ++ toString m.stack.depth ++ "  DT: " ++ toString m.delay.toNat ++
    "  ST: " ++ toString m.sound.toNat) ::
  (List.range 4).map fun row =>
    "  ".intercalate ((List.range 4).map fun column =>
      registerText m (Fin.ofNat 16 (4 * row + column)))

def logState (console : Console) (m : Machine) (level : String) : Console :=
  (summary m).foldl (fun c line => c.logNamed level line) console

end Console

end Chip8
