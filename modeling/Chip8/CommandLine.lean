import Chip8.CommandLine.Arguments
import Chip8.Config.Load
import Chip8.Window

/-!
A run from the command line: the arguments, the configuration, the program image, the cycles, and
what is said about them. What a run can see of files, of the window and of the clock is given to it
as a value, and its outcome holds everything it has to show.
-/

namespace Chip8.CommandLine

/-- What goes wrong in a run beyond what it reports itself. -/
inductive Escape where
  | config (reason : Config.LoadError)
  | seedOutOfRange
  | badPath
  deriving Repr

structure Outcome where
  /-- The exit status, unless the run broke off. -/
  status : Except Escape Nat
  output : List String
  pictures : List (String × Picture)

structure World where
  read : String → Except FileError (List UInt8)
  /-- The name of the file that writing to a path creates. -/
  target : String → Except FileError String
  /-- Events that lie in the window's queue from the start; none if no window can be opened. -/
  window : Option (List WindowEvent)
  clock : List Float

def World.ofFiles (files : Files) (events : List WindowEvent) : World where
  read := files.read
  target := files.target
  window := some events
  clock := []

def success : Nat := 0

def failure : Nat := 1

def misuse : Nat := 2

def finished (status : Nat) (console : Console) (pictures : List (String × Picture)) :
    Outcome :=
  ⟨.ok status, console.lines.toList, pictures⟩

def unreadable (path : String) (reason : FileError) : String :=
  "Rom file " ++ path ++ " is corrupted or does not exist: " ++ reason.message

def closing (c : Controller) : Console :=
  let console := c.diagnostics.console
  let console :=
    if c.runState = .quit then console.log .info "Emulator stopped" else console
  console.log .info
    (toString c.cycles ++ " cycles, " ++ toString c.instructions ++ " instructions executed")

/-- The log after a fault: the fault, and the machine as it was before it. -/
def obituary (c : Controller) (fault : Fault) : Console :=
  (c.diagnostics.console.log .critical ("Fatal " ++ fault.kind ++ ": " ++ fault.message)).logState
    c.machine Level.critical.name

def screenshot (world : World) (args : Arguments) (config : Config) (c : Controller)
    (console : Console) : Outcome :=
  match args.screenshot with
  | none | some "" => finished success console []
  | some file =>
    match c.recorder.save world.target file config.scale with
    | .ok saved => finished success (console.log .info ("Screenshot saved: " ++ file)) [saved]
    | .error e => finished failure (console.log .error e.message) []

/-- The cycles a run may take; a negative number counts as none. -/
def Arguments.limit (args : Arguments) : Nat :=
  match args.cycles with
  | some n => n.toNat
  | none => Controller.unlimited

def drive (world : World) (args : Arguments) (config : Config) (settings : FrameSettings)
    (machine : Machine) (console : Console) : Outcome :=
  let events := if args.headless then some [] else world.window
  match events with
  | none => finished failure (console.log .error DisplayError.noWindow.message) []
  | some events =>
    let tally := if config.trace then some Tally.empty else none
    let controller :=
      Controller.create settings machine (Window.script events) ⟨console, tally⟩
    match controller.run args.limit with
    | (c, some fault) => finished failure (obituary c fault) []
    | (c, none) =>
      if args.headless then screenshot world args config c (closing c)
      else finished success (closing c) []

def runConfigured (world : World) (args : Arguments) (config : Config) : Outcome :=
  let console :=
    Console.create Console.defaultName (Level.ofName config.logLevel) false true world.clock
  match config.machine?, config.frameSettings with
  | none, _ => ⟨.error .seedOutOfRange, [], []⟩
  | some _, .error e => finished failure (console.log .error e.message) []
  | some machine, .ok settings =>
    match world.read args.rom with
    | .error .nullCharacter => ⟨.error .badPath, [], []⟩
    | .error reason => finished failure (console.log .error (unreadable args.rom reason)) []
    | .ok image =>
      match machine.loadProgram image with
      | .error e => finished failure (console.log .error e.message) []
      | .ok machine =>
        drive world args config settings machine (console.log .info ("Loaded: " ++ args.rom))

def run (world : World) (words : List String) : Outcome :=
  match Arguments.parse words with
  | .error .help => ⟨.ok success, ["usage:"], []⟩
  | .error .misuse => ⟨.ok misuse, [], []⟩
  | .ok args =>
    match Config.load (args.config.map world.read) args.overrides with
    | .ok config => runConfigured world args config
    | .error (.invalid e) =>
      let console := Console.create Console.defaultName .info false true world.clock
      finished failure (console.log .error e.message) []
    | .error reason => ⟨.error (.config reason), [], []⟩

end Chip8.CommandLine
