import Chip8.Color
import Chip8.Console
import Chip8.Controller
import Chip8.Decimal.Shortest
import Chip8.Pacer

/-!
The settings of the emulator. The size of the screen, the mode, the strictness and the seed affect
what instructions do, and the number of instructions per frame how many of them go by between two
moves of the timers; the rest is presentation and pacing. `validate` checks the ranges that the
types do not express, in a fixed order, so that of several faults the first is told. It puts no
upper bound on the sizes, and here a screen of any size can be made, also one beyond what a host
has room for.
-/

namespace Chip8

structure Config where
  width : Int
  height : Int
  scale : Int
  fgColor : String
  bgColor : String
  /-- A named scheme takes the place of the two colours. -/
  colorScheme : Option String
  pixelOutlines : Bool
  cadence : Float
  instructionsPerFrame : Int
  modernMode : Bool
  strictOpcodes : Bool
  trace : Bool
  logLevel : String
  seed : Int
  deriving DecidableEq, Repr

inductive ConfigError where
  | displaySize (width height : Int)
  | scale (scale : Int)
  | cadence (cadence : Float)
  | instructionsPerFrame (count : Int)
  | logLevel (name : String)
  | color (reason : ColorError)
  /-- The file or an override could not be read as settings. -/
  | unreadable
  deriving DecidableEq, Repr

def ConfigError.message : ConfigError → String
  | displaySize width height =>
    "Display size must be positive, got " ++ toString width ++ "x" ++ toString height
  | scale n => "Scale factor must be positive, got " ++ toString n
  | cadence f => "Cadence must be positive, got " ++ Decimal.text f
  | instructionsPerFrame n => "instructions_per_frame must be positive, got " ++ toString n
  | logLevel name => "Unknown log level '" ++ name ++ "'"
  | color reason => reason.message
  | unreadable => "Invalid configuration:"

namespace Config

def default : Config where
  width := 64
  height := 32
  scale := 20
  fgColor := "#FFFFFF"
  bgColor := "#000000"
  colorScheme := none
  pixelOutlines := true
  cadence := 60.0
  instructionsPerFrame := 1
  modernMode := true
  strictOpcodes := false
  trace := false
  logLevel := "INFO"
  seed := 0

def palette (config : Config) : Except ColorError Palette :=
  match config.colorScheme with
  | some name => Palette.ofScheme name
  | none => do
    let on ← Color.parse config.fgColor
    let off ← Color.parse config.bgColor
    return ⟨on, off⟩

def framePeriod? (config : Config) : Option Float :=
  (Pacer.ofCadence? config.cadence).map (·.period)

def mode (config : Config) : Mode := if config.modernMode then .modern else .legacy

def validate (config : Config) : Except ConfigError Config :=
  if config.width ≤ 0 ∨ config.height ≤ 0 then .error (.displaySize config.width config.height)
  else if config.scale ≤ 0 then .error (.scale config.scale)
  else if config.cadence ≤ 0 then .error (.cadence config.cadence)
  else if config.instructionsPerFrame ≤ 0 then
    .error (.instructionsPerFrame config.instructionsPerFrame)
  else if (Level.ofName? config.logLevel).isNone then .error (.logLevel config.logLevel)
  else match config.palette with
    | .error reason => .error (.color reason)
    | .ok _ => .ok config

/-- The machine that a configuration describes, unless its seed is out of range. -/
def machine? (config : Config) : Option Machine :=
  (Generator.ofSeed? config.seed).map fun random =>
    Machine.create random config.width.toNat config.height.toNat config.mode

def frameSettings (config : Config) : Except ColorError FrameSettings :=
  config.palette.map fun palette =>
    ⟨config.instructionsPerFrame, config.strictOpcodes, palette, config.pixelOutlines⟩

end Config

end Chip8
