import Chip8.Config
import Chip8.Config.Template
import Chip8.Yaml.Value

/-!
The fields of a configuration by name, and how a value from a document becomes one of a field. Text
that spells a number will do for a number, and any scalar for a text; only the colour scheme may be
null. A text with references waits until all sources have been read.
-/

namespace Chip8

namespace Config

inductive FieldType where
  | int | float | bool | text | optionalText
  deriving DecidableEq, Repr

inductive Field where
  | width | height | scale | fgColor | bgColor | colorScheme | pixelOutlines | cadence
  | instructionsPerFrame | modernMode | strictOpcodes | trace | logLevel | seed
  deriving DecidableEq, Repr

namespace Field

def all : List Field :=
  [width, height, scale, fgColor, bgColor, colorScheme, pixelOutlines, cadence,
   instructionsPerFrame, modernMode, strictOpcodes, trace, logLevel, seed]

def name : Field → String
  | width => "width"
  | height => "height"
  | scale => "scale"
  | fgColor => "fg_color"
  | bgColor => "bg_color"
  | colorScheme => "color_scheme"
  | pixelOutlines => "pixel_outlines"
  | cadence => "cadence_hz"
  | instructionsPerFrame => "instructions_per_frame"
  | modernMode => "modern_mode"
  | strictOpcodes => "strict_opcodes"
  | trace => "trace"
  | logLevel => "log_level"
  | seed => "seed"

def ofName? (text : String) : Option Field := all.find? fun f => f.name = text

def type : Field → FieldType
  | width | height | scale | instructionsPerFrame | seed => .int
  | cadence => .float
  | pixelOutlines | modernMode | strictOpcodes | trace => .bool
  | fgColor | bgColor | logLevel => .text
  | colorScheme => .optionalText

end Field

inductive Misfit where
  | wrongKind
  | tooLarge
  deriving DecidableEq, Repr

inductive Datum where
  | int (n : Int)
  | float (f : Float)
  | bool (b : Bool)
  | text (s : String)
  | null
  deriving Repr

namespace Datum

def render : Datum → String
  | int n => toString n
  | float f => Decimal.text f
  | bool b => if b then "True" else "False"
  | text s => s
  | null => "None"

def wholeText (s : String) : Except Misfit Int :=
  match Numeral.integer? 10 s.toList with
  | some n => .ok n
  | none => .error .wrongKind

def truthText (s : String) : Except Misfit Bool :=
  match Numeral.integer? 10 s.toList with
  | some n => .ok (n ≠ 0)
  | none =>
    let word := String.ofList (s.toList.map Char.toLower)
    if word ∈ ["yes", "y", "on", "true"] then .ok true
    else if word ∈ ["no", "n", "off", "false"] then .ok false
    else .error .wrongKind

def fit (type : FieldType) (value : Datum) : Except Misfit Datum :=
  match type, value with
  | .int, int n => .ok (int n)
  | .int, text s => (wholeText s).map int
  | .float, int n =>
    match Numeral.float? n with
    | some f => .ok (float f)
    | none => .error .tooLarge
  | .float, float f => .ok (float f)
  | .float, text s =>
    match Numeral.decimal? s.toList with
    | some f => .ok (float f)
    | none => .error .wrongKind
  | .bool, bool b => .ok (bool b)
  | .bool, int n => .ok (bool (n ≠ 0))
  | .bool, text s => (truthText s).map bool
  | .optionalText, null => .ok null
  | .text, null => .error .wrongKind
  | .text, v | .optionalText, v => .ok (text v.render)
  | _, _ => .error .wrongKind

def ofValue? : Yaml.Value → Option Datum
  | .null => some null
  | .bool b => some (bool b)
  | .int n => some (int n)
  | .float f => some (float f)
  | .text s => some (text s)
  | _ => none

end Datum

inductive Holding where
  | fixed (value : Datum)
  | template (pieces : List Piece)
  deriving Repr

abbrev Draft := Field → Holding

namespace Draft

def ofConfig (c : Config) : Draft
  | .width => .fixed (.int c.width)
  | .height => .fixed (.int c.height)
  | .scale => .fixed (.int c.scale)
  | .fgColor => .fixed (.text c.fgColor)
  | .bgColor => .fixed (.text c.bgColor)
  | .colorScheme => .fixed (match c.colorScheme with | some s => .text s | none => .null)
  | .pixelOutlines => .fixed (.bool c.pixelOutlines)
  | .cadence => .fixed (.float c.cadence)
  | .instructionsPerFrame => .fixed (.int c.instructionsPerFrame)
  | .modernMode => .fixed (.bool c.modernMode)
  | .strictOpcodes => .fixed (.bool c.strictOpcodes)
  | .trace => .fixed (.bool c.trace)
  | .logLevel => .fixed (.text c.logLevel)
  | .seed => .fixed (.int c.seed)

/-- The mark of a value that is left to others. -/
def missing : String := "???"

def assign (draft : Draft) (field : Field) (value : Yaml.Value) : Except Misfit Draft :=
  let put (h : Holding) : Draft := fun f => if f = field then h else draft f
  match Datum.ofValue? value with
  | none => .error .wrongKind
  | some (.text s) =>
    if s = missing then .ok draft
    else if Template.hasReference s then
      match Template.ofText? s with
      | some pieces => .ok (put (.template pieces))
      | none => .error .wrongKind
    else ((Datum.text s).fit field.type).map fun d => put (.fixed d)
  | some d => (d.fit field.type).map fun d => put (.fixed d)

mutual

def value (draft : Draft) : Nat → Field → Except Misfit Datum
  | 0, _ => .error .wrongKind
  | fuel + 1, field =>
    match draft field with
    | .fixed d => .ok d
    | .template [piece] => do (← pieceValue draft fuel piece).fit field.type
    | .template pieces => do (Datum.text (← shown draft fuel pieces)).fit field.type

/-- The value of a piece: a text itself, or the field it refers to. One dot leads to the settings
and more lead nowhere. -/
def pieceValue (draft : Draft) : Nat → Piece → Except Misfit Datum
  | 0, _ => .error .wrongKind
  | fuel + 1, piece =>
    match piece with
    | .text s => .ok (.text s)
    | .reference dots name => do
      let name ← shown draft fuel name
      match Field.ofName? name with
      | some field => if dots ≤ 1 then value draft fuel field else .error .wrongKind
      | none => .error .wrongKind

def shown (draft : Draft) : Nat → List Piece → Except Misfit String
  | 0, _ => .error .wrongKind
  | _ + 1, [] => .ok ""
  | fuel + 1, piece :: rest => do
    let first ← pieceValue draft fuel piece
    return first.render ++ (← shown draft fuel rest)

end

/-- More than any chain of references without a circle takes. -/
def longestChain : Nat := 10000

def resolve (draft : Draft) : Except Misfit Config := do
  let get (f : Field) : Except Misfit Datum := value draft longestChain f
  let int (f : Field) : Except Misfit Int := do
    match ← get f with | .int n => return n | _ => .error .wrongKind
  let bool (f : Field) : Except Misfit Bool := do
    match ← get f with | .bool b => return b | _ => .error .wrongKind
  let text (f : Field) : Except Misfit String := do
    match ← get f with | .text s => return s | _ => .error .wrongKind
  let optionalText (f : Field) : Except Misfit (Option String) := do
    match ← get f with | .text s => return some s | _ => return none
  let float (f : Field) : Except Misfit Float := do
    match ← get f with | .float x => return x | _ => .error .wrongKind
  return {
    width := ← int .width
    height := ← int .height
    scale := ← int .scale
    fgColor := ← text .fgColor
    bgColor := ← text .bgColor
    colorScheme := ← optionalText .colorScheme
    pixelOutlines := ← bool .pixelOutlines
    cadence := ← float .cadence
    instructionsPerFrame := ← int .instructionsPerFrame
    modernMode := ← bool .modernMode
    strictOpcodes := ← bool .strictOpcodes
    trace := ← bool .trace
    logLevel := ← text .logLevel
    seed := ← int .seed }

end Draft

end Config

end Chip8
