import Chip8.Numeral

/-!
Colours and the pairs of colours a screen is shown in. A colour is written `#RRGGBB` or
`#RRGGBBAA`; the first six characters are read as one hexadecimal number and the rest is ignored.
-/

namespace Chip8

structure Color where
  red : UInt8
  green : UInt8
  blue : UInt8
  deriving DecidableEq, Repr

structure Palette where
  on : Color
  off : Color
  deriving DecidableEq, Repr

inductive ColorError where
  | wrongLength (text : String)
  | notHexadecimal (text : String)
  | unknownScheme (name : String)
  deriving DecidableEq, Repr

inductive ComponentError where
  | outOfRange
  | wrongCount
  deriving DecidableEq, Repr

namespace Color

def black : Color := ⟨0, 0, 0⟩

def white : Color := ⟨255, 255, 255⟩

/-- A colour from three components, or from one that stands for all three. The range of the
components is looked at before their number. -/
def ofComponents (components : List Int) : Except ComponentError Color :=
  if components.any fun c => c < 0 || 255 < c then .error .outOfRange
  else
    match components.map fun c => UInt8.ofNat c.toNat with
    | [c] => .ok ⟨c, c, c⟩
    | [r, g, b] => .ok ⟨r, g, b⟩
    | _ => .error .wrongCount

/-- The colour of the low 24 bits of a number, in two's complement when it is negative. -/
def ofPacked (n : Int) : Color :=
  let low := (n % 16777216).toNat
  ⟨UInt8.ofNat (low / 65536), UInt8.ofNat (low / 256), UInt8.ofNat low⟩

/-- The text of a colour without the one hash that may stand in front. -/
def digits (text : String) : List Char :=
  match text.toList with
  | '#' :: rest => rest
  | all => all

def parse (text : String) : Except ColorError Color :=
  let digits := digits text
  if digits.length = 6 ∨ digits.length = 8 then
    match Numeral.integer? 16 (digits.take 6) with
    | some n => .ok (ofPacked n)
    | none => .error (.notHexadecimal text)
  else
    .error (.wrongLength text)

end Color

namespace Palette

def schemes : List (String × Palette) :=
  [("mono", ⟨⟨255, 255, 255⟩, ⟨0, 0, 0⟩⟩),
   ("classic", ⟨⟨0, 255, 0⟩, ⟨0, 0, 0⟩⟩),
   ("amber", ⟨⟨255, 176, 0⟩, ⟨0, 0, 0⟩⟩),
   ("white", ⟨⟨0, 0, 0⟩, ⟨255, 255, 255⟩⟩),
   ("blue", ⟨⟨0, 255, 255⟩, ⟨0, 0, 64⟩⟩),
   ("retro", ⟨⟨255, 255, 0⟩, ⟨64, 0, 64⟩⟩),
   ("octo", ⟨⟨255, 204, 0⟩, ⟨153, 102, 0⟩⟩)]

def defaultScheme : String := "classic"

def ofScheme (name : String) : Except ColorError Palette :=
  match schemes.lookup name with
  | some palette => .ok palette
  | none => .error (.unknownScheme name)

end Palette

def ColorError.message : ColorError → String
  | wrongLength text => "Invalid color '" ++ text ++ "', expected #RRGGBB or #RRGGBBAA"
  | notHexadecimal text => "Invalid color '" ++ text ++ "', expected hexadecimal digits"
  | unknownScheme name =>
    "Unknown color scheme '" ++ name ++ "'. Available: [" ++
      ", ".intercalate (Palette.schemes.map fun s => "'" ++ s.1 ++ "'") ++ "]"

end Chip8
