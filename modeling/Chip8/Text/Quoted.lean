import Chip8.Text.Hex

/-!
Quoted text in messages. The quote is single unless the text holds single quotes and no double
ones; the backslash, the quote itself and characters that cannot be shown are escaped.
-/

namespace Chip8.Text

private def lowerHex (width n : Nat) : List Char :=
  let ds := (Hex.digits n).map Char.toLower
  List.replicate (width - ds.length) '0' ++ ds

/-- The first and last code points of the runs of controls, format characters, blanks other than the
space, and characters of private use. -/
def hiddenRuns : List (Nat × Nat) :=
  [(0x0, 0x1f), (0x7f, 0xa0), (0xad, 0xad), (0x600, 0x605), (0x61c, 0x61c), (0x6dd, 0x6dd),
   (0x70f, 0x70f), (0x890, 0x891), (0x8e2, 0x8e2), (0x1680, 0x1680), (0x180e, 0x180e),
   (0x2000, 0x200f), (0x2028, 0x202f), (0x205f, 0x206f), (0x3000, 0x3000), (0xe000, 0xf8ff),
   (0xfeff, 0xfeff), (0xfff9, 0xfffb), (0x110bd, 0x110bd), (0x110cd, 0x110cd), (0x13430, 0x13438),
   (0x1bca0, 0x1bca3), (0x1d173, 0x1d17a), (0xe0000, 0xe00ff), (0xe01f0, 0x10ffff)]

def isHidden (c : Char) : Bool :=
  hiddenRuns.any fun run => run.1 ≤ c.toNat && c.toNat ≤ run.2

def escapeChar (quote c : Char) : List Char :=
  if c = '\\' || c = quote then ['\\', c]
  else if c = '\n' then ['\\', 'n']
  else if c = '\r' then ['\\', 'r']
  else if c = '\t' then ['\\', 't']
  else if isHidden c then
    if c.toNat < 0x100 then '\\' :: 'x' :: lowerHex 2 c.toNat
    else if c.toNat < 0x10000 then '\\' :: 'u' :: lowerHex 4 c.toNat
    else '\\' :: 'U' :: lowerHex 8 c.toNat
  else [c]

def quoted (text : String) : String :=
  let cs := text.toList
  let quote := if cs.contains '\'' && !cs.contains '"' then '"' else '\''
  String.ofList (quote :: cs.flatMap (escapeChar quote) ++ [quote])

end Chip8.Text
