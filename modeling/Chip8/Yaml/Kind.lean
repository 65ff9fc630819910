import Chip8.Text.Form

/-!
What plain scalars stand for. A scalar without quotes and tag is taken for a truth value, a number,
nothing, or one of two marks when its text has their form; the forms are tried in a fixed order and
the first that fits counts.
-/

namespace Chip8.Yaml

open Text Text.Form

private def isDigit (c : Char) : Bool := '0' ≤ c && c ≤ '9'

private def isDigitOr (c : Char) : Bool := isDigit c || c = '_'

private def digit : Form := char isDigit

private def sign : Form := optional (oneOf "+-")

private def groups (text : List Char) : Form :=
  let group := seq (is '_') (oneOrMore isDigit)
  seq (oneOrMore isDigit) (optional (repeated group text.length))

/-- Sexagesimal places after a colon each. -/
private def sixties (text : List Char) : Form :=
  repeated (all [is ':', optional (char fun c => '0' ≤ c && c ≤ '5'), digit]) text.length

inductive Kind where
  | null | bool | int | float | text | merge | value
  deriving DecidableEq, Repr

namespace Kind

private def truthWords : List String :=
  ["yes", "Yes", "YES", "no", "No", "NO", "true", "True", "TRUE", "false", "False", "FALSE",
   "on", "On", "ON", "off", "Off", "OFF"]

private def infinity : Form :=
  seq sign (fun t => (word ".inf" t) ++ (word ".Inf" t) ++ (word ".INF" t))

private def noNumber : Form := fun t => (word ".nan" t) ++ (word ".NaN" t) ++ (word ".NAN" t)

private def exponent (signed : Form) : Form := all [oneOf "eE", signed, oneOrMore isDigit]

private def sixtiesFloat (t : List Char) : Form :=
  all [sign, digit, many isDigitOr, sixties t, is '.', many isDigitOr]

private def isPointFloat (t : List Char) : Bool :=
  let signedPower := optional (exponent (oneOf "+-"))
  [all [sign, digit, many isDigitOr, is '.', many isDigitOr, signedPower],
   all [is '.', digit, many isDigitOr, signedPower],
   sixtiesFloat t, infinity, noNumber].any (fits · t)

/-- Decimals that need no point when they have an exponent. -/
private def isPowerFloat (t : List Char) : Bool :=
  let power := exponent sign
  [all [sign, groups t, is '.', many isDigitOr, optional power],
   all [sign, groups t, power],
   all [is '.', groups t, optional (exponent (oneOf "+-"))],
   all [sign, groups t, sixties t, is '.', many isDigitOr], infinity, noNumber].any (fits · t)

private def isInt (t : List Char) : Bool :=
  let hex (c : Char) : Bool := isDigitOr c || ('a' ≤ c && c ≤ 'f') || ('A' ≤ c && c ≤ 'F')
  let first := char fun c => '1' ≤ c && c ≤ '9'
  [all [sign, word "0b", oneOrMore fun c => c = '0' || c = '1' || c = '_'],
   all [sign, is '0', oneOrMore fun c => ('0' ≤ c && c ≤ '7') || c = '_'],
   all [sign, is '0'],
   all [sign, first, many isDigitOr],
   all [sign, word "0x", oneOrMore hex],
   all [sign, first, many isDigitOr, sixties t]].any (fits · t)

def ofPlain (text : String) : Kind :=
  let t := text.toList
  if text ∈ truthWords then bool
  else if isPointFloat t then float
  else if isInt t then int
  else if text = "<<" then merge
  else if text ∈ ["~", "null", "Null", "NULL", ""] then null
  else if text = "=" then value
  else if isPowerFloat t then float
  else .text

end Kind

end Chip8.Yaml
