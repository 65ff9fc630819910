import Chip8.Decimal.Binary
import Chip8.Text.Digit
import Chip8.Text.Hex

/-!
Numbers as people type them. Blanks around a number are ignored, a sign may stand in front, single
underscores may separate digits, and the digits may come from any script.
-/

namespace Chip8.Numeral

def digit? (base : Nat) (c : Char) : Option Nat :=
  (Hex.value? c).filter (· < base)

/-- Digits with single underscores between them, most significant first. -/
def digits? (base : Nat) : List Char → Option (List Nat)
  | [] => none
  | [c] => (digit? base c).map ([·])
  | c :: '_' :: rest => do
    let d ← digit? base c
    let ds ← digits? base rest
    return d :: ds
  | c :: rest => do
    let d ← digit? base c
    let ds ← digits? base rest
    return d :: ds

def value (base : Nat) (digits : List Nat) : Nat :=
  digits.foldl (fun n d => n * base + d) 0

/-- A sign in front, `true` for minus, and what follows it. -/
def splitSign : List Char → Bool × List Char
  | '-' :: rest => (true, rest)
  | '+' :: rest => (false, rest)
  | rest => (false, rest)

def mark? : Nat → Option Char
  | 2 => some 'b'
  | 8 => some 'o'
  | 16 => some 'x'
  | _ => none

/-- Drops a mark of the base such as `0x`, with an underscore that may follow it. -/
def dropMark (base : Nat) (text : List Char) : List Char :=
  match text with
  | '0' :: c :: rest =>
    if mark? base = some c.toLower then
      match rest with
      | '_' :: tail => tail
      | _ => rest
    else text
  | _ => text

def longestDecimal : Nat := 4300

/-- A whole number in base 2, 8, 10 or 16; in the other bases than ten a mark of the base may stand
in front of the digits. -/
def integer? (base : Nat) (text : List Char) : Option Int := do
  let (negative, body) := splitSign (Text.trim (text.map Text.plainChar))
  let digits ← digits? base (dropMark base body)
  if base = 10 ∧ digits.length > longestDecimal then none
  let n := value base digits
  return if negative then -(n : Int) else n

/-- The floating-point number nearest to a fraction, halves to the even one; `infinite` beyond the
greatest. -/
def nearest (negative : Bool) (num den : Nat) : Float :=
  let sign : Nat := if negative then Nat.pow 2 63 else 0
  if num = 0 then Float.ofBits (UInt64.ofNat sign)
  else
    let guess : Int := max ((num.log2 : Int) - den.log2 - 53) (-1074)
    let quotient (e : Int) : Nat × Nat :=
      if e < 0 then (num * Nat.pow 2 e.natAbs, den) else (num, den * Nat.pow 2 e.natAbs)
    let first := quotient guess
    let e := if first.1 / first.2 ≥ Nat.pow 2 53 then guess + 1 else guess
    let (top, bottom) := quotient e
    let mantissa := Decimal.roundDiv top bottom
    let bits := (e + 1074).toNat * Nat.pow 2 52 + mantissa
    Float.ofBits (UInt64.ofNat (sign + min bits (2047 * Nat.pow 2 52)))

def float? (n : Int) : Option Float :=
  let f := nearest (n < 0) n.natAbs 1
  if f.isInf then none else some f

private def decimalPoint (negative : Bool) (whole places : List Nat) (power : Int) : Float :=
  let digits := (whole ++ places).dropWhile (· = 0)
  let n := value 10 digits
  let exponent := power - places.length
  -- far outside the range the exact fraction need not be built
  if exponent + digits.length > 400 ∧ n ≠ 0 then
    nearest negative (Nat.pow 2 1024) 1
  else if exponent + digits.length < -400 ∨ n = 0 then
    nearest negative 0 1
  else if exponent < 0 then
    nearest negative n (Nat.pow 10 exponent.natAbs)
  else
    nearest negative (n * Nat.pow 10 exponent.natAbs) 1

private def optionalDigits? : List Char → Option (List Nat)
  | [] => some []
  | text => digits? 10 text

def decimal? (text : List Char) : Option Float := do
  let (negative, body) := splitSign (Text.trim (text.map Text.plainChar))
  let word := String.ofList (body.map Char.toLower)
  if word = "inf" ∨ word = "infinity" then return nearest negative (Nat.pow 2 1024) 1
  if word = "nan" then return 0.0 / 0.0
  let isMark (c : Char) : Bool := c = 'e' || c = 'E'
  let number := body.takeWhile (!isMark ·)
  let whole := number.takeWhile (· ≠ '.')
  let places := (number.dropWhile (· ≠ '.')).drop 1
  let wholeDigits ← optionalDigits? whole
  let placeDigits ← optionalDigits? places
  if wholeDigits.isEmpty && placeDigits.isEmpty then none
  let power ← match body.dropWhile (!isMark ·) with
    | [] => some 0
    | _ :: rest =>
      let (down, digits) := splitSign rest
      (digits? 10 digits).map fun ds =>
        let n : Int := value 10 ds
        if down then -n else n
  return decimalPoint negative wholeDigits placeDigits power

end Chip8.Numeral
