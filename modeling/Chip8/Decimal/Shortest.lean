import Chip8.Decimal.Binary
import Chip8.Decimal.Places

/-!
The shortest decimal that reads back as a given floating-point number. For one digit, two digits
and so on, the two decimals of that many digits on either side of the value are tried; the first
count for which one of them lies in the interval of reals that round to the value is enough, and
the nearer of two hits is taken.
-/

namespace Chip8.Decimal

/-- A decimal `digits · 10 ^ exponent`. -/
structure Scientific where
  digits : Nat
  exponent : Int
  deriving DecidableEq, Repr

private def scale (f : Nat × Nat) (power : Int) : Nat × Nat :=
  if power < 0 then (f.1, f.2 * Nat.pow 10 power.natAbs) else (f.1 * Nat.pow 10 power.natAbs, f.2)

private def less (a b : Nat × Nat) : Bool := a.1 * b.2 < b.1 * a.2

/-- The power of ten just below a positive fraction: the greatest `e` with `10 ^ e ≤ f`. -/
def magnitude (f : Nat × Nat) : Int :=
  if f.2 ≤ f.1 then
    (toString (f.1 / f.2)).length - 1
  else
    match (List.range 400).find? fun k => f.2 ≤ f.1 * Nat.pow 10 (k + 1) with
    | some k => -(k + 1 : Int)
    | none => -400

/-- The reals that round to `mantissa · 2 ^ exponent`, in units of a quarter of the last binary
place. Below a power of two the gap is half as wide. -/
private def interval (mantissa : Nat) (exponent : Int) : (Nat × Nat) × (Nat × Nat) :=
  let below := if mantissa = Nat.pow 2 52 ∧ exponent > -1074 then 1 else 2
  (fraction (4 * mantissa - below) (exponent - 2), fraction (4 * mantissa + 2) (exponent - 2))

private def candidate? (mantissa : Nat) (exponent : Int) (count : Nat) : Option Scientific :=
  let value := fraction mantissa exponent
  let (low, high) := interval mantissa exponent
  let unit := magnitude value - count + 1
  let (num, den) := scale value (-unit)
  let lower := num / den
  let point (c : Nat) : Nat × Nat := scale (c, 1) unit
  let inside (c : Nat) : Bool :=
    if mantissa % 2 = 0 then !less (point c) low && !less high (point c)
    else less low (point c) && less (point c) high
  match inside lower, inside (lower + 1) with
  | false, false => none
  | true, false => some ⟨lower, unit⟩
  | false, true => some ⟨lower + 1, unit⟩
  | true, true => some ⟨roundDiv num den, unit⟩

private def strip : Nat → Scientific → Scientific
  | 0, s => s
  | fuel + 1, s =>
    if s.digits ≠ 0 ∧ s.digits % 10 = 0 then strip fuel ⟨s.digits / 10, s.exponent + 1⟩ else s

def shortest (mantissa : Nat) (exponent : Int) : Scientific :=
  match (List.range 17).findSome? fun k => candidate? mantissa exponent (k + 1) with
  | some s => strip 20 s
  | none => ⟨mantissa, exponent⟩

/-- Written with a point from `10 ^ -4` to below `10 ^ 16`, always with a digit on both sides of
it, and beyond with an exponent of a sign and at least two digits. -/
def Scientific.render (s : Scientific) : String :=
  let digits := toString s.digits
  let count : Int := digits.length
  let point := count + s.exponent
  if -4 < point ∧ point ≤ 16 then
    if point ≤ 0 then
      "0." ++ String.ofList (List.replicate point.natAbs '0') ++ digits
    else if s.exponent ≥ 0 then
      digits ++ String.ofList (List.replicate s.exponent.natAbs '0') ++ ".0"
    else
      String.ofList (digits.toList.take point.toNat) ++ "." ++
        String.ofList (digits.toList.drop point.toNat)
  else
    let rest := digits.toList.drop 1
    let tail := if rest.isEmpty then "" else "." ++ String.ofList rest
    let power := point - 1
    String.ofList (digits.toList.take 1) ++ tail ++ "e" ++ (if power < 0 then "-" else "+") ++
      zeroFilled 2 power.natAbs

def text (value : Float) : String :=
  match Binary.ofFloat value with
  | .nan => "nan"
  | .infinite negative => if negative then "-inf" else "inf"
  | .finite negative mantissa exponent =>
    (if negative then "-" else "") ++
      (if mantissa = 0 then "0.0" else (shortest mantissa exponent).render)

end Chip8.Decimal
