/-!
The exact value of a floating-point number, as a whole number times a power of two, and the
rounding of quotients. Everything that writes decimals starts from here, so that digits are chosen
in exact arithmetic.
-/

namespace Chip8.Decimal

inductive Binary where
  | nan
  | infinite (negative : Bool)
  | finite (negative : Bool) (mantissa : Nat) (exponent : Int)
  deriving DecidableEq, Repr

namespace Binary

def ofFloat (value : Float) : Binary :=
  let bits := value.toBits.toNat
  let negative := decide (bits / Nat.pow 2 63 = 1)
  let exponent : Nat := bits / Nat.pow 2 52 % Nat.pow 2 11
  let fraction : Nat := bits % Nat.pow 2 52
  if exponent = 2047 then
    if fraction = 0 then infinite negative else nan
  else if exponent = 0 then
    finite negative fraction (-1074)
  else
    finite negative (fraction + Nat.pow 2 52) ((exponent : Int) - 1075)

end Binary

def fraction (mantissa : Nat) (exponent : Int) : Nat × Nat :=
  let scale := Nat.pow 2 exponent.natAbs
  if exponent < 0 then (mantissa, scale) else (mantissa * scale, 1)

/-- The nearest whole number to a quotient; of two equally near ones the even. -/
def roundDiv (num den : Nat) : Nat :=
  let quotient := num / den
  let twice := 2 * (num % den)
  if twice < den then quotient
  else if twice > den then quotient + 1
  else quotient + quotient % 2

end Chip8.Decimal
