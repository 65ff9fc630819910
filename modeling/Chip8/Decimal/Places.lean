import Chip8.Decimal.Binary

/-!
Decimals with a set number of places. The exact value is rounded, and a value half way between two
decimals goes to the one that ends in an even digit.
-/

namespace Chip8.Decimal

def zeroFilled (width : Nat) (n : Nat) : String :=
  let digits := toString n
  String.ofList (List.replicate (width - digits.length) '0') ++ digits

/-- Two places after the point. The sign is that of the value, also when zero is left of it. -/
def hundredths (value : Float) : String :=
  match Binary.ofFloat value with
  | .nan => "nan"
  | .infinite negative => if negative then "-inf" else "inf"
  | .finite negative mantissa exponent =>
    let (num, den) := fraction mantissa exponent
    let scaled := roundDiv (num * 100) den
    (if negative then "-" else "") ++ toString (scaled / 100) ++ "." ++
      zeroFilled 2 (scaled % 100)

end Chip8.Decimal
