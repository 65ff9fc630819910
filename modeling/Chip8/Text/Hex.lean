/-!
Hexadecimal text of whole numbers. `padded` fills with zeros up to a width that counts the sign,
as diagnostics write addresses and words; `lower` writes bytes for dumps.
-/

namespace Chip8.Hex

def digit (n : Nat) : Char :=
  if n < 10 then Char.ofNat (48 + n) else Char.ofNat (55 + n)

def digits (n : Nat) : List Char :=
  if n < 16 then [digit n] else digits (n / 16) ++ [digit (n % 16)]

/-- Zeros stand between the sign and the digits until the text has the width. -/
def padded (width : Nat) (n : Int) : String :=
  let ds := digits n.natAbs
  if n < 0 then
    String.ofList ('-' :: (List.replicate (width - 1 - ds.length) '0' ++ ds))
  else
    String.ofList (List.replicate (width - ds.length) '0' ++ ds)

def value? (c : Char) : Option Nat :=
  if '0' ≤ c ∧ c ≤ '9' then some (c.toNat - 48)
  else if 'A' ≤ c ∧ c ≤ 'F' then some (c.toNat - 55)
  else if 'a' ≤ c ∧ c ≤ 'f' then some (c.toNat - 87)
  else none

end Chip8.Hex
