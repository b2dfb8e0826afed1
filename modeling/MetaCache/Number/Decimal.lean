import MetaCache.Number.Shortest

/-!
# Doubles from decimals

A decimal stands for the magnitude closest to it, whatever its length. Decimals that are far out of
range are recognised by their size, so that no large power is computed for them.
-/

namespace MetaCache.Number

/-- The number of decimal digits. -/
def decimalSize (n : Nat) : Nat := (Nat.repr n).length

/-- The magnitude closest to a decimal, or none if it is past the largest one. -/
def Decimal.nearest? (d : Decimal) : Option Magnitude :=
  let size : Int := d.exponent + decimalSize d.digits
  if d.digits = 0 ∨ size < -400 then some .zero
  else if 400 < size then none
  else Magnitude.nearest? (d.digits * Nat.pow 10 d.exponent.toNat) (Nat.pow 10 (-d.exponent).toNat)

end MetaCache.Number
