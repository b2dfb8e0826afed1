import MetaCache.Number.Binary64

/-!
# The shortest decimal that reads back

The text of a double shows the decimal with the fewest digits among those that round to it. The
reals that round to a magnitude form an interval whose ends are half way to its neighbours; the
ends belong to it when its pattern is even.

A grid `10 ^ k` has a point in that interval exactly when one of the two grid points around the
value lies in it, so it is enough to try these two, from coarse grids to fine ones. The first grid
with a hit gives the digits. Of two hits the nearer one counts, and of two equally near ones the
even one.
-/

namespace MetaCache.Number

/-- The number `digits * 10 ^ exponent`. -/
structure Decimal where
  digits : Nat
  exponent : Int
  deriving DecidableEq, Repr, Inhabited

namespace Magnitude

/-- The lower end of the interval that rounds to `x`, in quarters of a unit. The gap below a power
of two is half the gap above it. -/
def lowerEnd (x : Magnitude) : Nat :=
  4 * x.units - (if x.significand = leadingBit ∧ 0 < x.scale then 1 else 2) <<< x.scale

/-- The upper end of the interval that rounds to `x`, in quarters of a unit. -/
def upperEnd (x : Magnitude) : Nat := 4 * x.units + 2 <<< x.scale

/-- The point of the grid `10 ^ k` that stands for `x`, if one lies in the interval of `x`. -/
def gridPoint? (x : Magnitude) (k : Int) : Option Nat :=
  let stretch := Nat.pow 10 (-k).toNat
  let step := 4 * unitDen * Nat.pow 10 k.toNat
  let value := 4 * x.units * stretch
  let lower := x.lowerEnd * stretch
  let upper := x.upperEnd * stretch
  let below := value / step
  let above := below + 1
  let closed := x.index % 2 = 0
  let belowFits := lower < below * step || closed && lower = below * step
  let aboveFits := above * step < upper || closed && above * step = upper
  if belowFits && aboveFits then
    let down := value - below * step
    let up := above * step - value
    if down < up ∨ (down = up ∧ below % 2 = 0) then some below else some above
  else if belowFits then some below
  else if aboveFits then some above
  else none

/-- Tries the grids `10 ^ k`, `10 ^ (k - 1)`, … in turn. -/
def firstGridPoint (x : Magnitude) : Nat → Int → Decimal
  | 0, k => ⟨0, k⟩
  | tries + 1, k =>
    match x.gridPoint? k with
    | some digits => ⟨digits, k⟩
    | none => firstGridPoint x tries (k - 1)

/-- A grid that is at least as coarse as the first one with a point in the interval of `x`. -/
def coarsestGrid (x : Magnitude) : Int :=
  ((x.units.log2 : Int) - 1073) * 30103 / 100000 + 1

/-- The shortest decimal that rounds to `x`. Seventeen digits always suffice. -/
def shortest (x : Magnitude) : Decimal :=
  if x.isZero then ⟨0, 0⟩ else x.firstGridPoint 24 x.coarsestGrid

end Magnitude

/--
How the digits of a double are laid out: the range of decimal exponents that are written
positionally, everywhere with a decimal point. Outside of it the exponent is written with a sign.
-/
structure FloatStyle where
  positionalFrom : Int
  positionalTo : Int

namespace FloatStyle

/-- Zeros to the left or right of the point, so that no exponent is needed. -/
def positional (digits : List Char) (exponent : Int) : List Char :=
  let places := (digits.length : Int) - 1
  if places ≤ exponent then digits ++ List.replicate (exponent - places).toNat '0' ++ ['.', '0']
  else if 0 ≤ exponent then
    digits.take (exponent.toNat + 1) ++ '.' :: digits.drop (exponent.toNat + 1)
  else '0' :: '.' :: List.replicate ((-exponent).toNat - 1) '0' ++ digits

/-- One digit before the point and a signed exponent; no point after a single digit. -/
def scientific (digits : List Char) (exponent : Int) : List Char :=
  let mantissa :=
    match digits with
    | first :: second :: rest => first :: '.' :: second :: rest
    | short => short
  let sign := if exponent < 0 then '-' else '+'
  mantissa ++ 'e' :: sign :: (Nat.repr exponent.natAbs).toList

/-- The text of a double. -/
def write (style : FloatStyle) (x : Binary64) : List Char :=
  let decimal := x.magnitude.shortest
  let digits := (Nat.repr decimal.digits).toList
  let exponent := decimal.exponent + (digits.length : Int) - 1
  let body :=
    if style.positionalFrom ≤ exponent ∧ exponent ≤ style.positionalTo then
      positional digits exponent
    else scientific digits exponent
  if x.negative then '-' :: body else body

end FloatStyle

end MetaCache.Number
