/-!
# Finite doubles as ordered magnitudes

A finite double is a sign and a *magnitude*, and the magnitudes are numbered from zero in
increasing order. The number of a magnitude is its bit pattern, so order on numbers is order on
values and the next double is the next number.

All arithmetic is exact on ratios of naturals and rounds once, through `Magnitude.nearest?`:
the closest magnitude wins and of two equally close ones the even one. There is no other rounding
in the library.
-/

namespace MetaCache.Number

/-- The quotient `num / den` rounded to the closest natural; a half goes to the even neighbour. -/
def divHalfEven (num den : Nat) : Nat :=
  let q := num / den
  let r := num % den
  if 2 * r < den then q
  else if den < 2 * r then q + 1
  else if q % 2 = 0 then q else q + 1

/-- What the leading bit of a full significand counts. There are 52 bits below it. -/
def leadingBit : Nat := 0x10000000000000

/-- The number of the first pattern that is no finite value. -/
def infinityIndex : Nat := 2047 * leadingBit

/-- The absolute value of a finite double, given by its place in increasing order. -/
structure Magnitude where
  index : Nat
  finite : index < infinityIndex
  deriving DecidableEq, Repr

namespace Magnitude

def zero : Magnitude := ⟨0, by decide⟩

instance : Inhabited Magnitude := ⟨zero⟩

def isZero (x : Magnitude) : Bool := x.index = 0

/-- The significand: the low 52 bits, with the leading one restored above the subnormal range. -/
def significand (x : Magnitude) : Nat :=
  if x.index < leadingBit then x.index else leadingBit + x.index % leadingBit

/-- How many binary places above `2 ^ -1074` the significand stands. -/
def scale (x : Magnitude) : Nat := x.index / leadingBit - 1

/-- The value of `x` in units of `2 ^ -1074`, the smallest positive magnitude. -/
def units (x : Magnitude) : Nat := x.significand <<< x.scale

/-- The common denominator of all magnitudes. -/
def unitDen : Nat := 1 <<< 1074

/--
The binary place at which `num / den` is rounded: the smallest `e` such that the quotient is
below `2 ^ (53 + e)` units of `2 ^ -1074`.
-/
def roundingPlace (num den : Nat) : Nat :=
  let quotient := num * unitDen / den
  quotient.log2 - 52

/-- The magnitude closest to `num / den`, or `none` when that is past the largest finite one. -/
def nearest? (num den : Nat) : Option Magnitude :=
  let place := roundingPlace num den
  let index := place * leadingBit + divHalfEven (num * unitDen) (den <<< place)
  if h : index < infinityIndex then some ⟨index, h⟩ else none

def ofNat? (n : Nat) : Option Magnitude := nearest? n 1

def add? (x y : Magnitude) : Option Magnitude := nearest? (x.units + y.units) unitDen

def mul? (x y : Magnitude) : Option Magnitude := nearest? (x.units * y.units) (unitDen * unitDen)

/-- Division rounds like the rest; nothing is divided by zero. -/
def div? (x y : Magnitude) : Option Magnitude :=
  if y.isZero then none else nearest? x.units y.units

/-- The value of `x` times `factor`, rounded to a natural with halves to even. -/
def timesRounded (x : Magnitude) (factor : Nat) : Nat := divHalfEven (x.units * factor) unitDen

end Magnitude

/-- A finite double. Zero has both signs. -/
structure Binary64 where
  negative : Bool
  magnitude : Magnitude
  deriving DecidableEq, Repr, Inhabited

end MetaCache.Number
