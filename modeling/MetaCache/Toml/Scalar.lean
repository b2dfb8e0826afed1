import MetaCache.Number.Decimal
import MetaCache.Schema.Tree
import MetaCache.Toml.Scan

/-!
# Numbers, dates and times of TOML

Digits may have underscores between them. Decimal numbers begin with a zero only if it stands alone.
Integers have 64 bits and may be hexadecimal, octal or binary. Everything with a fraction or an
exponent is a double.

Dates exist in the calendar; hours, minutes and seconds are in range, where a leap second may always
be.
-/

namespace MetaCache.Toml

open MetaCache.Number

/-! ## Digits -/

/-- More digits, each of them with at most one underscore before it. -/
def moreDigits (isDigit : Char → Bool) : List Char → Option (List Char × List Char)
  | '_' :: c :: rest =>
    if isDigit c then (moreDigits isDigit rest).map fun (digits, rest) => (c :: digits, rest)
    else none
  | ['_'] => none
  | c :: rest =>
    if isDigit c then (moreDigits isDigit rest).map fun (digits, rest) => (c :: digits, rest)
    else some ([], c :: rest)
  | [] => some ([], [])

/-- At least one digit. -/
def someDigits (isDigit : Char → Bool) : List Char → Option (List Char × List Char)
  | c :: rest =>
    if isDigit c then (moreDigits isDigit rest).map fun (digits, rest) => (c :: digits, rest)
    else none
  | [] => none

/-- The value of a digit up to `f`. -/
def digitValue (c : Char) : Nat :=
  if c.isDigit then c.toNat - 0x30 else c.toLower.toNat - 0x61 + 10

/-- The number that digits stand for. -/
def digitsValue (base : Nat) (digits : List Char) : Nat :=
  digits.foldl (fun n c => n * base + digitValue c) 0

def isHexDigit (c : Char) : Bool :=
  c.isDigit || 'a' ≤ c.toLower && c.toLower ≤ 'f'

namespace Scan

/-- Whether a minus sign stands ahead; either sign is taken. -/
def sign : Scan Bool := do
  match ← peek with
  | some '-' => do char '-'; pure true
  | some '+' => do char '+'; pure false
  | _ => pure false

/-- Digits of a decimal whole number, without its sign. -/
def wholeDigits : Scan (List Char) := fun cs =>
  match cs with
  | '0' :: rest => some (['0'], rest)
  | cs => someDigits Char.isDigit cs

/-! ## Integers -/

/-- An integer in 64 bits. -/
def fitting (n : Int) : Scan Tree :=
  if -0x8000000000000000 ≤ n ∧ n < 0x8000000000000000 then pure (.integer n) else failure

/-- The digits behind the letter of a base. -/
def based (base : Nat) (isDigit : Char → Bool) : Scan Tree := do
  let digits ← someDigits isDigit
  fitting (digitsValue base digits)

def integer : Scan Tree := fun cs =>
  match cs with
  | '0' :: 'x' :: rest => based 16 isHexDigit rest
  | '0' :: 'o' :: rest => based 8 (fun c => '0' ≤ c && c ≤ '7') rest
  | '0' :: 'b' :: rest => based 2 (fun c => c = '0' || c = '1') rest
  | cs =>
    (do
      let negative ← sign
      let n := digitsValue 10 (← wholeDigits)
      fitting (if negative then -n else n) : Scan Tree) cs

/-! ## Doubles -/

/-- The layout of doubles in messages: no exponents. -/
def floatStyle : FloatStyle := ⟨-400, 400⟩

/-- A double as data. -/
def ofMagnitude (negative : Bool) (x : Magnitude) : Tree :=
  .floating (String.ofList (floatStyle.write ⟨negative, x⟩)) (some ⟨negative, x⟩)

/-- What is too large for a double, or said to be. -/
def infinite (negative : Bool) : Tree := .floating (if negative then "-inf" else "inf") none

/-- The exponent behind its letter. -/
def exponent : Scan Int := do
  let _ ← satisfying fun c => c = 'e' || c = 'E'
  let negative ← sign
  let n := digitsValue 10 (← someDigits Char.isDigit)
  return if negative then -n else n

def fraction : Scan (List Char) := do
  char '.'
  someDigits Char.isDigit

/-- A number with a fraction or an exponent. Positive ones must not be too large. -/
def float : Scan Tree := do
  let negative ← sign
  let whole ← wholeDigits
  let part ← optional fraction
  let power ← optional exponent
  if part.isNone && power.isNone then failure
  let digits := whole ++ part.getD []
  let decimal : Decimal :=
    ⟨digitsValue 10 digits, power.getD 0 - ((part.getD []).length : Int)⟩
  match decimal.nearest? with
  | some x => return ofMagnitude negative x
  | none => if negative then return infinite true else failure

/-- Infinity and what is no number. -/
def special : Scan Tree := do
  let negative ← sign
  orElse (do word ['i', 'n', 'f']; pure (infinite negative))
    (do word ['n', 'a', 'n']; pure (.floating "NaN" none))

/-! ## Dates and times -/

/-- Exactly `count` digits. -/
def fixedDigits : Nat → Scan (List Char)
  | 0 => pure []
  | count + 1 => do
    let c ← satisfying Char.isDigit
    return c :: (← fixedDigits count)

/-- A number of `count` digits between two bounds. -/
def between (count low high : Nat) : Scan Nat := do
  let n := digitsValue 10 (← fixedDigits count)
  if low ≤ n ∧ n ≤ high then pure n else failure

/-- The last day of a month. -/
def lastDay (year month : Nat) : Nat :=
  if month = 2 then
    if year % 4 = 0 ∧ (year % 100 ≠ 0 ∨ year % 400 = 0) then 29 else 28
  else if month = 4 ∨ month = 6 ∨ month = 9 ∨ month = 11 then 30
  else 31

def date : Scan Unit := do
  let year ← between 4 0 9999
  char '-'
  let month ← between 2 1 12
  char '-'
  let _ ← between 2 1 (lastDay year month)

def clock : Scan Unit := do
  let _ ← between 2 0 23
  char ':'
  let _ ← between 2 0 59
  char ':'
  let _ ← between 2 0 60
  let _ ← optional do
    char '.'
    let _ ← satisfying Char.isDigit
    takeWhile Char.isDigit

def offset : Scan Unit := do
  match ← satisfying fun c => c = 'Z' || c = 'z' || c = '+' || c = '-' with
  | 'Z' | 'z' => pure ()
  | _ =>
    let _ ← between 2 0 23
    char ':'
    let _ ← between 2 0 59

/-- A date, a time, or both with or without an offset. -/
def dateTime : Scan Unit :=
  orElse
    (do
      date
      let _ ← optional do
        let _ ← satisfying fun c => c = 'T' || c = 't' || c = ' '
        clock
        optional offset)
    clock

/-- The name of the only member of a date or time taken as a map. -/
def momentField : String := "$__toml_private_datetime"

/-- A date or time as data. -/
def moment : Scan Tree := fun cs =>
  match dateTime cs with
  | some ((), rest) =>
    some (.moment momentField (String.ofList (cs.take (cs.length - rest.length))), rest)
  | none => none

/-- Whatever begins with a digit or a sign. -/
def number : Scan Tree := orElse moment (orElse float (orElse special integer))

end Scan

end MetaCache.Toml
