import MetaCache.Json.Value
import MetaCache.Number.Shortest
import MetaCache.Text.Hex

/-!
# JSON text of values

Values are written without blanks. In a string only what must be escaped is: the quote, the
backslash and the control characters below `U+0020`, five of them by a letter. Everything else
stands as itself, so a written string has no line break in it.

Doubles have their shortest digits. They are written positionally from `10 ^ -5` up to just below
`10 ^ 16`, always with a point, and with a signed exponent otherwise.
-/

namespace MetaCache.Json

open MetaCache.Number MetaCache.Text

/-- The layout of doubles in JSON text. -/
def floatStyle : FloatStyle := ⟨-5, 15⟩

/-- How a character is written inside a string. -/
def escapeChar (c : Char) : List Char :=
  if c = '"' then ['\\', '"']
  else if c = '\\' then ['\\', '\\']
  else if c.toNat = 0x08 then ['\\', 'b']
  else if c.toNat = 0x09 then ['\\', 't']
  else if c.toNat = 0x0a then ['\\', 'n']
  else if c.toNat = 0x0c then ['\\', 'f']
  else if c.toNat = 0x0d then ['\\', 'r']
  else if c.toNat < 0x20 then
    ['\\', 'u', '0', '0', hexChar ⟨c.toNat / 16 % 16, by omega⟩, hexChar ⟨c.toNat % 16, by omega⟩]
  else [c]

/-- A string between quotes. -/
def writeString (s : String) : List Char := '"' :: s.toList.flatMap escapeChar ++ ['"']

/-- A whole number in decimal digits, with a sign only below zero. -/
def writeInt (n : Int) : List Char :=
  if n < 0 then '-' :: (Nat.repr n.natAbs).toList else (Nat.repr n.natAbs).toList

def Number.write : Number → List Char
  | .integer n _ => writeInt n
  | .float x => floatStyle.write x

def writeBool (b : Bool) : List Char := (if b then "true" else "false").toList

mutual
/-- The text of a value. -/
def Value.write : Value → List Char
  | .null => "null".toList
  | .bool b => writeBool b
  | .number n => n.write
  | .string s => writeString s
  | .array items => '[' :: writeItems items ++ [']']
  | .object members => '{' :: writeMembers members ++ ['}']

/-- Items, separated by commas. -/
def writeItems : List Value → List Char
  | [] => []
  | [item] => item.write
  | item :: rest => item.write ++ ',' :: writeItems rest

/-- Members, separated by commas. -/
def writeMembers : List (String × Value) → List Char
  | [] => []
  | [(name, value)] => writeString name ++ ':' :: value.write
  | (name, value) :: rest => writeString name ++ ':' :: value.write ++ ',' :: writeMembers rest
end

/-- The text of an object's canonical form. -/
def Object.write (o : Object) : List Char := o.toValue.write

end MetaCache.Json
