import MetaCache.Text.Hex

/-!
# Percent encoding

A character that may not stand for itself is written byte by byte, each byte of its UTF-8 form as a
percent sign and two uppercase digits. Which characters these are depends on the part of the
address; control characters and all of what is not ASCII are always among them.
-/

namespace MetaCache.Url

open MetaCache.Text

/-- An uppercase hexadecimal digit. -/
def upperHexChar (d : Fin 16) : Char := (hexChar d).toUpper

/-- A byte as a percent sign and two digits. -/
def encodeByte (b : UInt8) : List Char :=
  ['%', upperHexChar (highDigit b), upperHexChar (lowDigit b)]

/-- A character, encoded if it is in the set. -/
def encodeChar (set : Char → Bool) (c : Char) : List Char :=
  if set c then (String.utf8EncodeChar c).flatMap encodeByte else [c]

def encode (set : Char → Bool) (cs : List Char) : List Char := cs.flatMap (encodeChar set)

/-- The bytes that a text stands for. A percent sign without two digits stands for itself. -/
def decode : List Char → List UInt8
  | [] => []
  | '%' :: a :: b :: rest =>
    match hexValue? a, hexValue? b with
    | some high, some low => UInt8.ofNat (high.val * 16 + low.val) :: decode rest
    | _, _ => 0x25 :: decode (a :: b :: rest)
  | c :: rest => String.utf8EncodeChar c ++ decode rest

/-! ## Sets -/

/-- Control characters and all characters that are not ASCII. -/
def controlSet (c : Char) : Bool := c.toNat < 0x20 || 0x7f ≤ c.toNat

def fragmentSet (c : Char) : Bool := controlSet c || c ∈ [' ', '"', '<', '>', '\x60']

def querySet (c : Char) : Bool := controlSet c || c ∈ [' ', '"', '#', '<', '>', '\'']

def pathSet (c : Char) : Bool := fragmentSet c || c ∈ ['#', '?', '{', '}']

def userinfoSet (c : Char) : Bool :=
  pathSet c || c ∈ ['/', ':', ';', '=', '@', '[', '\\', ']', '^', '|']

end MetaCache.Url
