/-!
# Hexadecimal digits

A digit is a number below sixteen. Digits are written in lowercase and read in either case, and
what was written reads back (`hexValue?_hexChar`).
-/

namespace MetaCache.Text

/-- The lowercase digit for `d`. -/
def hexChar (d : Fin 16) : Char :=
  if d.val < 10 then Char.ofNat (0x30 + d.val) else Char.ofNat (0x61 + (d.val - 10))

/-- The value of a digit in either case. -/
def hexValue? (c : Char) : Option (Fin 16) :=
  let n := c.toNat
  if h : 0x30 ≤ n ∧ n ≤ 0x39 then some ⟨n - 0x30, by omega⟩
  else if h : 0x61 ≤ n ∧ n ≤ 0x66 then some ⟨n - 0x61 + 10, by omega⟩
  else if h : 0x41 ≤ n ∧ n ≤ 0x46 then some ⟨n - 0x41 + 10, by omega⟩
  else none

@[simp]
theorem hexValue?_hexChar (d : Fin 16) : hexValue? (hexChar d) = some d := by
  revert d; decide

/-- The digits of `n`, most significant first and at least one. -/
def hexDigits (n : Nat) : List Char :=
  (Nat.toDigits 16 n)

/-- The upper digit of a byte. -/
def highDigit (b : UInt8) : Fin 16 := ⟨b.toNat / 16, by have := b.toNat_lt; omega⟩

/-- The lower digit of a byte. -/
def lowDigit (b : UInt8) : Fin 16 := ⟨b.toNat % 16, by omega⟩

/-- The two digits of a byte. -/
def hexByte (b : UInt8) : List Char := [hexChar (highDigit b), hexChar (lowDigit b)]

/-- The bytes that pairs of digits stand for. -/
def bytesOfHex? : List Char → Option (List UInt8)
  | [] => some []
  | [_] => none
  | a :: b :: rest => do
    let high ← hexValue? a
    let low ← hexValue? b
    let tail ← bytesOfHex? rest
    return UInt8.ofNat (high.val * 16 + low.val) :: tail

/-- Bytes as pairs of digits. -/
def hexOfBytes (bytes : List UInt8) : List Char := bytes.flatMap hexByte

end MetaCache.Text
