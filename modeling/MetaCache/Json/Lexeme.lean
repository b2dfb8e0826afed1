import MetaCache.Json.Reader
import MetaCache.Json.Value
import MetaCache.Text.Hex
import MetaCache.Text.Utf8

/-!
# Words, strings and numbers of JSON text

Strings must be UTF-8. A surrogate may only be written as the first half of a pair, directly before
its second half.

A number is read digit by digit. Its *significand* takes up digits as long as 64 bits hold it; the
later digits of the whole part only count as powers of ten and later fraction digits are ignored. A
number with a fraction, an exponent or more digits than that is a double: the significand, rounded,
times or divided by one correctly rounded power of ten. With powers past `10 ^ 308` there is more
than one division. So the double is close to the decimal but not always the closest one.
-/

namespace MetaCache.Json

open MetaCache.Number MetaCache.Text

/-! ## Blanks and words -/

def isBlank (b : UInt8) : Bool := b = 0x20 || b = 0x0a || b = 0x09 || b = 0x0d

def isDigit (b : UInt8) : Bool := 0x30 ≤ b && b ≤ 0x39

namespace Reader

/-- Drops blanks and looks at the byte behind them. -/
def nextSign : Reader (Option UInt8) := do
  let _ ← takeWhile isBlank
  peek

/-- The rest of a word whose first letter is behind. -/
def word : List UInt8 → Reader Unit
  | [] => pure ()
  | letter :: rest => do
    match ← next with
    | none => failHere .endOfValue
    | some b => if b = letter then word rest else failHere .expectedWord

/-- The letters after the first one of `null`, `true` and `false`. -/
def ull : List UInt8 := [0x75, 0x6c, 0x6c]
def rue : List UInt8 := [0x72, 0x75, 0x65]
def alse : List UInt8 := [0x61, 0x6c, 0x73, 0x65]

end Reader

/-! ## Strings -/

/-- The byte that an escape of one letter stands for. -/
def letterEscape? (b : UInt8) : Option UInt8 :=
  if b = 0x22 then some 0x22
  else if b = 0x5c then some 0x5c
  else if b = 0x2f then some 0x2f
  else if b = 0x62 then some 0x08
  else if b = 0x66 then some 0x0c
  else if b = 0x6e then some 0x0a
  else if b = 0x72 then some 0x0d
  else if b = 0x74 then some 0x09
  else none

/-- The code unit that four hexadecimal digits stand for. -/
def codeUnit? (a b c d : UInt8) : Option Nat := do
  let a ← hexValue? (Char.ofNat a.toNat)
  let b ← hexValue? (Char.ofNat b.toNat)
  let c ← hexValue? (Char.ofNat c.toNat)
  let d ← hexValue? (Char.ofNat d.toNat)
  return ((a.val * 16 + b.val) * 16 + c.val) * 16 + d.val

def isFirstSurrogate (n : Nat) : Bool := 0xd800 ≤ n && n ≤ 0xdbff

def isSecondSurrogate (n : Nat) : Bool := 0xdc00 ≤ n && n ≤ 0xdfff

/-- The code point of a surrogate pair. -/
def joinSurrogates (first second : Nat) : Nat :=
  0x10000 + (first - 0xd800) * 0x400 + (second - 0xdc00)

/-- The UTF-8 bytes of a code point, last one first. -/
def codePointReversed (n : Nat) : List UInt8 :=
  ((Char.ofNat n).toString.toUTF8.data.toList).reverse

/-- How the content of a string ends: with the bytes it stands for or with a fault. -/
abbrev StringReading := Reading (List UInt8)

/-- The content of a string up to its closing quote, escapes resolved. `done` holds the bytes
read so far, last one first. -/
def stringContent : List UInt8 → Position → List UInt8 → StringReading
  | [], p, _ => .failed ⟨.malformed .endOfString, some p⟩ ⟨[], p⟩
  | b :: rest, p, done =>
    let p := p.after b
    if b = 0x22 then .done done.reverse ⟨rest, p⟩
    else if b = 0x5c then
      match rest with
      | [] => .failed ⟨.malformed .endOfString, some p⟩ ⟨[], p⟩
      | e :: rest =>
        let p := p.after e
        match letterEscape? e with
        | some c => stringContent rest p (c :: done)
        | none =>
          if e = 0x75 then
            match rest with
            | h1 :: h2 :: h3 :: h4 :: rest =>
              let p := p.afterAll [h1, h2, h3, h4]
              match codeUnit? h1 h2 h3 h4 with
              | none => .failed ⟨.malformed .invalidEscape, some p⟩ ⟨rest, p⟩
              | some n =>
                if isSecondSurrogate n then
                  .failed ⟨.malformed .loneSurrogate, some p⟩ ⟨rest, p⟩
                else if isFirstSurrogate n then
                  match rest with
                  | [] => .failed ⟨.malformed .endOfString, some p⟩ ⟨[], p⟩
                  | s :: rest =>
                    let p := p.after s
                    if s = 0x5c then
                      match rest with
                      | [] => .failed ⟨.malformed .endOfString, some p⟩ ⟨[], p⟩
                      | u :: rest =>
                        let p := p.after u
                        if u = 0x75 then
                          match rest with
                          | l1 :: l2 :: l3 :: l4 :: rest =>
                            let p := p.afterAll [l1, l2, l3, l4]
                            match codeUnit? l1 l2 l3 l4 with
                            | none => .failed ⟨.malformed .invalidEscape, some p⟩ ⟨rest, p⟩
                            | some m =>
                              if isSecondSurrogate m then
                                stringContent rest p
                                  (codePointReversed (joinSurrogates n m) ++ done)
                              else .failed ⟨.malformed .loneSurrogate, some p⟩ ⟨rest, p⟩
                          | short =>
                            let p := p.afterAll short
                            .failed ⟨.malformed .endOfString, some p⟩ ⟨[], p⟩
                        else .failed ⟨.malformed .endOfHexEscape, some p⟩ ⟨rest, p⟩
                    else .failed ⟨.malformed .endOfHexEscape, some p⟩ ⟨rest, p⟩
                else stringContent rest p (codePointReversed n ++ done)
            | short =>
              let p := p.afterAll short
              .failed ⟨.malformed .endOfString, some p⟩ ⟨[], p⟩
          else .failed ⟨.malformed .invalidEscape, some p⟩ ⟨rest, p⟩
    else if b < 0x20 then .failed ⟨.malformed .controlCharacter, some p⟩ ⟨rest, p⟩
    else stringContent rest p (b :: done)

/-- Skips the content of a string up to its closing quote. Neither UTF-8 nor surrogates matter. -/
def skipContent : List UInt8 → Position → Reading Unit
  | [], p => .failed ⟨.malformed .endOfString, some p⟩ ⟨[], p⟩
  | b :: rest, before =>
    let p := before.after b
    if b = 0x22 then .done () ⟨rest, p⟩
    else if b = 0x5c then
      match rest with
      | [] => .failed ⟨.malformed .endOfString, some p⟩ ⟨[], p⟩
      | e :: rest =>
        let p := p.after e
        if (letterEscape? e).isSome then skipContent rest p
        else if e = 0x75 then
          match rest with
          | h1 :: h2 :: h3 :: h4 :: rest =>
            let p := p.afterAll [h1, h2, h3, h4]
            if (codeUnit? h1 h2 h3 h4).isSome then skipContent rest p
            else .failed ⟨.malformed .invalidEscape, some p⟩ ⟨rest, p⟩
          | short =>
            let p := p.afterAll short
            .failed ⟨.malformed .endOfString, some p⟩ ⟨[], p⟩
        else .failed ⟨.malformed .invalidEscape, some p⟩ ⟨rest, p⟩
    else if b < 0x20 then .failed ⟨.malformed .controlCharacter, some before⟩ ⟨b :: rest, before⟩
    else skipContent rest p

namespace Reader

/-- Where content that is not UTF-8 is reported: as far before the end of the string as there are
bytes from the first wrong one on, escapes resolved. -/
def invalidAt (bytes : List UInt8) (stop : Position) : Position :=
  ⟨stop.line, stop.column - (bytes.length - (wellFormedPart bytes 0).length)⟩

/-- A string whose opening quote is behind. -/
def string : Reader String := fun i =>
  match stringContent i.ahead i.position [] with
  | .failed fault rest => .failed fault rest
  | .done bytes rest =>
    match String.fromUTF8? ⟨bytes.toArray⟩ with
    | some s => .done s rest
    | none => .failed ⟨.malformed .invalidCodePoint, some (invalidAt bytes rest.position)⟩ rest

/-- Skips a string whose opening quote is behind. -/
def skipString : Reader Unit := fun i => skipContent i.ahead i.position

end Reader

/-! ## Numbers -/

/-- The largest significand. -/
def significandLimit : Nat := 0xffffffffffffffff

/-- The largest exponent whose digits are read. -/
def exponentLimit : Nat := 0x7fffffff

def digitValue (b : UInt8) : Nat := b.toNat - 0x30

/-- Takes up digits as long as the significand stays within its limit. Also tells how many. -/
def absorb (significand : Nat) : List UInt8 → Nat × Nat
  | [] => (significand, 0)
  | b :: rest =>
    let more := significand * 10 + digitValue b
    if more ≤ significandLimit then
      let (final, taken) := absorb more rest
      (final, taken + 1)
    else (significand, 0)

/-- The digits up to the first one that carries the exponent past its limit, if there is one. -/
def exponentOverrun? (value : Nat) : List UInt8 → Option (List UInt8)
  | [] => none
  | b :: rest =>
    let more := value * 10 + digitValue b
    if more ≤ exponentLimit then (exponentOverrun? more rest).map (b :: ·) else some [b]

def digitsValue (digits : List UInt8) : Nat :=
  digits.foldl (fun value b => value * 10 + digitValue b) 0

/-- The largest power of ten that is a double. -/
def largestPower : Nat := 308

/-- Divides by `10 ^ exponent`, in steps of the largest power of ten. -/
def scaleDown (x : Magnitude) (exponent : Nat) : Option Magnitude :=
  if exponent ≤ largestPower then do
    x.div? (← Magnitude.ofNat? (Nat.pow 10 exponent))
  else if x.isZero then some x
  else do
    scaleDown (← x.div? (← Magnitude.ofNat? (Nat.pow 10 largestPower))) (exponent - largestPower)
termination_by exponent
decreasing_by simp only [largestPower] at *; omega

/-- `significand * 10 ^ exponent` as a double, or `none` past the largest one. -/
def scale (significand : Nat) (exponent : Int) : Option Magnitude := do
  let x ← Magnitude.ofNat? significand
  if 0 ≤ exponent then
    if exponent ≤ largestPower then x.mul? (← Magnitude.ofNat? (Nat.pow 10 exponent.toNat))
    else if x.isZero then some x
    else none
  else scaleDown x (-exponent).toNat

/-- A number without fraction and exponent, whose significand holds all its digits. -/
def wholeNumber (negative : Bool) (significand : Nat) : Option Number :=
  if negative then
    if h : 0 < significand ∧ significand ≤ 0x8000000000000000 then
      some (.integer (-(significand : Int)) (by omega))
    else (Magnitude.ofNat? significand).map fun x => .float ⟨true, x⟩
  else Number.ofNat? significand

namespace Reader

/-- The double `significand * 10 ^ exponent`. -/
def double (negative : Bool) (significand : Nat) (exponent : Int) : Reader Number :=
  match scale significand exponent with
  | some x => pure (.float ⟨negative, x⟩)
  | none => failHere .numberOutOfRange

/-- An exponent, whose letter is ahead, and with it the number. -/
def exponent (negative : Bool) (significand : Nat) (shift : Int) : Reader Number := do
  advance
  let down ← (do
    match ← peek with
    | some 0x2b => advance; pure false
    | some 0x2d => advance; pure true
    | _ => pure false)
  match ← peek with
  | none => failHere .endOfValue
  | some b =>
    if isDigit b then fun i =>
      let digits := i.ahead.takeWhile isDigit
      match exponentOverrun? 0 digits with
      | some read =>
        if significand ≠ 0 ∧ !down then
          let p := i.position.afterAll read
          .failed ⟨.malformed .numberOutOfRange, some p⟩ ⟨i.ahead.drop read.length, p⟩
        else
          .done (.float ⟨negative, .zero⟩)
            ⟨i.ahead.dropWhile isDigit, i.position.afterAll digits⟩
      | none =>
        let amount : Int := digitsValue digits
        double negative significand (if down then shift - amount else shift + amount)
          ⟨i.ahead.dropWhile isDigit, i.position.afterAll digits⟩
    else do
      advance
      failHere .invalidNumber

/-- What follows the whole part, whose digits beyond the significand number `surplus`. -/
def fraction (negative : Bool) (significand surplus : Nat) : Reader Number := do
  match ← peek with
  | some 0x2e => do
    advance
    let digits ← takeWhile isDigit
    if digits.isEmpty then
      match ← peek with
      | some _ => failNext .invalidNumber
      | none => failHere .endOfValue
    else
      let (significand, taken) := absorb significand digits
      let shift : Int := (surplus : Int) - taken
      match ← peek with
      | some 0x65 | some 0x45 => exponent negative significand shift
      | _ => double negative significand shift
  | some 0x65 | some 0x45 => exponent negative significand surplus
  | _ =>
    if surplus = 0 then
      match wholeNumber negative significand with
      | some n => pure n
      | none => failHere .numberOutOfRange
    else double negative significand surplus

/-- A number, whose minus sign is behind if it is `negative`. -/
def number (negative : Bool) : Reader Number := do
  match ← peek with
  | none => failHere .endOfValue
  | some b =>
    if b = 0x30 then do
      advance
      match ← peek with
      | some d => if isDigit d then failNext .invalidNumber else fraction negative 0 0
      | none => fraction negative 0 0
    else if isDigit b then do
      let digits ← takeWhile isDigit
      let (significand, taken) := absorb 0 digits
      fraction negative significand (digits.length - taken)
    else do
      advance
      failHere .invalidNumber

/-- Skips the digits of an exponent, whose letter is ahead. -/
def skipExponent : Reader Unit := do
  advance
  match ← peek with
  | some 0x2b | some 0x2d => advance
  | _ => pure ()
  match ← next with
  | some b =>
    if isDigit b then do
      let _ ← takeWhile isDigit
    else failHere .invalidNumber
  | none => failHere .invalidNumber

/-- Skips a number, whose minus sign is behind. Its size does not matter. -/
def skipNumber : Reader Unit := do
  match ← next with
  | some 0x30 => do
    match ← peek with
    | some d => if isDigit d then failNext .invalidNumber
    | none => pure ()
  | some b =>
    if isDigit b then do
      let _ ← takeWhile isDigit
    else failHere .invalidNumber
  | none => failHere .invalidNumber
  match ← peek with
  | some 0x2e => do
    advance
    let digits ← takeWhile isDigit
    if digits.isEmpty then failNext .invalidNumber
    else
      match ← peek with
      | some 0x65 | some 0x45 => skipExponent
      | _ => pure ()
  | some 0x65 | some 0x45 => skipExponent
  | _ => pure ()

end Reader

end MetaCache.Json
